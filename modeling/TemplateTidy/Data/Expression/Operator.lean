import TemplateTidy.Data.Expression.Tree
import TemplateTidy.Data.Slots
import TemplateTidy.Number.Ratio

/-! # Operators on values

Arithmetic, comparisons and sets of values.  An operator has no result if its operands do not fit. -/

namespace TemplateTidy.Data.Expression

open Text

def floatValue? : Value → Option Float
  | .float x => some x
  | v => v.integral?.bind Number.ofWhole?

/-- Whether a value is a floating-point number. -/
def isFloat : Value → Bool
  | .float _ => true
  | _ => false

/-- Applies a whole-number operation or a floating-point one. -/
def arith (onInts : Int → Int → Option Value) (onFloats : Float → Float → Option Value)
    (a b : Value) : Option Value :=
  if isFloat a || isFloat b then do onFloats (← floatValue? a) (← floatValue? b)
  else do onInts (← a.integral?) (← b.integral?)

/-- The most bits of a number and the most elements of a sequence that are computed. -/
def mostRoom : Nat := 10000000

/-- A power of floating-point numbers; none if it is not real or too large. -/
def floatPower? (x y : Float) : Option Value :=
  let z := Float.pow x y
  if (x == 0.0 && y < 0.0) || (x < 0.0 && x.isFinite && y.isFinite && y.floor != y) then none
  else if z.isInf && x.isFinite && y.isFinite then none
  else some (.float z)

/-- A power of whole numbers: a whole number, unless the exponent is negative. -/
def wholePower? (i j : Int) : Option Value :=
  if 0 ≤ j then
    if 1 < i.natAbs && mostRoom < (i.natAbs.log2 + 1) * j.toNat then none
    else if i.natAbs ≤ 1 then some (.int (i.pow (if i < 0 then j.toNat % 2 else min 1 j.toNat)))
    else some (.int (i.pow j.toNat))
  else do floatPower? (← Number.ofWhole? i) (← Number.ofWhole? j)

/-- Repeats the elements of a sequence. -/
def repeated? {α : Type} (xs : List α) (n : Int) : Option (List α) :=
  if mostRoom < xs.length * n.toNat then none
  else if xs.isEmpty then some []
  else some (List.replicate n.toNat xs).flatten

/-- A bitwise operation on numbers of any sign. -/
def bitwise (f : Bool → Bool → Bool) (i j : Int) : Int :=
  let width := max i.natAbs.log2 j.natAbs.log2 + 2
  let bit (n : Int) (k : Nat) : Bool := (n / (Nat.pow 2 k : Nat)) % 2 = 1
  (List.range (width + 1)).foldl (fun acc k =>
    if f (bit i k) (bit j k) then
      if k = width then acc - (Nat.pow 2 k : Nat) else acc + (Nat.pow 2 k : Nat)
    else acc) 0

/-- A bitwise operation on numbers or truth values. -/
def bitwiseValue (f : Bool → Bool → Bool) (a b : Value) : Option Value :=
  match a, b with
  | .bool x, .bool y => some (.bool (f x y))
  | _, _ => do return .int (bitwise f (← a.integral?) (← b.integral?))

/-- Applies an operator with two operands. -/
def Binary.apply? (op : Binary) (a b : Value) : Option Value :=
  match op with
  | .add =>
    match a, b with
    | .text s, .text t => some (.text (s ++ t))
    | .list xs, .list ys => some (.list (xs ++ ys))
    | .tuple xs, .tuple ys => some (.tuple (xs ++ ys))
    | _, _ => arith (fun i j => some (.int (i + j))) (fun x y => some (.float (x + y))) a b
  | .sub => arith (fun i j => some (.int (i - j))) (fun x y => some (.float (x - y))) a b
  | .mul =>
    match a, b with
    | .text s, n | n, .text s => do return .text (String.ofList (← repeated? s.toList (← n.integral?)))
    | .list xs, n | n, .list xs => do return .list (← repeated? xs (← n.integral?))
    | .tuple xs, n | n, .tuple xs => do return .tuple (← repeated? xs (← n.integral?))
    | _, _ => arith (fun i j => some (.int (i * j))) (fun x y => some (.float (x * y))) a b
  | .div =>
    arith (fun i j => (Number.quotient? i j).map Value.float)
      (fun x y => if y == 0.0 then none else some (.float (x / y))) a b
  | .floorDiv =>
    arith (fun i j => if j = 0 then none else some (.int (Int.fdiv i j)))
      (fun x y => if y == 0.0 then none else some (.float (Number.floorQuotient x y))) a b
  | .mod =>
    arith (fun i j => if j = 0 then none else some (.int (Int.fmod i j)))
      (fun x y => if y == 0.0 then none else some (.float (Number.remainder x y))) a b
  | .pow => arith wholePower? floatPower? a b
  | .bitAnd => bitwiseValue (· && ·) a b
  | .bitOr => bitwiseValue (· || ·) a b
  | .bitXor => bitwiseValue (· != ·) a b
  | .shiftLeft => do
    let i ← a.integral?
    let n ← b.integral?
    if n < 0 then none
    else if i = 0 then some (.int 0)
    else if mostRoom < n.toNat then none
    else some (.int (i * (Nat.pow 2 n.toNat : Nat)))
  | .shiftRight => do
    let i ← a.integral?
    let n ← b.integral?
    if n < 0 then none
    else some (.int (Int.fdiv i (Nat.pow 2 (min n.toNat (i.natAbs.log2 + 1)) : Nat)))
  | .matrix => none

/-- Applies an operator with one operand. -/
def Unary.apply? (op : Unary) (a : Value) : Option Value :=
  match op with
  | .negation => some (.bool (!a.truthy))
  | .plus =>
    match a with
    | .float x => some (.float x)
    | _ => a.integral?.map Value.int
  | .minus =>
    match a with
    | .float x => some (.float (-x))
    | _ => a.integral?.map fun i => .int (-i)
  | .complement => a.integral?.map fun i => .int (-i - 1)

mutual

/-- The order of two values; none if they have no order. -/
def order? : Value → Value → Option Ordering
  | .text s, .text t => some (compare s.toList t.toList)
  | .list xs, .list ys | .tuple xs, .tuple ys => orderAll? xs ys
  | .float x, .float y =>
    if x < y then some .lt else if y < x then some .gt else if x == y then some .eq else none
  | .float x, b => do (← Number.compareWhole? (← b.integral?) x).swap
  | a, .float y => do Number.compareWhole? (← a.integral?) y
  | a, b => do return compare (← a.integral?) (← b.integral?)

/-- The order of two sequences: that of the first elements that differ. -/
def orderAll? : List Value → List Value → Option Ordering
  | [], [] => some .eq
  | [], _ :: _ => some .lt
  | _ :: _, [] => some .gt
  | x :: xs, y :: ys => if x.same y then orderAll? xs ys else order? x y

end

/-- Whether a value is an element of another. -/
def isElement? (a b : Value) : Option Bool :=
  match b with
  | .text t =>
    match a with
    | .text s => some (contains s.toList t.toList)
    | _ => none
  | .list xs | .tuple xs | .set xs => some (xs.any a.same)
  | .dict es => some (es.any fun e => a.same e.1)
  | _ => none

/-- Whether two values are of one kind and equal. -/
def identical (a b : Value) : Bool :=
  match a, b with
  | .bool x, .bool y => x == y
  | .bool _, _ | _, .bool _ => false
  | .float _, .int _ | .int _, .float _ => false
  | _, _ => a.same b

/-- Whether a comparison holds; none if the values have no order. -/
def Comparison.holds? (op : Comparison) (a b : Value) : Option Bool :=
  match op with
  | .eq => some (a.same b)
  | .ne => some (!a.same b)
  | .lt => (order? a b).map (· == .lt)
  | .le => (order? a b).map (· != .gt)
  | .gt => (order? a b).map (· == .gt)
  | .ge => (order? a b).map (· != .lt)
  | .isIn => isElement? a b
  | .notIn => (isElement? a b).map (!·)
  | .isSame => some (identical a b)
  | .notSame => some (!identical a b)

mutual

/-- Whether a value may be a key or an element of a set. -/
def isKey : Value → Bool
  | .list _ | .set _ | .dict _ => false
  | .tuple xs => areKeys xs
  | _ => true

/-- Whether all values may be keys. -/
def areKeys : List Value → Bool
  | [] => true
  | x :: rest => isKey x && areKeys rest

end

end TemplateTidy.Data.Expression
