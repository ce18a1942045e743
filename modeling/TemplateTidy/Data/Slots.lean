import TemplateTidy.Number.Ratio
import TemplateTidy.Value

/-! # The order of sets

The elements of a set are listed in the order of the slots of a table that hold them.  A number has a
code, which leads to a path of slots, and takes the first free slot of this path.  A table that is
three fifths full moves its elements to a larger one, in the order in which it lists them. -/

namespace TemplateTidy.Data

/-- The prime by which the codes of numbers are reduced. -/
def codePrime : Nat := Nat.pow 2 61 - 1

/-- The code of the fraction `num / 2 ^ k`, as a 64-bit word; no code is minus one. -/
def codeOfRatio (num : Int) (k : Nat) : Nat :=
  let size := num.natAbs * Nat.pow 2 ((61 - k % 61) % 61) % codePrime
  let code : Int := if num < 0 then -(size : Int) else size
  ((if code = -1 then -2 else code) % (Nat.pow 2 64 : Nat)).toNat

def codeOf? : Value → Option Nat
  | .float x =>
    if x.isNaN then none
    else if x.isInf then some (codeOfRatio (if Number.isNegative x then -314159 else 314159) 0)
    else
      let (num, den) := Number.ratio x
      some (codeOfRatio num den.log2)
  | v => v.integral?.map (codeOfRatio · 0)

/-- Slots in a table, each with its element and the code of this. -/
structure Slots where
  /-- The number of slots, a power of two. -/
  size : Nat
  held : List (Nat × Nat × Value)

namespace Slots

/-- A table without elements. -/
def empty : Slots := ⟨8, []⟩

/-- The size of a table for more than `n` elements. -/
def sizeAbove (n : Nat) : Nat :=
  max 8 (Nat.pow 2 (n.log2 + 1))

/-- The first free slot of a path that has come to `slot`; `rest` are the bits of the code that have
not been used yet. -/
def freeSlot (taken : List Nat) (size : Nat) : (fuel slot rest : Nat) → Nat
  | 0, slot, _ => slot
  | fuel + 1, slot, rest =>
    let near := if slot + 9 < size then List.range 10 else [0]
    match (near.map (slot + ·)).find? (!taken.contains ·) with
    | some free => free
    | none =>
      let rest := rest / 32
      freeSlot taken size fuel ((slot * 5 + 1 + rest) % size) rest

/-- Puts an element into its slot. -/
def place (s : Slots) (code : Nat) (x : Value) : Slots :=
  let slot := freeSlot (s.held.map (·.1)) s.size (s.size + 16) (code % s.size) code
  { s with held := (slot, code, x) :: s.held }

/-- The elements with their codes, in the order of the slots. -/
def entries (s : Slots) : List (Nat × Value) :=
  (s.held.mergeSort fun a b => a.1 ≤ b.1).map (·.2)

/-- A table of another size with the elements of this one. -/
def resize (s : Slots) (size : Nat) : Slots :=
  s.entries.foldl (fun t e => t.place e.1 e.2) ⟨size, []⟩

/-- Whether `n` elements are too many for a table. -/
def isCrowded (size n : Nat) : Bool :=
  (size - 1) * 3 ≤ n * 5

/-- Adds an element, unless it is there. -/
def add (s : Slots) (e : Nat × Value) : Slots :=
  if s.held.any fun h => h.2.2.same e.2 then s
  else
    let t := s.place e.1 e.2
    if isCrowded t.size t.held.length then t.resize (sizeAbove (4 * t.held.length)) else t

/-- The table into which some elements have been put one by one. -/
def ofEntries (es : List (Nat × Value)) : Slots :=
  es.foldl add empty

/-- A table that takes over all elements of another at once. -/
def takeOver (s : Slots) : Slots :=
  let size := if isCrowded 8 s.held.length then sizeAbove (2 * s.held.length) else 8
  if size = s.size then s else s.resize size

end Slots

/-- The elements of a set in order.  Those of a `fixed` set, which is known before it is used, have
been listed and put into a table once more.  Elements without a code stay as they come. -/
def setOrder (fixed : Bool) (xs : List Value) : List Value :=
  match xs.mapM fun x => (codeOf? x).map (·, x) with
  | none => xs.foldl (fun kept x => if kept.any x.same then kept else kept ++ [x]) []
  | some es =>
    let table := Slots.ofEntries es
    let table := if fixed then (Slots.ofEntries table.entries).takeOver else table
    table.entries.map (·.2)

end TemplateTidy.Data
