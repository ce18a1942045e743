import TemplateTidy.Data.Expression.Operator
import TemplateTidy.Text.Blank

/-! # Data expressions

Expressions over literals: numbers, text, tuples, lists, sets and dictionaries, arithmetic,
comparisons, logic and conditionals.  `eval` reads an expression and computes its value.  Setting an
option changes a state, and the change stays if the expression has no value in the end. -/

namespace TemplateTidy.Data.Expression

/-- A computation of a value over a state. -/
abbrev Evaluation (σ : Type) := OptionT (StateM σ)

variable {σ : Type}

/-- What an expression sees of its surroundings. -/
structure View (σ : Type) where
  /-- The text of the whole expression. -/
  contents : String
  /-- Sets an option by its name, if there is such an option. -/
  assign? : String → Value → σ → Option σ

def View.assign (view : View σ) : Value → Value → Evaluation σ Value
  | .text name, value => do
    set (← (view.assign? name value (← get)).getM)
    return .null
  | _, _ => failure

mutual

def Expr.eval (view : View σ) : Expr → Evaluation σ Value
  | .lit v => return v
  | .contents => return .text view.contents
  | .strip a => do
    let .text s ← a.eval view | failure
    return .text (String.ofList (Text.strip s.toList))
  | .assign name value => do
    let name ← name.eval view
    view.assign name (← value.eval view)
  | .unknown => failure
  | .unary op a => do Option.getM <| op.apply? (← a.eval view)
  | .binary op a b => do
    let v ← a.eval view
    Option.getM <| op.apply? v (← b.eval view)
  | .both a b => do
    let v ← a.eval view
    if v.truthy then b.eval view else return v
  | .either a b => do
    let v ← a.eval view
    if v.truthy then return v else b.eval view
  | .chain a rest => do evalChain view (← a.eval view) rest
  | .choice condition yes no => do
    if (← condition.eval view).truthy then yes.eval view else no.eval view
  | .list xs => return .list (← evalAll view xs)
  | .tuple xs => return .tuple (← evalAll view xs)
  | .set xs => do
    let vs ← evalAll view xs
    if vs.all isKey then return .set (setOrder (2 < xs.length && areFixed xs) vs) else failure
  | .dict entries => do
    let pairs ← evalEntries view entries
    if pairs.all fun (key, _) => isKey key then
      return .dict (pairs.foldl (fun acc (key, value) => Value.put acc key value) [])
    else failure

/-- The value of comparisons after a value: the first that fails, or the last. -/
def evalChain (view : View σ) (v : Value) : List (Comparison × Expr) → Evaluation σ Value
  | [] => return .bool true
  | (op, b) :: rest => do
    let w ← b.eval view
    if ← (op.holds? v w).getM then evalChain view w rest else return .bool false

def evalAll (view : View σ) : List Expr → Evaluation σ (List Value)
  | [] => return []
  | x :: rest => return (← x.eval view) :: (← evalAll view rest)

def evalEntries (view : View σ) : List (Expr × Expr) → Evaluation σ (List (Value × Value))
  | [] => return []
  | (k, v) :: rest => do
    let key ← k.eval view
    let value ← v.eval view
    return (key, value) :: (← evalEntries view rest)

end

/-- The value of a written expression; none if it is badly written, or has no value or none that can
be written. -/
def eval (assign? : String → Value → σ → Option σ) (s : List Char) : Evaluation σ Value := do
  let v ← (← (parse? s).getM).eval { contents := String.ofList s, assign? }
  if v.isWritable then return v else failure

end TemplateTidy.Data.Expression
