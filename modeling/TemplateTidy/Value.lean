import TemplateTidy.Number.Ratio
import TemplateTidy.Text.Printable

/-! # Values

The values of settings files, rule files and data expressions.  `render` writes a value as text:
text stands for itself at the outside and is quoted inside containers. -/

namespace TemplateTidy

open Text

/-- A value of a settings file, a rule file or a data expression. -/
inductive Value where
  | null
  /-- A literal that stands for something left out. -/
  | ellipsis
  | bool (b : Bool)
  | int (i : Int)
  | float (x : Float)
  | text (s : String)
  /-- A date or a time, by its text. -/
  | moment (s : String)
  | list (xs : List Value)
  | tuple (xs : List Value)
  | set (xs : List Value)
  /-- Entries in the order in which their keys came first. -/
  | dict (entries : List (Value × Value))
deriving Repr, Inhabited

namespace Value

/-- Whether the value counts as yes. -/
def truthy : Value → Bool
  | .null => false
  | .ellipsis => true
  | .bool b => b
  | .int i => i != 0
  | .float x => x != 0.0
  | .text s => !s.isEmpty
  | .moment _ => true
  | .list xs | .tuple xs | .set xs => !xs.isEmpty
  | .dict entries => !entries.isEmpty

/-- The first value that counts as yes, or the second. -/
def orElse (a b : Value) : Value :=
  if a.truthy then a else b

/-- Lower-case hexadecimal digits, padded to a width. -/
def hex (width n : Nat) : String :=
  let digits := Nat.toDigits 16 n
  String.ofList (List.replicate (width - digits.length) '0' ++ digits)

def quoteChar (mark c : Char) : String :=
  if c == mark || c == '\\' then String.ofList ['\\', c]
  else if c == '\n' then "\\n"
  else if c == '\r' then "\\r"
  else if c == '\t' then "\\t"
  else if isPrintable c then String.singleton c
  else if c.toNat < 0x100 then "\\x" ++ hex 2 c.toNat
  else if c.toNat < 0x10000 then "\\u" ++ hex 4 c.toNat
  else "\\U" ++ hex 8 c.toNat

/-- Text in single quotes, or in double quotes if it holds single quotes and no double ones. -/
def quote (s : String) : String :=
  let mark := if s.toList.contains '\'' && !s.toList.contains '"' then '"' else '\''
  String.singleton mark ++ String.join (s.toList.map (quoteChar mark)) ++ String.singleton mark

def commaJoin (xs : List String) : String :=
  String.intercalate ", " xs

mutual

/-- The text of a value inside a container. -/
def inner : Value → String
  | .null => "None"
  | .ellipsis => "Ellipsis"
  | .bool b => if b then "True" else "False"
  | .int i => toString i
  | .float x => Number.render x
  | .text s => quote s
  | .moment s => s
  | .list xs => "[" ++ commaJoin (innerAll xs) ++ "]"
  | .tuple xs => "(" ++ commaJoin (innerAll xs) ++ (if xs.length = 1 then ",)" else ")")
  | .set xs => if xs.isEmpty then "set()" else "\x7b" ++ commaJoin (innerAll xs) ++ "\x7d"
  | .dict entries => "\x7b" ++ commaJoin (innerEntries entries) ++ "\x7d"

/-- The texts of the values of a container. -/
def innerAll : List Value → List String
  | [] => []
  | x :: rest => inner x :: innerAll rest

/-- The texts of the entries of a dictionary. -/
def innerEntries : List (Value × Value) → List String
  | [] => []
  | (k, v) :: rest => (inner k ++ ": " ++ inner v) :: innerEntries rest

end

/-- The text of a value. -/
def render : Value → String
  | .text s => s
  | v => inner v

/-- The value of a number that equals other numbers of its size: truth values count as 0 and 1. -/
def integral? : Value → Option Int
  | .bool b => some (if b then 1 else 0)
  | .int i => some i
  | _ => none

mutual

/-- Equality of values; numbers are compared by size, and the order of sets and dictionaries does not
count. -/
def same : Value → Value → Bool
  | .null, .null => true
  | .ellipsis, .ellipsis => true
  | .text a, .text b => a == b
  | .moment a, .moment b => a == b
  | .float a, .float b => a == b
  | .list a, .list b => sameAll a b
  | .tuple a, .tuple b => sameAll a b
  | .set a, .set b => a.length == b.length && allAmong a b
  | .dict a, .dict b => a.length == b.length && entriesAmong a b
  | .float a, b =>
    match b.integral? with
    | some i => Number.compareWhole? i a == some .eq
    | none => false
  | a, .float b =>
    match a.integral? with
    | some i => Number.compareWhole? i b == some .eq
    | none => false
  | a, b =>
    match a.integral?, b.integral? with
    | some i, some j => i == j
    | _, _ => false

/-- Equality of lists of values. -/
def sameAll : List Value → List Value → Bool
  | [], [] => true
  | a :: as, b :: bs => same a b && sameAll as bs
  | _, _ => false

/-- Whether each of some values equals one of the others. -/
def allAmong : List Value → List Value → Bool
  | [], _ => true
  | a :: as, bs => bs.any (fun b => same a b) && allAmong as bs

/-- Whether each of some entries equals one of the others. -/
def entriesAmong : List (Value × Value) → List (Value × Value) → Bool
  | [], _ => true
  | (k, v) :: as, bs => bs.any (fun e => same k e.1 && same v e.2) && entriesAmong as bs

end

instance : BEq Value := ⟨same⟩

/-- The most decimal digits that are read or written for a whole number. -/
def mostDigits : Nat := 4300

mutual

/-- Whether all whole numbers of a value can be written. -/
def isWritable : Value → Bool
  | .int i => i.natAbs < Nat.pow 10 mostDigits
  | .list xs | .tuple xs | .set xs => areWritable xs
  | .dict entries => entriesWritable entries
  | _ => true

/-- Whether all whole numbers of some values can be written. -/
def areWritable : List Value → Bool
  | [] => true
  | x :: rest => isWritable x && areWritable rest

/-- Whether all whole numbers of some entries can be written. -/
def entriesWritable : List (Value × Value) → Bool
  | [] => true
  | (k, v) :: rest => isWritable k && isWritable v && entriesWritable rest

end

/-- The entry of a text key. -/
def get? (v : Value) (key : String) : Option Value :=
  match v with
  | .dict entries => (entries.find? fun e => e.1 == .text key).map (·.2)
  | _ => none

/-- Sets the entry of a key: in place if the key is there, at the end otherwise. -/
def put (entries : List (Value × Value)) (key v : Value) : List (Value × Value) :=
  match entries with
  | [] => [(key, v)]
  | (k, w) :: rest => if k == key then (k, v) :: rest else (k, w) :: put rest key v

def isText : Value → Bool
  | .text _ => true
  | _ => false

/-- Whether the value is exactly the truth value `b`. -/
def isBool (v : Value) (b : Bool) : Bool :=
  match v with
  | .bool c => b == c
  | _ => false

/-! ### Texts among values -/

theorem beq_text_iff {s : String} {v : Value} : (v == Value.text s) = true ↔ v = .text s := by
  show Value.same v (.text s) = true ↔ v = .text s
  cases v <;> simp [Value.same, Value.integral?]

theorem text_beq_iff {s : String} {v : Value} : (Value.text s == v) = true ↔ v = .text s := by
  show Value.same (.text s) v = true ↔ v = .text s
  cases v with
  | text t => simpa [Value.same] using eq_comm
  | _ => simp [Value.same, Value.integral?]

/-- The last write of an entry counts. -/
theorem put_put (s : String) (a b : Value) : ∀ entries : List (Value × Value),
    put (put entries (.text s) a) (.text s) b = put entries (.text s) b
  | [] => if_pos (beq_text_iff.2 rfl)
  | (k, w) :: rest => by
      simp only [put]
      split
      next h => simp only [put, if_pos h]
      next h => simp only [put, if_neg h, put_put s a b rest]

end Value

end TemplateTidy
