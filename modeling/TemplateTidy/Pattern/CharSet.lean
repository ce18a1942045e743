import TemplateTidy.Pattern.Escape

/-! # Sets of characters in patterns

What stands between square brackets: characters, ranges and classes, or all but these. -/

namespace TemplateTidy.Pattern

open Text

def bracketClass : List Char → Option CharClass
  | ['a', 'l', 'p', 'h', 'a'] => some .letter
  | ['d', 'i', 'g', 'i', 't'] => some .digit
  | ['a', 'l', 'n', 'u', 'm'] => some .word
  | ['s', 'p', 'a', 'c', 'e'] => some .space
  | ['u', 'p', 'p', 'e', 'r'] => some .upperLetter
  | ['l', 'o', 'w', 'e', 'r'] => some .lowerLetter
  | ['p', 'u', 'n', 'c', 't'] => some .punctuation
  | ['x', 'd', 'i', 'g', 'i', 't'] => some .hexDigit
  | ['w', 'o', 'r', 'd'] => some .word
  | ['b', 'l', 'a', 'n', 'k'] => some .horizontal
  | _ => none

/-- Reads a class in the bracketed colon form, or nothing. -/
def bracketClass? : Reader (Option CharItem) := do
  let saved ← get
  if saved.flags.strict then return none
  unless ← accept "[:" do return none
  let negated ← accept "^"
  let name ← takeWhile fun c => c.isAlphanum || c == '_' || c == '-' || c == ' '
  if ← accept ":]" then
    match bracketClass (name.map Char.toLower) with
    | some k => return some (.named k !negated)
    | none => fail .badEscape
  else do
    set saved
    return none

/-- One item of a set, not yet part of a range. -/
def setItem : Reader CharItem := do
  if ← accept "\\" then escapeInSet
  else match ← bracketClass? with
    | some item => return item
    | none =>
      match ← nextRaw? with
      | some c => return .range c c
      | none => fail .unterminatedSet

/-- Whether a dash follows that does not end the set. -/
def dashInside : Reader Bool := do
  let saved ← get
  let inside ← if ← accept "-" then (do return !(← accept "]")) else pure false
  set saved
  return inside

/-- A character, or a range with its end.  In the strict dialect a class is no end of a range. -/
def setMember : Reader (List CharItem) := do
  let first ← setItem
  let strict := (← get).flags.strict
  match first with
  | .range a a' =>
    if a != a' then return [first]
    else
      let saved ← get
      if ← accept "-" then
        let afterDash ← get
        if ← accept "]" then
          set afterDash
          return [first, .range '-' '-']
        else
          match ← setItem with
          | .range b b' =>
            if b != b' then return [first, .range '-' '-', .range b b']
            else if b < a then fail .badRange
            else return [.range a b]
          | other => if strict then fail .badRange else return [first, .range '-' '-', other]
      else do
        set saved
        return [first]
  | other => if strict && (← dashInside) then fail .badRange else return [other]

def setMembers : (fuel : Nat) → List CharItem → Reader (List CharItem)
  | 0, _ => fail .tooDeep
  | fuel + 1, items => do
    if ← accept "]" then return items
    else
      let more ← setMember
      setMembers fuel (items ++ more)

/-- A set, after its opening bracket. -/
def charSet : Reader Node := do
  let saved := (← get).skipping
  modify ({ · with skipping := false })
  let negated ← accept "^"
  let first ← setMember
  let items ← setMembers ((← get).rest.length + 1) first
  modify ({ · with skipping := saved })
  return .one { items, negated, folding := (← get).flags.folding }

end TemplateTidy.Pattern
