import TemplateTidy.Pattern.CharSet

/-! # Reading patterns

`Pattern.read` reads the written form of a pattern.  Flags that a pattern sets for itself hold for all
of it, so the reader starts again with them. -/

namespace TemplateTidy.Pattern

open Text

/-- The bounds of a repetition in braces, or nothing. -/
def braceBounds : Reader (Option (Nat × Option Nat)) := do
  let saved ← get
  let least ← takeWhile Char.isDigit
  let bounds ←
    if ← accept "," then
      let most ← takeWhile Char.isDigit
      pure (some (number least 10, if most.isEmpty then none else some (number most 10)))
    else if least.isEmpty then pure none
    else pure (some (number least 10, some (number least 10)))
  match bounds with
  | none => do set saved; return none
  | some (lo, hi) =>
    if ← accept "\x7d" then
      if hi.any (· < lo) then fail .badRepeatRange else return some (lo, hi)
    else do
      set saved
      return none

/-- The bounds that a repetition mark stands for. -/
def bounds (mark : Char) : Reader (Option (Nat × Option Nat)) :=
  match mark with
  | '?' => return some (0, some 1)
  | '*' => return some (0, none)
  | '+' => return some (1, none)
  | _ => braceBounds

def repeated (last : Option Node) (before : List Node) (lo : Nat) (hi : Option Nat) :
    Reader Node := do
  match last with
  | none => if before.isEmpty then fail .nothingToRepeat else fail .multipleRepeat
  | some node =>
    if (← get).flags.strict && node.isAnchor then fail .nothingToRepeat
    let trivial := node.isEmpty || (lo == 1 && hi == some 1)
    if ← accept "?" then return if trivial then node else .rep node lo hi true
    else if ← accept "+" then return if trivial then node else .atomic (.rep node lo hi false)
    else return if trivial then node else .rep node lo hi false

def openGroup (name : Option String) : Reader Nat := do
  let c ← get
  match name.bind (c.names.lookup ·) with
  | some i => do
    set { c with opened := i :: c.opened }
    return i
  | none => do
    let i := c.count + 1
    set { c with
      count := i, opened := i :: c.opened,
      names := match name with
        | some n => (n, i) :: c.names
        | none => c.names }
    return i

/-- The option of a letter. -/
def flagOf : Char → Option Flags
  | 'i' => some { ignoreCase := true }
  | 'm' => some { multiline := true }
  | 's' => some { dotAll := true }
  | 'x' => some { verbose := true }
  | 'a' => some { ascii := true }
  | 'u' => some {}
  | _ => none

/-- Reads letters of options. -/
def flagSet : (fuel : Nat) → Flags → Bool → Reader (Flags × Bool)
  | 0, acc, any => return (acc, any)
  | fuel + 1, acc, any => do
    let saved ← get
    match (← next?).bind flagOf with
    | some f => flagSet fuel (acc.union f) true
    | none => do set saved; return (acc, any)

def skipComment : (fuel : Nat) → Reader Unit
  | 0 => fail .tooDeep
  | fuel + 1 => do
    match ← nextRaw? with
    | none => fail (.missing ")")
    | some ')' => return ()
    | some '\\' => do
      let _ ← nextRaw?
      skipComment fuel
    | some _ => skipComment fuel

/-- Runs a reader and then restores the options. -/
def inScope {α : Type} (r : Reader α) : Reader α := do
  let flags := (← get).flags
  let a ← r
  modify ({ · with flags, skipping := flags.verbose })
  return a

mutual

/-- A choice, up to a closing parenthesis or the end. -/
def alternatives : (fuel : Nat) → List Node → Reader Node
  | 0, _ => fail .tooDeep
  | fuel + 1, before => do
    let node ← sequence fuel [] none
    if ← accept "|" then alternatives fuel (node :: before)
    else return .choice (node :: before).reverse

/-- A sequence: `before` is what was read, the latest first, and `last` what a repetition mark
would repeat. -/
def sequence : (fuel : Nat) → (before : List Node) → (last : Option Node) → Reader Node
  | 0, _, _ => fail .tooDeep
  | fuel + 1, before, last => do
    let push (n : Node) : Reader Node :=
      match last with
      | some l => sequence fuel (l :: before) (some n)
      | none => sequence fuel before (some n)
    let saved ← get
    match ← next? with
    | none => return .ofList (last.toList ++ before).reverse
    | some c =>
      if c == ')' || c == '|' then do
        set { saved with pristine := false }
        return .ofList (last.toList ++ before).reverse
      modify ({ · with pristine := false })
      if c == '\\' then push (← escape)
      else if c == '(' then
        match ← paren fuel saved.pristine with
        | some n => push n
        | none => do
          modify ({ · with pristine := saved.pristine })
          sequence fuel before last
      else if c == '.' then
        if saved.flags.dotAll then push (.one { items := [], negated := true })
        else push (.one { items := [.range '\n' '\n'], negated := true })
      else if c == '[' then push (← charSet)
      else if c == '^' then
        push (.anchor (if saved.flags.multiline then .lineStart else .textStart))
      else if c == '$' then
        push (.anchor (if saved.flags.multiline then .lineEnd else .lastLineEnd))
      else if c == '?' || c == '*' || c == '+' || c == '{' then
        match ← bounds c with
        | some (lo, hi) => do
          let n ← repeated last before lo hi
          sequence fuel (n :: before) none
        | none => push (← literal c)
      else push (← literal c)

/-- What follows an opening parenthesis; nothing if it only sets options or comments.  In the strict
dialect only what comes `first` may set options. -/
def paren : (fuel : Nat) → (first : Bool) → Reader (Option Node)
  | 0, _ => fail .tooDeep
  | fuel + 1, first => do
    let capture (name : Option String) : Reader (Option Node) := do
      let i ← openGroup name
      let node ← inScope (do
        let n ← alternatives fuel []
        expect ")"
        return n)
      modify fun c => { c with opened := c.opened.erase i }
      return some (.group i node)
    let around (behind positive : Bool) : Reader (Option Node) := do
      let node ← inScope (do
        let n ← alternatives fuel []
        expect ")"
        return n)
      if behind && (← get).flags.strict && node.width?.isNone then fail .variableWidth
      return some (.look behind positive node)
    let saved ← get
    match ← nextRaw? with
    | some '?' => do
      let afterMark ← get
      match ← nextRaw? with
      | some '<' => do
        let afterAngle ← get
        match ← next? with
        | some '=' => around true true
        | some '!' => around true false
        | _ => do
          set afterAngle
          if afterAngle.flags.strict then fail .unknownExtension
          let name ← groupName false
          expect ">"
          capture (some name)
      | some '=' => around false true
      | some '!' => around false false
      | some 'P' => do
        match ← next? with
        | some '<' => do
          let name ← groupName false
          expect ">"
          capture (some name)
        | some '=' => do
          let name ← groupName true
          expect ")"
          return some (← recallOf name)
        | _ => fail .unknownExtension
      | some '#' => do
        skipComment ((← get).rest.length + 1)
        return none
      | some '(' => do
        let name ← groupName true
        expect ")"
        let i ← groupIndex name
        let node ← inScope (do
          let yes ← sequence fuel [] none
          let no ← if ← accept "|" then sequence fuel [] none else pure .empty
          expect ")"
          return Node.ifGroup i yes no)
        return some node
      | some '>' => do
        let node ← inScope (do
          let n ← alternatives fuel []
          expect ")"
          return n)
        return some (.atomic node)
      | _ => do
        set afterMark
        let (on, _) ← flagSet afterMark.rest.length {} false
        let (off, offAny) ←
          if ← accept "-" then flagSet afterMark.rest.length {} false else pure ({}, true)
        unless offAny do fail .badFlags
        if ← accept ":" then do
          let node ← inScope (do
            modify fun c =>
              let flags := (c.flags.union on).diff off
              { c with flags, skipping := flags.verbose }
            let n ← alternatives fuel []
            expect ")"
            return n)
          return some node
        else if ← accept ")" then do
          if off != {} || (afterMark.flags.strict && !first) then fail .badFlags
          let shared := (← get).shared
          if shared.union on != shared then throw (.restart (shared.union on))
          return none
        else fail .unknownExtension
    | _ => do
      set saved
      capture none

end

/-- Reads a whole pattern under fixed options. -/
def readWith (flags : Flags) (source : List Char) : Except Halt Pattern := do
  let start : Cursor :=
    { rest := source, flags, shared := flags, skipping := flags.verbose }
  let (node, c) ← (alternatives (4 * source.length + 16) []).run start
  if c.ahead.isEmpty then
    if node.recalled.all fun i => 1 ≤ i && i ≤ c.count then
      return { node, groups := c.count }
    else throw (.fault .unknownGroup)
  else throw (.fault .unbalanced)

/-- Reads a pattern; each new start sets more options, so there are few. -/
def readAgain : (fuel : Nat) → Flags → List Char → Except PatternFault Pattern
  | 0, _, _ => .error .tooDeep
  | fuel + 1, flags, source =>
    match readWith flags source with
    | .ok p => .ok p
    | .error (.fault f) => .error f
    | .error (.restart flags) => readAgain fuel flags source

/-- Whether a text ends with a backslash that escapes nothing. -/
def endsEscaping (source : List Char) : Bool :=
  (source.reverse.takeWhile (· == '\\')).length % 2 == 1

/-- Reads a pattern.  In the strict dialect the last backslash has to escape something, even in a
comment. -/
def read (flags : Flags) (source : List Char) : Except PatternFault Pattern :=
  if flags.strict && endsEscaping source then .error .badEscape else readAgain 8 flags source

/-- The pattern that matches nowhere. -/
def never : Pattern :=
  { node := .fail, groups := 0 }

/-- A pattern that is known to be well written. -/
def ofSource (flags : Flags) (source : String) : Pattern :=
  match read flags source.toList with
  | .ok p => p
  | .error _ => never

/-- Writes a text as a pattern that matches just it. -/
def quote (text : List Char) : List Char :=
  text.flatMap fun c =>
    if "()[]\x7b\x7d?*+|^$\\.-#&~".toList.contains c || isBlank c then ['\\', c]
    else if c == '\x00' then "\\000".toList
    else [c]

end TemplateTidy.Pattern
