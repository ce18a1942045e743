import TemplateTidy.Pattern.Matcher
import TemplateTidy.Pattern.Reader

/-! # Searching

`find?` gives the leftmost match of a pattern, `findAll` all of them from left to right without
overlap, and `replaceAll` puts other text in the place of each.  After an empty match the next one may
begin at the same place but must end farther on. -/

namespace TemplateTidy

/-- A match: the span it covers and those that its groups remember. -/
structure Match where
  start : Nat
  stop : Nat
  groups : List (Nat × Span)
deriving DecidableEq, Repr

def Match.span (m : Match) : Span :=
  ⟨m.start, m.stop⟩

def Span.of (s : Span) (text : Array Char) : List Char :=
  (text.extract s.start s.stop).toList

def Match.text (m : Match) (text : Array Char) : List Char :=
  m.span.of text

def Match.group? (m : Match) (index : Nat) : Option Span :=
  m.groups.lookup index

/-- The text that a group remembers, if it took part. -/
def Match.capture? (m : Match) (text : Array Char) (index : Nat) : Option (List Char) :=
  (m.group? index).map (·.of text)

/-- The text that a group remembers; empty if it took no part. -/
def Match.capture (m : Match) (text : Array Char) (index : Nat) : List Char :=
  (m.capture? text index).getD []

namespace Pattern

/-- The preferred match that begins at `pos` and that `allowed` lets end where it does. -/
def matchFrom? (p : Pattern) (scene : Scene) (allowed : Nat → Bool) (pos : Nat) : Option Match :=
  let start : Point := { pos, start := pos, groups := [] }
  let found := p.node.ends scene false start (Option Point)
    (fun q none? => if allowed q.pos then .stop (some q) else .more none?) none
  found.state.map fun q => { start := q.start, stop := q.pos, groups := q.groups }

/-- The first match that begins in one of `fuel` places from `pos` on. -/
def scan (p : Pattern) (scene : Scene) (allowed : Nat → Bool) : (fuel pos : Nat) → Option Match
  | 0, _ => none
  | fuel + 1, pos =>
    match p.matchFrom? scene allowed pos with
    | some m => some m
    | none => p.scan scene allowed fuel (pos + 1)

/-- What a search from `origin` runs on. -/
def scene (p : Pattern) (text : Array Char) (origin : Nat) : Scene :=
  { text, recalled := p.node.recalled.eraseDups, origin }

/-- The leftmost match from `origin` on; with `advance` it must not end there. -/
def findFrom? (p : Pattern) (text : Array Char) (origin : Nat) (advance : Bool) : Option Match :=
  p.scan (p.scene text origin) (fun stop => !(advance && stop == origin))
    (text.size + 1 - origin) origin

/-- The leftmost match. -/
def find? (p : Pattern) (text : Array Char) : Option Match :=
  p.findFrom? text 0 false

/-- Whether the pattern matches somewhere. -/
def occurs (p : Pattern) (text : Array Char) : Bool :=
  (p.find? text).isSome

/-- The match that begins with the text. -/
def matchStart? (p : Pattern) (text : Array Char) : Option Match :=
  p.matchFrom? (p.scene text 0) (fun _ => true) 0

def matchAt? (p : Pattern) (text : Array Char) (pos : Nat) : Option Match :=
  p.matchFrom? (p.scene text pos) (fun _ => true) pos

/-- At most `fuel` matches from `origin` on. -/
def findAllFrom (p : Pattern) (text : Array Char) : (fuel origin : Nat) → (advance : Bool) →
    List Match
  | 0, _, _ => []
  | fuel + 1, origin, advance =>
    match p.findFrom? text origin advance with
    | some m => m :: p.findAllFrom text fuel m.stop (m.start == m.stop)
    | none => []

/-- All matches from left to right. -/
def findAll (p : Pattern) (text : Array Char) : List Match :=
  p.findAllFrom text (2 * text.size + 2) 0 false

end Pattern

/-- Puts an image in the place of each match, from `pos` on. -/
def splice (text : Array Char) (pos : Nat) : List (Match × List Char) → List Char
  | [] => Span.of ⟨pos, text.size⟩ text
  | (m, image) :: rest => Span.of ⟨pos, m.start⟩ text ++ image ++ splice text m.stop rest

namespace Pattern

/-- Puts `f m` in the place of each match `m`. -/
def replaceAll (p : Pattern) (f : Match → List Char) (text : Array Char) : List Char :=
  splice text 0 ((p.findAll text).map fun m => (m, f m))

/-- Like `replaceAll`, where `f` may have effects; it is run on the matches from left to right. -/
def replaceAllM {μ : Type → Type} [Monad μ] (p : Pattern) (f : Match → μ (List Char))
    (text : Array Char) : μ (List Char) := do
  return splice text 0 (← (p.findAll text).mapM fun m => do return (m, ← f m))

/-- The pieces of a text between the matches. -/
def split (p : Pattern) (text : Array Char) : List (List Char) :=
  go 0 (p.findAll text)
where
  go (pos : Nat) : List Match → List (List Char)
    | [] => [Span.of ⟨pos, text.size⟩ text]
    | m :: rest => Span.of ⟨pos, m.start⟩ text :: go m.stop rest

end Pattern

end TemplateTidy
