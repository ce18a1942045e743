import Std.Data.HashSet
import TemplateTidy.Pattern.Syntax

/-! # Matching

`Node.ends` visits the points at which a match of a pattern may end, in order of preference, until
the visitor stops it.  A visitor takes a point and a state and answers with a new state, marked
`stop` to end the visit or `more` to go on.  The recursion is on the pattern; a repetition carries the number
of rounds that the text still allows, and the places where it has been before, so that no place is
tried twice. -/

namespace TemplateTidy

/-- A piece of a text, from `start` to before `stop`. -/
structure Span where
  start : Nat
  stop : Nat
deriving DecidableEq, Repr, Hashable, Inhabited

/-- Where a match stands. -/
structure Point where
  pos : Nat
  /-- Where the reported match begins. -/
  start : Nat
  /-- The spans that groups remember, the latest first. -/
  groups : List (Nat × Span)
deriving DecidableEq, Repr

def Point.group? (p : Point) (index : Nat) : Option Span :=
  p.groups.lookup index

/-- What a match runs on. -/
structure Scene where
  text : Array Char
  /-- The groups whose remembered spans the pattern reads. -/
  recalled : List Nat
  /-- Where the search began. -/
  origin : Nat

/-- The answer of a visitor. -/
inductive Progress (σ : Type) where
  /-- The visit is over. -/
  | stop (s : σ)
  /-- The visit goes on. -/
  | more (s : σ)

/-- Visits points in order of preference, until the visitor stops. -/
abbrev Visit (σ : Type) := (Point → σ → Progress σ) → σ → Progress σ

namespace Progress

/-- Continues with `k` unless the visit is over. -/
@[inline] def andThen {σ : Type} (r : Progress σ) (k : σ → Progress σ) : Progress σ :=
  match r with
  | .stop s => .stop s
  | .more s => k s

/-- Changes the state. -/
@[inline] def map {σ τ : Type} (g : σ → τ) : Progress σ → Progress τ
  | .stop s => .stop (g s)
  | .more s => .more (g s)

/-- The state, whether the visit is over or not. -/
@[inline] def state {σ : Type} : Progress σ → σ
  | .stop s => s
  | .more s => s

end Progress

namespace Scene

/-- Whether a word character stands at a position. -/
def wordAt (scene : Scene) (ascii : Bool) (i : Nat) : Bool :=
  match scene.text[i]? with
  | some c => (if ascii then CharClass.asciiWord else CharClass.word).holds c
  | none => false

/-- Whether a word character stands before a position. -/
def wordBefore (scene : Scene) (ascii : Bool) (i : Nat) : Bool :=
  0 < i && scene.wordAt ascii (i - 1)

/-- Whether an anchor holds at a position. -/
def holdsAt (scene : Scene) (a : Anchor) (i : Nat) : Bool :=
  match a with
  | .textStart => i == 0
  | .textEnd => i == scene.text.size
  | .lastLineEnd =>
    i == scene.text.size || (i + 1 == scene.text.size && scene.text[i]? == some '\n')
  | .lineStart => i == 0 || scene.text[i - 1]? == some '\n'
  | .lineEnd => i == scene.text.size || scene.text[i]? == some '\n'
  | .wordEdge ascii positive =>
    (scene.wordBefore ascii i != scene.wordAt ascii i) == positive
  | .wordBound ascii opening =>
    scene.wordBefore ascii i != scene.wordAt ascii i && scene.wordAt ascii i == opening
  | .searchStart => i == scene.origin

/-- Steps over one character of a set, backwards if `back`. -/
def stepOver (scene : Scene) (back : Bool) (s : CharSet) (p : Point) : Option Point :=
  if back then
    if p.pos = 0 then none
    else match scene.text[p.pos - 1]? with
      | some c => if s.holds c then some { p with pos := p.pos - 1 } else none
      | none => none
  else match scene.text[p.pos]? with
    | some c => if s.holds c then some { p with pos := p.pos + 1 } else none
    | none => none

/-- Whether `n` characters from `i` on equal those from `j` on. -/
def agree (scene : Scene) (folding : Folding) (i j : Nat) : Nat → Bool
  | 0 => true
  | n + 1 =>
    match scene.text[i]?, scene.text[j]? with
    | some a, some b => folding.same a b && scene.agree folding (i + 1) (j + 1) n
    | _, _ => false

def stepOverSpan (scene : Scene) (back : Bool) (folding : Folding) (held : Span) (p : Point) :
    Option Point :=
  let n := held.stop - held.start
  if back then
    if n ≤ p.pos && scene.agree folding held.start (p.pos - n) n then
      some { p with pos := p.pos - n }
    else none
  else if scene.agree folding held.start p.pos n then some { p with pos := p.pos + n }
  else none

end Scene

/-- A place of a repetition: a position, the rounds done so far where they matter, and what the
groups that the pattern reads remember. -/
structure Place where
  pos : Nat
  rounds : Nat
  held : List (Option Span)
deriving DecidableEq, Hashable

/-- The places where a repetition has been. -/
abbrev Seen := Std.HashSet Place

/-- Visits the points of a list in order. -/
def visitAll {σ : Type} : List Point → Visit σ
  | [], _, s => .more s
  | p :: rest, f, s => (f p s).andThen fun s => visitAll rest f s

/-- The points that `step` reaches from `p` in at most `fuel` rounds, the farthest first. -/
def chain (step : Point → Option Point) : (fuel : Nat) → Point → List Point → List Point
  | 0, p, acc => p :: acc
  | fuel + 1, p, acc =>
    match step p with
    | some q => chain step fuel q (p :: acc)
    | none => p :: acc

/-- Visits the points of a run of steps from the nearest on; `due` more steps come first. -/
def visitNearest {σ : Type} (step : Point → Option Point) : (fuel due : Nat) → Point → Visit σ
  | 0, due, p, f, s => if due = 0 then f p s else .more s
  | fuel + 1, due, p, f, s =>
    (if due = 0 then f p s else .more s).andThen fun s =>
      match step p with
      | some q => visitNearest step fuel (due - 1) q f s
      | none => .more s

def visitRun {σ : Type} (scene : Scene) (step : Point → Option Point) (least : Nat)
    (most : Option Nat) (reluctant : Bool) (p : Point) : Visit σ := fun f s =>
  let fuel := (most.getD scene.text.size).min scene.text.size
  if reluctant then visitNearest step fuel least p f s
  else
    let points := chain step fuel p []
    visitAll (points.take (points.length - least)) f s

/-- Rounds of a repetition.  After a round that consumed nothing the repetition ends. -/
def visitRounds {σ : Type} (scene : Scene) (body : Point → Visit (Seen × σ)) (least : Nat)
    (most : Option Nat) (reluctant : Bool) (f : Point → σ → Progress σ) :
    (fuel count : Nat) → Point → Seen × σ → Progress (Seen × σ)
  | 0, _, _, s => .more s
  | fuel + 1, count, p, (seen, s) =>
    let place : Place :=
      { pos := p.pos, rounds := if most.isSome then count else count.min least,
        held := scene.recalled.map p.group? }
    if seen.contains place then .more (seen, s)
    else
      let leave := fun (st : Seen × σ) =>
        if least ≤ count then (f p st.2).map (st.1, ·) else .more st
      let again := fun (st : Seen × σ) =>
        if most.all (count < ·) then
          body p (fun q st =>
            if q.pos = p.pos then (f q st.2).map (st.1, ·)
            else visitRounds scene body least most reluctant f fuel (count + 1) q st) st
        else .more st
      let st := (seen.insert place, s)
      if reluctant then (leave st).andThen again else (again st).andThen leave

namespace Node

/-- Visits the points where a match of the pattern from `p` ends, the preferred ones first; the
pattern is read backwards if `back`. -/
def ends (scene : Scene) : Node → (back : Bool) → Point → (σ : Type) → Visit σ
  | .empty, _, p, _, f, s => f p s
  | .fail, _, _, _, _, s => .more s
  | .one cs, back, p, _, f, s =>
    match scene.stepOver back cs p with
    | some q => f q s
    | none => .more s
  | .anchor a, _, p, _, f, s => if scene.holdsAt a p.pos then f p s else .more s
  | .seq a b, back, p, σ, f, s =>
    if back then b.ends scene back p σ (fun q s => a.ends scene back q σ f s) s
    else a.ends scene back p σ (fun q s => b.ends scene back q σ f s) s
  | .alt a b, back, p, σ, f, s =>
    (a.ends scene back p σ f s).andThen fun s => b.ends scene back p σ f s
  | .group i a, back, p, σ, f, s =>
    a.ends scene back p σ (fun q s =>
      let span := if back then ⟨q.pos, p.pos⟩ else ⟨p.pos, q.pos⟩
      f { q with groups := (i, span) :: q.groups } s) s
  | .recall i folding, back, p, _, f, s =>
    match p.group? i with
    | some held =>
      match scene.stepOverSpan back folding held p with
      | some q => f q s
      | none => .more s
    | none => .more s
  | .rep a least most reluctant, back, p, σ, f, s =>
    match a with
    | .one cs => visitRun scene (scene.stepOver back cs) least most reluctant p f s
    | _ =>
      if a.isStep then
        let step := fun p => (a.ends scene back p (Option Point) (fun q _ => .stop (some q)) none).state
        visitRun scene step least most reluctant p f s
      else
        (visitRounds scene (fun p => a.ends scene back p (Seen × σ)) least most reluctant f
          (scene.text.size + 1) 0 p (∅, s)).map Prod.snd
  | .look behind positive a, _, p, _, f, s =>
    match (a.ends scene behind p (Option Point) (fun q _ => .stop (some q)) none).state with
    | some q => if positive then f { p with groups := q.groups } s else .more s
    | none => if positive then .more s else f p s
  | .atomic a, back, p, _, f, s =>
    match (a.ends scene back p (Option Point) (fun q _ => .stop (some q)) none).state with
    | some q => f q s
    | none => .more s
  | .keep, _, p, _, f, s => f { p with start := p.pos } s
  | .ifGroup i yes no, back, p, σ, f, s =>
    if (p.group? i).isSome then yes.ends scene back p σ f s else no.ends scene back p σ f s

end Node

end TemplateTidy
