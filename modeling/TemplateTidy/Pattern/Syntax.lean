import TemplateTidy.Text.Blank
import TemplateTidy.Text.Case
import TemplateTidy.Text.Word

/-! # Syntax of patterns

The tree of a pattern.  A character set is tested on one character; everything else is built from
sets, anchors, groups, choices and repetitions.  Choices and repetitions are ordered: the matcher
tries what stands first before what stands later. -/

namespace TemplateTidy

open Text

/-- How letter case counts when characters are compared. -/
inductive Folding where
  /-- Case counts. -/
  | exact
  /-- Case variants of every script are equal. -/
  | simple
  /-- Case variants of the letters A to Z are equal. -/
  | ascii
deriving DecidableEq, Repr

/-- The characters that are compared in place of `c`. -/
def Folding.images (f : Folding) (c : Char) : List Char :=
  match f with
  | .exact => [c]
  | .simple => variants c
  | .ascii => if c.isLower then [c, c.toUpper] else if c.isUpper then [c, c.toLower] else [c]

/-- Whether two characters are equal under a folding. -/
def Folding.same (f : Folding) (a b : Char) : Bool :=
  (f.images a).contains b

inductive CharClass where
  | word
  | digit
  | space
  /-- White space with the information separators. -/
  | wideSpace
  /-- Letters and digits and the underscore, but no marks. -/
  | wordStrict
  | asciiWord
  | asciiDigit
  | asciiSpace
  | lowerLetter
  | upperLetter
  | letter
  | hexDigit
  | punctuation
  /-- A space or a tab. -/
  | horizontal
deriving DecidableEq, Repr

def CharClass.holds : CharClass → Char → Bool
  | .word, c => isWord c
  | .digit, c => isDigit c
  | .space, c => isSpace c
  | .wideSpace, c => isBlank c
  | .wordStrict, c => isWord c
  | .asciiWord, c => c.isAlphanum || c == '_'
  | .asciiDigit, c => c.isDigit
  | .asciiSpace, c => c.toNat < 128 && isSpace c
  | .lowerLetter, c => lowerChar c == c && isCased c
  | .upperLetter, c => lowerChar c != c
  | .letter, c => isWord c && !isDigit c && c != '_'
  | .hexDigit, c => c.isDigit || ('a' ≤ c && c ≤ 'f') || ('A' ≤ c && c ≤ 'F')
  | .punctuation, c => c.toNat < 128 && 32 < c.toNat && c.toNat < 127 && !c.isAlphanum
  | .horizontal, c => c == ' ' || c == '\t'

inductive CharItem where
  | range (first last : Char)
  | named (k : CharClass) (positive : Bool)
deriving DecidableEq, Repr

def CharItem.holds : CharItem → Char → Bool
  | .range a b, c => a ≤ c && c ≤ b
  | .named k positive, c => k.holds c == positive

/-- A set of characters: the union of its items, or the complement of that union. -/
structure CharSet where
  items : List CharItem
  negated : Bool := false
  folding : Folding := .exact
deriving DecidableEq, Repr

/-- Membership in a set: some case variant lies in an item, unless the set is negated. -/
def CharSet.holds (s : CharSet) (c : Char) : Bool :=
  let hit :=
    if s.folding = .exact then s.items.any (·.holds c)
    else (s.folding.images c).any fun d => s.items.any (·.holds d)
  hit != s.negated

def CharSet.single (c : Char) (folding : Folding) : CharSet :=
  { items := [.range c c], folding }

/-- Conditions on a position that consume nothing. -/
inductive Anchor where
  | textStart
  | textEnd
  /-- The end of the text, or before a line feed that ends it. -/
  | lastLineEnd
  | lineStart
  | lineEnd
  /-- A position between a word character and another one, or the opposite. -/
  | wordEdge (ascii positive : Bool)
  /-- A word edge with a word character after it, or before it. -/
  | wordBound (ascii opening : Bool)
  /-- The position where the search began. -/
  | searchStart
deriving DecidableEq, Repr

/-- A pattern. -/
inductive Node where
  | empty
  | fail
  | one (s : CharSet)
  | anchor (a : Anchor)
  | seq (a b : Node)
  | alt (a b : Node)
  /-- Remembers the span that `a` matched. -/
  | group (index : Nat) (a : Node)
  /-- The text that a group remembers. -/
  | recall (index : Nat) (folding : Folding)
  /-- Between `least` and `most` matches of `a`; as few as possible if `reluctant`. -/
  | rep (a : Node) (least : Nat) (most : Option Nat) (reluctant : Bool)
  /-- Whether `a` matches from here, or up to here if `behind`; consumes nothing. -/
  | look (behind positive : Bool) (a : Node)
  /-- The first match of `a` only. -/
  | atomic (a : Node)
  /-- Makes the reported match begin here. -/
  | keep
  /-- Depends on whether a group remembers a span. -/
  | ifGroup (index : Nat) (yes no : Node)
deriving DecidableEq, Repr

namespace Node

/-- Consumes nothing and matches in at most one way. -/
def isCondition : Node → Bool
  | .empty | .fail | .anchor _ | .look .. | .keep => true
  | .seq a b => a.isCondition && b.isCondition
  | .group _ a | .atomic a => a.isCondition
  | _ => false

/-- Consumes exactly one character and matches in at most one way. -/
def isStep : Node → Bool
  | .one _ => true
  | .seq a b => (a.isCondition && b.isStep) || (a.isStep && b.isCondition)
  | .group _ a | .atomic a => a.isStep
  | _ => false

def isAnchor : Node → Bool
  | .anchor _ => true
  | _ => false

/-- Matches the empty text whatever stands around it. -/
def isEmpty : Node → Bool
  | .empty => true
  | .seq a b | .alt a b => a.isEmpty && b.isEmpty
  | .atomic a => a.isEmpty
  | .rep a .. => a.isEmpty
  | .look _ positive a => positive && a.isEmpty
  | .ifGroup _ a b => a.isEmpty && b.isEmpty
  | _ => false

/-- The number of characters that every match has, if there is one.  Remembered text does not
count. -/
def width? : Node → Option Nat
  | .one _ => some 1
  | .seq a b => do return (← a.width?) + (← b.width?)
  | .alt a b | .ifGroup _ a b => do
    let n ← a.width?
    if n = (← b.width?) then some n else none
  | .group _ a | .atomic a => a.width?
  | .rep a least most _ => do
    let n ← a.width?
    if n = 0 || most = some least then some (n * least) else none
  | _ => some 0

/-- The groups whose remembered text the pattern reads. -/
def recalled : Node → List Nat
  | .recall i _ => [i]
  | .seq a b | .alt a b => a.recalled ++ b.recalled
  | .group _ a | .rep a .. | .look _ _ a | .atomic a => a.recalled
  | .ifGroup i a b => i :: (a.recalled ++ b.recalled)
  | _ => []

/-- A sequence of patterns. -/
def ofList : List Node → Node
  | [] => .empty
  | [a] => a
  | a :: b :: rest => .seq a (ofList (b :: rest))

/-- A choice between patterns, the first one first. -/
def choice : List Node → Node
  | [] => .fail
  | [a] => a
  | a :: b :: rest => .alt a (choice (b :: rest))

end Node

/-- A pattern that is ready for matching. -/
structure Pattern where
  node : Node
  /-- How many groups the pattern has. -/
  groups : Nat
deriving DecidableEq, Repr

end TemplateTidy
