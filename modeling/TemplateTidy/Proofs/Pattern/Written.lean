import TemplateTidy.Proofs.Pattern.Points

/-! # Written patterns

The syntax of the patterns that the library writes: choices of sequences of atoms, with repetition
marks and parentheses.  `print` writes such a tree out and `node` is the pattern that it stands for.
A tree that passes the check `ok` is read as its pattern; the check is computed, and for the names
in a tree it only asks that they hold no character with a meaning of its own. -/

namespace TemplateTidy.Pattern

open Text

/-! ### Trees -/

/-- What an opening parenthesis begins. -/
inductive Paren where
  | capture
  | plain
  | look (behind positive : Bool)
deriving DecidableEq, Repr

/-- A repetition mark. -/
inductive Mark where
  | optional
  | any
  | some
deriving DecidableEq, Repr

/-- What stands for one character, inside a set or outside. -/
inductive Sign where
  | lit (c : Char)
  /-- A character after a backslash. -/
  | escaped (c : Char)
  /-- A brace by its number. -/
  | brace (closing : Bool)
  /-- A line feed or a tab by its letter. -/
  | control (tab : Bool)
  /-- The character zero by its number. -/
  | zero
  | word (positive : Bool)
  | digit (positive : Bool)
  | space (positive : Bool)
deriving DecidableEq, Repr

mutual

/-- A choice. -/
inductive Choice where
  | last (e : Items)
  | more (e : Items) (rest : Choice)

/-- A sequence. -/
inductive Items where
  /-- The end, after a line feed if `blank`. -/
  | done (blank : Bool)
  | atom (a : Atom) (rest : Items)
  | rep (a : Atom) (m : Mark) (reluctant : Bool) (rest : Items)
  /-- A reference to a group, which ends the sequence. -/
  | back (i : Nat)

/-- What a repetition mark applies to. -/
inductive Atom where
  | sign (s : Sign)
  /-- A set with at least one member, or all but these. -/
  | set (negated : Bool) (first : Sign) (more : List Sign)
  | dot
  /-- The beginning of a line or of the text. -/
  | head
  /-- The end of a line or of the text. -/
  | tail
  /-- A word edge. -/
  | edge
  | keep
  | paren (k : Paren) (c : Choice)

end

/-! ### Printing -/

namespace Paren

/-- The characters after the parenthesis. -/
def text : Paren → List Char
  | .capture => []
  | .plain => ['?', ':']
  | .look false true => ['?', '=']
  | .look false false => ['?', '!']
  | .look true true => ['?', '<', '=']
  | .look true false => ['?', '<', '!']

/-- How many groups the parenthesis opens. -/
def groups : Paren → Nat
  | .capture => 1
  | _ => 0

/-- The pattern of a parenthesis after `k` groups. -/
def wrap (k : Nat) (n : Node) : Paren → Node
  | .capture => .group (k + 1) n
  | .plain => n
  | .look behind positive => .look behind positive n

/-- The groups that are open inside. -/
def opened (k : Nat) (outer : List Nat) : Paren → List Nat
  | .capture => (k + 1) :: outer
  | _ => outer

end Paren

namespace Mark

def char : Mark → Char
  | .optional => '?'
  | .any => '*'
  | .some => '+'

def least : Mark → Nat
  | .some => 1
  | _ => 0

def most : Mark → Option Nat
  | .optional => Option.some 1
  | _ => none

end Mark

/-- The written form of a sign. -/
def Sign.print : Sign → List Char
  | .lit c => [c]
  | .escaped c => ['\\', c]
  | .brace closing => ['\\', 'x', '7', if closing then 'd' else 'b']
  | .control tab => ['\\', if tab then 't' else 'n']
  | .zero => ['\\', '0', '0', '0']
  | .word positive => ['\\', if positive then 'w' else 'W']
  | .digit positive => ['\\', if positive then 'd' else 'D']
  | .space positive => ['\\', if positive then 's' else 'S']

mutual

/-- The written form of a choice. -/
def Choice.print : Choice → List Char
  | .last e => e.print
  | .more e rest => e.print ++ '|' :: rest.print

/-- The written form of a sequence. -/
def Items.print : Items → List Char
  | .done blank => if blank then ['\n'] else []
  | .atom a rest => a.print ++ rest.print
  | .rep a m reluctant rest =>
    a.print ++ m.char :: ((if reluctant then ['?'] else []) ++ rest.print)
  | .back i => ['\\', Nat.digitChar i]

/-- The written form of an atom. -/
def Atom.print : Atom → List Char
  | .sign s => s.print
  | .set negated first more =>
    '[' :: ((if negated then ['^'] else []) ++ ((first :: more).flatMap Sign.print ++ [']']))
  | .dot => ['.']
  | .head => ['^']
  | .tail => ['$']
  | .edge => ['\\', 'b']
  | .keep => ['\\', 'K']
  | .paren k c => '(' :: (k.text ++ (c.print ++ [')']))

end

/-! ### The pattern of a tree -/

/-- What a sign adds to a set. -/
def Sign.item : Sign → CharItem
  | .lit c | .escaped c => .range c c
  | .brace closing => let c := if closing then '}' else '{'; .range c c
  | .control tab => let c := if tab then '\t' else '\n'; .range c c
  | .zero => .range '\x00' '\x00'
  | .word positive => .named .word positive
  | .digit positive => .named .digit positive
  | .space positive => .named .space positive

/-- The set of a sign outside of sets: case counts for classes and control characters. -/
def Sign.set (folding : Folding) (s : Sign) : CharSet :=
  match s with
  | .lit _ | .escaped _ | .brace _ | .zero => { items := [s.item], folding }
  | _ => { items := [s.item] }

mutual

/-- How many groups a tree opens. -/
def Choice.groups : Choice → Nat
  | .last e => e.groups
  | .more e rest => e.groups + rest.groups

def Items.groups : Items → Nat
  | .done _ | .back _ => 0
  | .atom a rest => a.groups + rest.groups
  | .rep a _ _ rest => a.groups + rest.groups

def Atom.groups : Atom → Nat
  | .paren k c => k.groups + c.groups
  | _ => 0

end

mutual

/-- The patterns of a choice, where `k` groups come before it. -/
def Choice.nodes (flags : Flags) : Choice → Nat → List Node
  | .last e, k => [.ofList (e.nodes flags k)]
  | .more e rest, k => .ofList (e.nodes flags k) :: rest.nodes flags (k + e.groups)

/-- The patterns of a sequence. -/
def Items.nodes (flags : Flags) : Items → Nat → List Node
  | .done _, _ => []
  | .atom a rest, k => a.node flags k :: rest.nodes flags (k + a.groups)
  | .rep a m reluctant rest, k =>
    .rep (a.node flags k) m.least m.most reluctant :: rest.nodes flags (k + a.groups)
  | .back i, _ => [.recall i flags.folding]

/-- The pattern of an atom. -/
def Atom.node (flags : Flags) : Atom → Nat → Node
  | .sign s, _ => .one (s.set flags.folding)
  | .set negated first more, _ =>
    .one { items := (first :: more).map Sign.item, negated, folding := flags.folding }
  | .dot, _ => .one { items := if flags.dotAll then [] else [.range '\n' '\n'], negated := true }
  | .head, _ => .anchor (if flags.multiline then .lineStart else .textStart)
  | .tail, _ => .anchor (if flags.multiline then .lineEnd else .lastLineEnd)
  | .edge, _ => .anchor (.wordEdge false true)
  | .keep, _ => .keep
  | .paren p c, k => p.wrap k (.choice (c.nodes flags (k + p.groups)))

end

/-- The pattern of a choice. -/
def Choice.node (flags : Flags) (e : Choice) : Node :=
  .choice (e.nodes flags 0)

/-- The pattern of a choice with its groups counted. -/
def Choice.pattern (flags : Flags) (e : Choice) : Pattern :=
  { node := e.node flags, groups := e.groups }

/-! ### The check -/

/-- Characters with a meaning of their own in a pattern. -/
def isSpecial (c : Char) : Bool :=
  ['\\', '(', ')', '|', '.', '[', '^', '$', '?', '*', '+', '{'].contains c

/-- Whether a sign is read as itself outside of sets. -/
def Sign.ok (flags : Flags) : Sign → Bool
  | .lit c => !isSpecial c && (!flags.verbose || (!isBlank c && c != '#'))
  | .escaped c => !c.isAlpha && !c.isDigit
  | _ => true

/-- Whether a sign is read as itself in a set. -/
def Sign.okInSet : Sign → Bool
  | .lit c => c != '\\' && c != '[' && c != ']' && c != '-' && c != '^'
  | .escaped c => !c.isAlpha && !c.isDigit
  | _ => true

/-- Whether a repetition mark before the atom is read as greedy. -/
def Atom.clear : Atom → Bool
  | .sign s => s.print.head?.all fun c => c != '?' && c != '+' && c != '#' && !isBlank c
  | _ => true

def Items.clear : Items → Bool
  | .done _ | .back _ => true
  | .atom a _ | .rep a .. => a.clear

mutual

/-- Whether the reader reads a tree as its pattern; `k` groups come before it, and those of `opened`
are open around it. -/
def Choice.okIn (flags : Flags) (opened : List Nat) : Choice → Nat → Bool
  | .last e, k => e.okIn flags opened k
  | .more e rest, k => e.okIn flags opened k && rest.okIn flags opened (k + e.groups)

def Items.okIn (flags : Flags) (opened : List Nat) : Items → Nat → Bool
  | .done blank, _ => !blank || flags.verbose
  | .atom a rest, k => a.okIn flags opened k && rest.okIn flags opened (k + a.groups)
  | .rep a _ reluctant rest, k =>
    a.okIn flags opened k && !(a.node flags k).isEmpty && (reluctant || rest.clear) &&
      rest.okIn flags opened (k + a.groups)
  | .back i, _ => 1 ≤ i && i ≤ 9 && !opened.contains i

def Atom.okIn (flags : Flags) (opened : List Nat) : Atom → Nat → Bool
  | .sign s, _ => s.ok flags
  | .set _ first more, _ => (first :: more).all Sign.okInSet
  | .paren p c, k =>
    c.print.head?.any (· != '?') && c.okIn flags (p.opened k opened) (k + p.groups)
  | _, _ => true

end

mutual

/-- The groups that a tree refers to. -/
def Choice.backs : Choice → List Nat
  | .last e => e.backs
  | .more e rest => e.backs ++ rest.backs

def Items.backs : Items → List Nat
  | .done _ => []
  | .atom a rest | .rep a _ _ rest => a.backs ++ rest.backs
  | .back i => [i]

def Atom.backs : Atom → List Nat
  | .paren _ c => c.backs
  | _ => []

end

mutual

/-- Whether a tree leaves the beginning of the reported match alone. -/
def Choice.keepless : Choice → Bool
  | .last e => e.keepless
  | .more e rest => e.keepless && rest.keepless

def Items.keepless : Items → Bool
  | .done _ | .back _ => true
  | .atom a rest | .rep a _ _ rest => a.keepless && rest.keepless

def Atom.keepless : Atom → Bool
  | .keep => false
  | .paren _ c => c.keepless
  | _ => true

end

/-- Whether a tree is read as its pattern. -/
def Choice.ok (flags : Flags) (e : Choice) : Bool :=
  !flags.ascii && !flags.strict && e.okIn flags [] 0 && e.backs.all fun i => 1 ≤ i && i ≤ e.groups

end TemplateTidy.Pattern
