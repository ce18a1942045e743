import TemplateTidy.Lint.Rule
import TemplateTidy.Markup

/-! # Orphan tags

Opening and closing tags are paired from left to right: a closing tag takes away the latest open tag
of its name.  What is left has no partner. -/

namespace TemplateTidy.Lint

structure TagMark where
  name : List Char
  closing : Bool
  span : Span
deriving DecidableEq, Repr

/-- Takes away the first tag of a name, if there is one. -/
def takeNamed (name : List Char) : List TagMark → Option (List TagMark)
  | [] => none
  | t :: rest => if t.name = name then some rest else (takeNamed name rest).map (t :: ·)

/-- Adds a tag to those that wait for a partner, the latest first.  A closing tag without a partner
waits too. -/
def pairTag (waiting : List TagMark) (t : TagMark) : List TagMark :=
  if t.closing then (takeNamed t.name waiting).getD (t :: waiting) else t :: waiting

/-- The tags without a partner, the latest first. -/
def unpaired (tags : List TagMark) : List TagMark :=
  tags.foldl pairTag []

/-- A tag with its attributes; group 1 is the name with its slash and group 2 the name. -/
def tagPattern : Pattern :=
  .ofSource { verbose := true } (r"<(/?(\w+))\s*(" ++ Markup.attributeSource ++ r"|\s*)*\s*?>")

/-- The names that need no partner. -/
def voidPattern : Pattern :=
  .ofSource { verbose := true, ignoreCase := true } ("^/?" ++ Markup.voidSource ++ r"\b")

/-- The tags of a document that need a partner. -/
def pairedTags (text : Array Char) : List TagMark :=
  (tagPattern.findAll text).filterMap fun m =>
    let full := m.capture text 1
    if voidPattern.occurs full.toArray then none
    else
      some { name := m.capture text 2, closing := full.head? == some '/', span := m.span }

/-- The spans of the tags without a partner, the latest first. -/
def orphanSpans (text : Array Char) : List Span :=
  (unpaired (pairedTags text)).map (·.span)

end TemplateTidy.Lint
