import TemplateTidy.Layout.Document
import TemplateTidy.Proofs.Layout.Sources
import TemplateTidy.Proofs.Pattern.Beginnings

/-! # The fixed patterns of the formatter as trees

The patterns that hold no names from the settings, one tree for each.  The patterns that tell lines
apart are in the order in which a line is asked for them. -/

namespace TemplateTidy.Layout

open Text Pattern

/-! ### Tags -/

/-- A piece of the attributes of a tag on any number of lines. -/
def flatPieces : Choice :=
  .any
    [.atom (.escaped '"') <| .many (.set true (.escaped '"') []) <| .atom (.escaped '"') .fin,
      .text "'" <| .many (.set true (.lit '\'') []) <| .text "'" .fin,
      .text "\x7b\x7b" <| .many (.without <| .last <| .text "\x7d\x7d" .fin) <|
      .text "\x7d\x7d" .fin,
      .text "\x7b%" <| .many (.without <| .last <| .text "%\x7d" .fin) <| .text "%\x7d" .fin,
      .atom (.set true (.lit '\'') [.escaped '"', .lit '>', .brace false, .brace true, .lit '/',
        .space true]) .fin,
      .text "/" <| .atom (.notAhead <| .last <| .text ">" .fin) .fin]

def tagTree : Choice :=
  .last <| .atom (.capture <| .last <| .text "<" <| .maybe (.lit '/') <|
    .maybe (.plain <| .last <| .text "!" <| .atom (.notAhead <| .last <| .text "--" .fin) .fin)
      .fin) <|
  .atom (.capture <| .last <| .rep (.set true (.space true) [.lit '>', .lit '!', .escaped '['])
    .some false <| .atom .edge .fin) <|
  .maybe (.capture <| .last <|
    .rep (.plain <| .last <| .few .space <| .atom (.plain flatPieces) .fin) .some false .fin) <|
  .few .space <| .atom (.capture <| .last <| .maybe (.lit '/') <| .text ">" .fin) .fin

/-- The template tags that are spaced: an opening bracket, contents that begin with a word character
and hold no closing bracket, and the closing bracket. -/
def spacedTree (opening : Items) (closing : String) : Choice :=
  .last <| .atom (.capture <| .last opening) <| .few .blank <|
  .atom (.capture <| .last <| .atom (.sign (.word true)) <|
    .few (.without <| .last <| .text closing .fin) .fin) <|
  .few .blank <| .atom (.capture <| .last <| .maybe (.escaped '+') <| .maybe (.lit '-') <|
    .text closing .fin) .fin

def percentTree : Choice :=
  spacedTree (.text "\x7b%" <| .maybe (.lit '-') <| .maybe (.escaped '+') .fin) "%\x7d"

def braceTree : Choice :=
  spacedTree (.text "\x7b\x7b" .fin) "\x7d\x7d"

def hashTree : Choice :=
  .last <| .atom (.capture <| .last <| .atom (.sign (.brace false)) <|
    .atom (.sign (.brace false)) <|
    .atom (.lit '#') <| .atom (.plain <| .any [.text "each" .fin, .text "if" .fin]) <|
    .rep .dot .some true <| .atom (.set true (.lit ' ') []) .fin) <|
  .atom (.capture <| .last <| .text "\x7d\x7d" .fin) .fin

/-! ### Data -/

/-- The options of patterns over names that look at whole documents. -/
abbrev looseDocument : Flags := { looseLines with dotAll := true }

def assignmentTree : Choice :=
  .last <| .atom (.capture <| .last <| .many .blank .fin) <|
  .atom (.capture <| .last <| .text "\x7b%" <| .maybe (.lit '-') .fin) <| .many .blank <|
  .atom (.capture <| .last <| .text "set" .fin) <| .rep .blank .some true <|
  .atom (.capture <| .last <| .few (.without <| .last <| .text "%\x7d" .fin) .fin) <|
  .atom (.capture <| .last <| .maybe (.lit '-') <| .text "%\x7d" .fin) .fin

def callTree : Choice :=
  .last <| .atom (.capture <| .last <| .many .blank .fin) <|
  .atom (.capture <| .last <| .text "\x7b\x7b" .fin) <| .few .blank <|
  .atom (.capture <| .last <| .few (.without <| .last <| .text "\x7d\x7d" .fin) <|
    .atom (.sign (.word true)) .fin) <|
  .atom (.capture <| .last <| .text "(" <| .few (.set true (.escaped ')') []) <| .text ")" <|
    .many .blank .fin) <|
  .atom (.capture <| .last <| .few (.without <| .last <| .text "\x7d\x7d" .fin) <|
    .text "\x7d\x7d" .fin) .fin

/-! ### Lines to trim -/

abbrev tabOrSpace : Atom := .set false (.lit ' ') [.control true]

/-- A blank or a line feed. -/
abbrev anyBlank : Atom := .set false (.control false) [.lit ' ', .control true]

abbrev notLineFeed : Atom := .set true (.control false) []

def lineAndBlanksTree : Choice :=
  .last <| .atom .head <| .many tabOrSpace <| .atom (.capture <| .last <| .few .dot .fin) <|
  .many anyBlank <| .atom .tail .fin

def lineOnlyTree : Choice :=
  .last <| .atom .head <| .many tabOrSpace <|
  .atom (.capture <| .last <| .rep notLineFeed .some true .fin) <| .many tabOrSpace <|
    .atom .tail .fin

def tagLineTree (across : Bool) : Choice :=
  .last <| .atom .head <| .many tabOrSpace <|
  .atom (.capture <| .last <| .atom (.plain <| .any [.text "<" .fin, .text "\x7b%" .fin]) <|
    .few .dot .fin) <|
  .many (if across then anyBlank else tabOrSpace) <| .atom .tail .fin

def lineEndTree : Choice :=
  .last <| .atom .head <| .atom (.capture <| .last <| .few .dot .fin) <| .many anyBlank <|
    .atom .tail .fin

def lineEndOnlyTree : Choice :=
  .last <| .atom .head <| .atom (.capture <| .last <| .rep notLineFeed .some true .fin) <|
  .many tabOrSpace <| .atom .tail .fin

def frontMatterTree : Choice :=
  .last <| .atom (.capture <| .last <| .atom .head <| .text "---" <| .rep .dot .some true <|
    .text "---" .fin) <| .atom .tail .fin

/-! ### Lines to indent -/

def regionLineTree : Choice :=
  .last <| .atom .head <| .few .space <| .atom (.plain <| .any Region.inlineItems) .fin

def dividerTree : Choice :=
  .any
    [.atom .head <| .atom (.plain <| .last <| .text "\x7b%" <| .maybe (.lit '-') <| .few .blank <|
      .atom (.plain <| .any [.text "elif" .fin, .text "else" .fin, .text "empty" .fin,
        .text "plural" .fin]) .fin) .fin,
      .atom (.plain <| .last <| .text "\x7b\x7b" <| .few .blank <| .atom (.capture <| .last <|
        .atom (.plain <| .any [.text "else" .fin, .text "^" .fin]) <| .few .blank <|
        .text "\x7d\x7d" .fin) .fin) .fin]

def setStartTree : Choice :=
  .last <| .atom .head <| .atom (.capture <| .last <| .many .blank <| .text "\x7b%" <|
    .few .blank <| .text "set" .fin) <|
  .atom (.notAhead <| .last <| .many .dot <| .text "%\x7d" .fin) <| .many .dot <| .atom .tail .fin

/-! ### Elements to join and to fill -/

def shortElementTree : Choice :=
  .last <| .atom (.capture <| .last <| .text "<" <| .atom (.capture <| words false shortWords) <|
    .atom .edge <| .many (.plain pieces) <| .text ">" .fin) <|
  .many .space <| .atom (.capture <| .last <| .few (.set true (.lit '<') [.control false]) .fin) <|
  .few .space <| .atom (.capture <| .last <| .text "</" <| .atom (.capture <| .last <| .back 2) <|
    .text ">" .fin) .fin

def shortBlockTree : Choice :=
  .last <| .atom (.capture <| .last <|
    .atom (.plain <| .any [.atom .space .fin, .atom .head .fin]) <|
    .text "\x7b%" <| .maybe (.lit '-') <| .few .blank <|
    .atom (.capture <| .any [.text "if" .fin, .text "for" .fin, .text "block" .fin,
      .text "with" .fin]) <|
    .few (.without <| .any [.atom lineFeed .fin, .text "%\x7d" .fin]) <| .text "%\x7d" .fin) <|
  .many .space <| .atom (.capture <| .last <| .few (.set true (.lit '%') [.control false]) .fin) <|
  .few .space <| .atom (.capture <| .last <| .text "\x7b%" <| .maybe (.lit '-') <|
    .rep .blank .some true <| .text "end" <| .atom (.capture <| .last <| .back 2) <| .few .blank <|
    .text "%\x7d" .fin) .fin

/-- Elements of a name with their contents. -/
def embeddedTree (name : String) : Choice :=
  .last <| .atom (.capture <| .last <| .few .blank .fin) <|
  .atom (.capture <| .last <| .text "<" <| .atom (.plain <| .last <| .text name .fin) <|
    .atom .edge <| .many (.plain pieces) <| .text ">" .fin) <|
  .atom (.capture <| .last <| .few .dot .fin) <|
  .atom (.ahead <| .last <| .text "</" <| .text name <| .text ">" .fin) .fin

/-- The options of patterns over embedded code. -/
abbrev embeddedFlags : Flags := { ignoreCase := true, dotAll := true }

/-! ### The patterns -/

/-- Trees with the options that they are read with. -/
def fixedTrees : List (Flags × Choice) :=
  [({}, percentTree),
    ({}, braceTree),
    ({}, hashTree),
    (looseDocument, assignmentTree),
    (looseDocument, callTree),
    (lines, lineAndBlanksTree),
    (lines, lineOnlyTree),
    (lines, tagLineTree false),
    (lines, tagLineTree true),
    (lines, lineEndTree),
    (lines, lineEndOnlyTree),
    ({ multiline := true, dotAll := true }, frontMatterTree),
    (looseLines, regionLineTree),
    (looseLines, dividerTree),
    (looseLines, setStartTree),
    (looseDocument, shortElementTree),
    (looseLines, shortBlockTree)]

theorem fixedTrees_ok : (fixedTrees.all fun t => t.2.ok t.1) = true := by
  decide +kernel

theorem ok_of_mem {flags : Flags} {e : Choice} (h : (flags, e) ∈ fixedTrees) : e.ok flags = true :=
  List.all_eq_true.1 fixedTrees_ok (flags, e) h

theorem ofSource_eq {flags : Flags} {e : Choice} {source : List Char} (h : (flags, e) ∈ fixedTrees)
    (hsource : source = e.print) : Pattern.ofSource flags (.ofList source) = e.pattern flags :=
  ofSource_print (by rw [String.toList_ofList, hsource]) (ok_of_mem h)

-- For the three longest sources it is quicker to read the characters than to compare them with the
-- tree.
theorem longSources_eq :
    tagPattern = tagTree.pattern looseLines ∧
    styleElement = (embeddedTree "style").pattern embeddedFlags ∧
    scriptElement = (embeddedTree "script").pattern embeddedFlags := by
  unfold tagPattern styleElement scriptElement embeddedSource tagPiece
  simp only [ofSource_eq_ofChars, String.toList_append, -String.reduceAppend]
  repeat rw [String.toList_ofList]
  decide +kernel

theorem tagPattern_eq : tagPattern = tagTree.pattern looseLines :=
  longSources_eq.1

theorem percentTag_eq : percentTag = percentTree.pattern {} :=
  ofSource_eq (by simp [fixedTrees]) rfl

theorem braceTag_eq : braceTag = braceTree.pattern {} :=
  ofSource_eq (by simp [fixedTrees]) rfl

theorem hashTag_eq : hashTag = hashTree.pattern {} :=
  ofSource_eq (by simp [fixedTrees]) rfl

theorem assignment_eq : assignment = assignmentTree.pattern looseDocument :=
  ofSource_eq (by simp [fixedTrees]) rfl

theorem call_eq : call = callTree.pattern looseDocument :=
  ofSource_eq (by simp [fixedTrees]) rfl

theorem lineAndBlanks_eq : lineAndBlanks = lineAndBlanksTree.pattern lines :=
  ofSource_eq (by simp [fixedTrees]) rfl

theorem lineOnly_eq : lineOnly = lineOnlyTree.pattern lines :=
  ofSource_eq (by simp [fixedTrees]) rfl

theorem tagLine_eq (across : Bool) : tagLine across = (tagLineTree across).pattern lines := by
  cases across <;> exact ofSource_print (by simp [tagLineTree, Choice.any])
    (ok_of_mem (by simp [fixedTrees]))

theorem lineEnd_eq : lineEnd = lineEndTree.pattern lines :=
  ofSource_eq (by simp [fixedTrees]) rfl

theorem lineEndOnly_eq : lineEndOnly = lineEndOnlyTree.pattern lines :=
  ofSource_eq (by simp [fixedTrees]) rfl

theorem frontMatter_eq :
    frontMatter = frontMatterTree.pattern { multiline := true, dotAll := true } :=
  ofSource_eq (by simp [fixedTrees]) rfl

theorem regionLine_eq : regionLine = regionLineTree.pattern looseLines := by
  unfold regionLine
  refine ofSource_print ?_ (ok_of_mem (by simp [fixedTrees]))
  rw [String.toList_append, String.toList_append, Region.toList_inlineSource]
  unfold regionLineTree
  -- The items of the regions stay as they are on both sides.
  generalize Choice.any Region.inlineItems = e
  simp

theorem dividerLine_eq : dividerLine = dividerTree.pattern looseLines := by
  refine ofSource_print ?_ (ok_of_mem (by simp [fixedTrees]))
  rw [blockDivider, String.toList_append, String.toList_ofList, String.toList_ofList]
  decide +kernel

theorem setStart_eq : setStart = setStartTree.pattern looseLines :=
  ofSource_eq (by simp [fixedTrees]) rfl

theorem shortElement_eq : shortElement = shortElementTree.pattern looseDocument := by
  refine ofSource_print ?_ (ok_of_mem (by simp [fixedTrees]))
  simp [shortElementTree, toList_shortElements, print_pieces, Nat.digitChar]

theorem shortBlock_eq : shortBlock = shortBlockTree.pattern looseLines := by
  refine ofSource_print ?_ (ok_of_mem (by simp [fixedTrees]))
  simp [shortBlockTree, shortBlocks, anyOf, Choice.any, Nat.digitChar]

end TemplateTidy.Layout
