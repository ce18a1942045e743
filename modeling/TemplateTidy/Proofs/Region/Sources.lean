import TemplateTidy.Proofs.Pattern.Names
import TemplateTidy.Region

/-! # The patterns of regions as trees

The trees of the patterns of ignored regions.  Each list of sequences prints as the source that the
region is written with, so that the region's pattern is the pattern of the tree: `ignored_eq`,
`closed_eq`, `inline_eq`, `unformatted_eq`, `opening_eq`, `closing_eq`, `safeClosing_eq` and
`inlineOrIgnored_eq`. -/

namespace TemplateTidy.Region

open Text Pattern

/-! ### Marks -/

/-- The parts of a switch as items. -/
structure SwitchItems where
  head : Items → Items
  word : Items → Items
  tail : Items → Items

/-- The word of most switches. -/
def plainWord (rest : Items) : Items :=
  .text "djlint" <| .atom (.escaped ':') rest

def htmlItems : SwitchItems where
  head rest := .text "<!--" <| .many .space rest
  word := plainWord
  tail rest := .text "-->" rest

def commentItems : SwitchItems where
  head rest := .text "\x7b#" <| .many .space rest
  word rest := plainWord <| .many .space rest
  tail rest := .text "#\x7d" rest

def blockItems : SwitchItems where
  head rest := .text "\x7b%" <| .many .space <| .text "comment" <| .many .space <| .text "%\x7d" <|
    .many .space rest
  word := plainWord
  tail rest := .text "\x7b%" <| .many .space <| .text "endcomment" <| .many .space <|
    .text "%\x7d" rest

def dashItems : SwitchItems where
  head rest := .text "\x7b\x7b!--" <| .many .space rest
  word := plainWord
  tail rest := .text "--\x7d\x7d" rest

def starItems : SwitchItems where
  head rest := .text "\x7b\x7b" <| .maybe (.lit '-') <| .many .space <| .text "/*" <|
    .many .space rest
  word := plainWord
  tail rest := .text "*/" <| .many .space <| .maybe (.lit '-') <| .text "\x7d\x7d" rest

namespace SwitchItems

/-- A mark with its word. -/
def mark (t : SwitchItems) (word : String) (rest : Items) : Items :=
  t.head <| t.word <| .text word <| .many .space <| t.tail rest

/-- From an off mark to before the next on mark. -/
def betweenMarks (t : SwitchItems) : Items :=
  t.mark "off" <| .few .dot <| .atom (.ahead <| .last <| t.mark "on" .fin) .fin

/-- From an off mark to before the next on mark, or to the end. -/
def fromOff (t : SwitchItems) : Items :=
  t.mark "off" <| .many (.without <| .last <| t.mark "on" .fin) .fin

/-- The items print as a switch. -/
structure Prints (t : SwitchItems) (s : Switch) : Prop where
  head : ∀ rest, (t.head rest).print = s.head.toList ++ rest.print
  word : ∀ rest, (t.word rest).print = s.word.toList ++ rest.print
  tail : ∀ rest, (t.tail rest).print = s.tail.toList ++ rest.print

namespace Prints

variable {t : SwitchItems} {s : Switch} (h : t.Prints s)
include h

theorem off (rest : Items) : (t.mark "off" rest).print = s.off.toList ++ rest.print := by
  simp [mark, Switch.off, h.head, h.word, h.tail]

theorem on (rest : Items) : (t.mark "on" rest).print = s.on.toList ++ rest.print := by
  simp [mark, Switch.on, h.head, h.word, h.tail]

theorem betweenMarks : t.betweenMarks.print = s.betweenMarks.toList := by
  simp [SwitchItems.betweenMarks, Switch.betweenMarks, h.off, h.on]

theorem fromOff : t.fromOff.print = s.fromOff.toList := by
  simp [SwitchItems.fromOff, Switch.fromOff, h.off, h.on]

end Prints

end SwitchItems

theorem htmlItems_prints : htmlItems.Prints htmlSwitch := by
  constructor <;> simp [htmlItems, htmlSwitch, plainWord]

theorem commentItems_prints : commentItems.Prints commentSwitch := by
  constructor <;> simp [commentItems, commentSwitch, plainWord]

theorem blockItems_prints : blockItems.Prints blockSwitch := by
  constructor <;> simp [blockItems, blockSwitch, plainWord]

theorem dashItems_prints : dashItems.Prints dashSwitch := by
  constructor <;> simp [dashItems, dashSwitch, plainWord]

theorem starItems_prints : starItems.Prints starSwitch := by
  constructor <;> simp [starItems, starSwitch, plainWord]

/-! ### Blocks and comments -/

/-- The words of a mark. -/
def onOff : Atom :=
  .plain <| .any [.text "off" .fin, .text "on" .fin]

/-- A localized block that is not trimmed, by its name. -/
def transItems (name : Items → Items) : Items :=
  .text "\x7b%" <| .few .blank <| name <| .atom .edge <|
  .few (.without <| .any [.text "%\x7d" .fin, .atom .edge <| .text "trimmed" <|
      .atom .edge .fin]) <|
  .text "%\x7d" <| .few .dot <| .text "\x7b%" <| .few .blank <| .text "end" <| name <|
  .few .blank <| .text "%\x7d" .fin

/-- A comment block without its closing tag. -/
def commentBodyItems (rest : Items) : Items :=
  .text "\x7b%" <| .few .blank <| .text "comment" <| .atom .edge <|
  .few (.without <| .last <| .text "%\x7d" .fin) <| .text "%\x7d" <|
  .few (.without <| .last <| .text "djlint:" <| .atom onOff .fin) rest

/-- The closing tag of a comment block. -/
def commentEndItems : Items :=
  .text "\x7b%" <| .few .blank <| .text "endcomment" <| .few .blank <| .text "%\x7d" .fin

/-- A template comment that is no mark. -/
def templateCommentItems : Items :=
  .text "\x7b#" <| .atom (.notAhead <| .last <| .many .space <| plainWord <| .many .space <|
    .atom onOff .fin) <| .few .dot <| .text "#\x7d" .fin

/-- Front matter between lines of dashes. -/
def frontMatterItems : Items :=
  .atom .head <| .text "---" <| .rep (.set false (.space true) [.space false]) .some true <|
  .text "---" .fin

/-- Code between its marks. -/
def codeItems : Items :=
  .text "<?php" <| .few .dot <| .text "?>" .fin

theorem print_transItems {name : Items → Items} {source : String}
    (h : ∀ rest, (name rest).print = source.toList ++ rest.print) :
    (transItems name).print = (transBlock source).toList := by
  simp [transItems, transBlock, h, Choice.any]

theorem print_commentBodyItems (rest : Items) :
    (commentBodyItems rest).print = commentBody.toList ++ rest.print := by
  simp [commentBodyItems, commentBody, onOff, Choice.any]

theorem print_commentEndItems : commentEndItems.print = commentEnd.toList := by
  simp [commentEndItems, commentEnd]

theorem print_templateCommentItems : templateCommentItems.print = templateComment.toList := by
  simp [templateCommentItems, templateComment, plainWord, onOff, Choice.any]

theorem print_frontMatterItems : frontMatterItems.print = frontMatter.toList := by
  simp [frontMatterItems, frontMatter]

/-! ### Regions -/

/-- Elements whose contents are kept. -/
def keptElementItems : List Items :=
  [.text "<" <| .atom (.capture <| .any [.text "pre" .fin, .text "textarea" .fin]) <| .few .dot <|
      .text "</" <| .atom (.capture <| .last <| .back 1) <| .text ">" .fin,
    .text "<" <| .atom (.capture <| .any [.text "script" .fin, .text "style" .fin]) <| .few .dot <|
      .atom (.ahead <| .last <| .atom (.capture <| .last <| .atom (.escaped '<') <| .text "/" <|
        .atom (.plain <| .last <| .back 3) <| .text ">" .fin) .fin) .fin]

/-- Comments and blocks that are kept. -/
def keptBlockItems : List Items :=
  [.text "<!--" <| .few .dot <| .text "-->" .fin, codeItems, transItems (.text "blocktranslate"),
    transItems (.text "blocktrans"),
    commentBodyItems <| .atom (.ahead <| .last commentEndItems) .fin, frontMatterItems]

def ignoredItems : List Items :=
  keptElementItems ++
    [htmlItems.betweenMarks, commentItems.fromOff, blockItems.fromOff, templateCommentItems,
      dashItems.fromOff, starItems.fromOff] ++ keptBlockItems

def closedItems : List Items :=
  keptElementItems ++
    [htmlItems.betweenMarks, commentItems.betweenMarks, blockItems.betweenMarks,
      templateCommentItems, dashItems.betweenMarks, starItems.betweenMarks] ++ keptBlockItems

def inlineItems : List Items :=
  [.text "<!--" <| .few .dot <| .text "-->" .fin,
    .text "<script" <| .few .dot <| .atom (.escaped '<') <| .text "/script>" .fin,
    .text "<style" <| .few .dot <| .atom (.escaped '<') <| .text "/style>" .fin,
    .text "\x7b*" <| .few .dot <| .text "*\x7d" .fin,
    .text "\x7b#" <| .atom (.notAhead <| .last <| .many .dot <| .text "djlint:" <| .few .blank <|
      .atom onOff <| .atom .edge .fin) <| .many .dot <| .text "#\x7d" .fin,
    codeItems, commentBodyItems commentEndItems,
    transItems fun rest => .text "blocktrans" <| .maybe (.plain <| .last <| .text "late" .fin) rest]

def unformattedItems : List Items :=
  [.fin, htmlItems.betweenMarks, commentItems.betweenMarks, blockItems.betweenMarks,
    templateCommentItems, dashItems.betweenMarks, starItems.betweenMarks, frontMatterItems]

theorem toList_anyOf {sources : List String} {es : List Items}
    (h : sources.map String.toList = es.map Items.print) :
    (anyOf sources).toList = (Choice.any es).print := by
  rw [anyOf, String.toList_intercalate, h, print_any]
  rfl

theorem print_keptElementItems :
    keptElements.map String.toList = keptElementItems.map Items.print := by
  simp [keptElements, keptElementItems, Choice.any]

theorem print_keptBlockItems : keptBlocks.map String.toList = keptBlockItems.map Items.print := by
  have hshort : (transItems (.text "blocktrans")).print = (transBlock "blocktrans").toList :=
    print_transItems fun rest => by simp
  have hlong : (transItems (.text "blocktranslate")).print = (transBlock "blocktranslate").toList :=
    print_transItems fun rest => by simp
  simp [keptBlocks, keptBlockItems, codeItems, hshort, hlong, print_commentBodyItems,
    print_commentEndItems, print_frontMatterItems]

theorem toList_ignoredSource : ignoredSource.toList = (Choice.any ignoredItems).print := by
  refine toList_anyOf ?_
  simp only [ignoredItems, List.map_append, print_keptElementItems, print_keptBlockItems]
  simp [htmlItems_prints.betweenMarks, commentItems_prints.fromOff, blockItems_prints.fromOff,
    dashItems_prints.fromOff, starItems_prints.fromOff, print_templateCommentItems]

theorem toList_closedSource : closedSource.toList = (Choice.any closedItems).print := by
  refine toList_anyOf ?_
  simp only [closedItems, List.map_append, print_keptElementItems, print_keptBlockItems]
  simp [htmlItems_prints.betweenMarks, commentItems_prints.betweenMarks,
    blockItems_prints.betweenMarks, dashItems_prints.betweenMarks, starItems_prints.betweenMarks,
    print_templateCommentItems]

theorem toList_inlineSource : inlineSource.toList = (Choice.any inlineItems).print := by
  have htrans : (transItems fun rest => .text "blocktrans" <|
      .maybe (.plain <| .last <| .text "late" .fin) rest).print =
        (transBlock "blocktrans(?:late)?").toList :=
    print_transItems fun rest => by simp
  refine toList_anyOf ?_
  simp [inlineItems, codeItems, onOff, Choice.any, htrans, print_commentBodyItems,
    print_commentEndItems]

theorem toList_unformattedSource :
    unformattedSource.toList = (Choice.any unformattedItems).print := by
  refine toList_anyOf ?_
  simp [unformattedItems, htmlItems_prints.betweenMarks, commentItems_prints.betweenMarks,
    blockItems_prints.betweenMarks, dashItems_prints.betweenMarks, starItems_prints.betweenMarks,
    print_templateCommentItems, print_frontMatterItems]

theorem toList_inlineOrIgnored : (anyOf [inlineSource, ignoredSource]).toList =
    (Choice.any (inlineItems ++ ignoredItems)).print := by
  rw [print_any_append (by simp [inlineItems]) (by simp [ignoredItems, keptElementItems]),
    ← toList_inlineSource, ← toList_ignoredSource, anyOf, String.toList_intercalate]
  simp [List.intercalate]

/-! ### Lines that open or close a region -/

/-- An opening template comment that is no mark. -/
def commentStartItems : Items :=
  .text "\x7b#" <| .atom (.notAhead <| .last <| .many .space <| plainWord <| .many .space <|
    .atom (.plain <| .any [.text "on" .fin, .text "off" .fin]) .fin) .fin

/-- The end of a comment block, with blanks. -/
def wideCommentEndItems : Items :=
  .text "\x7b%" <| .rep .blank .some true <| .text "endcomment" <| .rep .blank .some true <|
  .text "%\x7d" .fin

/-- The end of a localized block. -/
def transEndItems : Items :=
  .text "\x7b%" <| .few .blank <| .text "endblocktrans" <|
  .maybe (.plain <| .last <| .text "late" .fin) <|
  .few (.without <| .last <| .text "%\x7d" .fin) <| .text "%\x7d" .fin

def openingItems : List Items :=
  [.text "<style" .fin, .text "\x7b*" .fin, .text "<?php" .fin, .text "<script" .fin,
    .text "<!--" .fin, .atom (.set true (.brace false) []) commentStartItems,
    .atom .head commentStartItems, .text "<pre" .fin, .text "<textarea" .fin,
    .text "\x7b%" <| .few .blank <| .text "blocktrans" <|
      .maybe (.plain <| .last <| .text "late" .fin) <|
      .few (.without <| .any
        [.text "%\x7d" .fin, .atom .edge <| .text "trimmed" <| .atom .edge .fin]) <|
      .text "%\x7d" .fin,
    commentItems.mark "off" .fin,
    .text "\x7b%" <| .rep .blank .some true <| .text "comment" <| .rep .blank .some true <|
      .few (.without <| .last <| .text "%\x7d" .fin) <| .text "%\x7d" .fin,
    dashItems.mark "off" .fin, starItems.mark "off" .fin]

def closingItems : List Items :=
  [.text "</style" .fin, .text "*\x7d" .fin, .text "?>" .fin, .text "</script" .fin,
    .text "-->" .fin,
    .atom .head <| .many (.without <| .last <| .text "\x7b#" .fin) <| .text "#\x7d" .fin,
    .text "</pre" .fin, .text "</textarea" .fin, commentItems.mark "on" .fin,
    .atom (.paren (.look true false) <| .last <| .text "djlint:off" <| .few .space .fin)
      wideCommentEndItems,
    dashItems.mark "on" .fin, starItems.mark "on" .fin, transEndItems]

def safeClosingItems : List Items :=
  [.text "</script" .fin, .text "</style" .fin, commentItems.mark "on" .fin, wideCommentEndItems,
    dashItems.mark "on" .fin, starItems.mark "on" .fin]

theorem print_wideCommentEndItems :
    wideCommentEndItems.print = r"\x7b%[ ]+?endcomment[ ]+?%\x7d".toList := by
  simp [wideCommentEndItems]

theorem print_transEndItems : transEndItems.print = transEndSource.toList := by
  simp [transEndItems, transEndSource]

/-! ### The patterns -/

/-- The choices of regions, with the options that they are read with. -/
def regionTrees : List (Flags × List Items) :=
  [(wide, ignoredItems), (wide, closedItems), (narrow, inlineItems), (wide, unformattedItems),
    (wide, inlineItems ++ ignoredItems), (narrow, openingItems), (narrow, closingItems),
    (narrow, safeClosingItems)]

theorem regionTrees_ok : (regionTrees.all fun t => (Choice.any t.2).ok t.1) = true := by
  decide +kernel

theorem ok_of_mem {flags : Flags} {es : List Items} (h : (flags, es) ∈ regionTrees) :
    (Choice.any es).ok flags = true :=
  List.all_eq_true.1 regionTrees_ok (flags, es) h

theorem ignored_eq : ignored = (Choice.any ignoredItems).pattern wide :=
  ofSource_print toList_ignoredSource (ok_of_mem (by simp [regionTrees]))

theorem closed_eq : closed = (Choice.any closedItems).pattern wide :=
  ofSource_print toList_closedSource (ok_of_mem (by simp [regionTrees]))

theorem inline_eq : inline = (Choice.any inlineItems).pattern narrow :=
  ofSource_print toList_inlineSource (ok_of_mem (by simp [regionTrees]))

theorem unformatted_eq : unformatted = (Choice.any unformattedItems).pattern wide :=
  ofSource_print toList_unformattedSource (ok_of_mem (by simp [regionTrees]))

theorem inlineOrIgnored_eq :
    inlineOrIgnored = (Choice.any (inlineItems ++ ignoredItems)).pattern wide :=
  ofSource_print toList_inlineOrIgnored (ok_of_mem (by simp [regionTrees]))

theorem opening_eq : opening = (Choice.any openingItems).pattern narrow := by
  refine ofSource_print (toList_anyOf ?_) (ok_of_mem (by simp [regionTrees]))
  simp [openingItems, commentStartItems, plainWord, Choice.any, commentItems_prints.off,
    dashItems_prints.off, starItems_prints.off]

theorem closing_eq : closing = (Choice.any closingItems).pattern narrow := by
  refine ofSource_print (toList_anyOf ?_) (ok_of_mem (by simp [regionTrees]))
  simp [closingItems, print_wideCommentEndItems, print_transEndItems, commentItems_prints.on,
    dashItems_prints.on, starItems_prints.on]

theorem safeClosing_eq : safeClosing = (Choice.any safeClosingItems).pattern narrow := by
  refine ofSource_print (toList_anyOf ?_) (ok_of_mem (by simp [regionTrees]))
  simp [safeClosingItems, print_wideCommentEndItems, commentItems_prints.on, dashItems_prints.on,
    starItems_prints.on]

end TemplateTidy.Region
