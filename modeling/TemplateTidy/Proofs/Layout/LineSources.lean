import TemplateTidy.Proofs.Layout.Sources

/-! # The patterns that tell lines apart, as trees

The patterns over lines that hold the names of all elements, and the pattern of a tag with
attributes.  The trees are over any list of words `ws` for the names; where the words print as the
names that the settings know, and are plain, each pattern is that of its tree (`closedLine_eq` and
so on). -/

namespace TemplateTidy.Layout

open Text Pattern

/-- A character that ends no tag. -/
abbrev notClosing : Atom := .set true (.lit '>') []

/-- A space or a tab. -/
abbrev spaceOrTab : Atom := .set false (.lit ' ') [.control true]

section trees

variable (ws : List (List Atom))

/-- What closes an element whose name a group remembers. -/
def closingTag (i : Nat) (rest : Items) : Items :=
  .atom (.plain <| .last <| .few .dot .fin) <|
  .atom (.plain <| .last <| .text "</" <| .atom (.plain <| .last <| .back i) <| .text ">" .fin) rest

/-- The ways of writing a closed element or block that hold names; `n` groups come before. -/
def closedItems (n : Nat) : List Items :=
  [.atom (.plain <| .last <| .text "<" <| .atom (.capture <| words false ws) <| .text ">" .fin) <|
      closingTag (n + 1) (.done true),
    .atom (.plain <| .last <| .text "<" <| .atom (.capture <| words false ws) <| .atom .edge <|
      .rep notClosing .some true <| .text ">" .fin) <| closingTag (n + 2) (.done true),
    .atom (.plain <| .last <| .text "<" <| .atom (.plain <| words false voidWords) <| .atom .edge <|
      .few notClosing <| .maybe (.lit '/') <| .text ">" .fin) (.done true),
    .atom (.plain <| .last <| .text "<" <| .atom (.plain <| words false ws) <| .atom .edge <|
      .few notClosing <| .text "/>" .fin) (.done true),
    .atom (.plain <| .last <| .text "\x7b%" <| .few .blank <|
      .atom (.capture <| .any [.text "if" .fin, .text "for" .fin, .text "block" .fin,
      .text "with" .fin]) <|
      .rep .blank .some true <| .few .dot <| .text "%\x7d" .fin) <|
      .atom (.plain <| .last <| .few .dot .fin) <|
      .atom (.plain <| .last <| .text "\x7b%" <| .rep .blank .some true <| .text "end" <|
        .atom (.plain <| .last <| .back (n + 3)) <| .rep .blank .some true <| .few .dot <|
        .text "%\x7d" .fin) (.done true)]

/-- A closed element or block. -/
def closedChoice (n : Nat) : Choice :=
  .any (closedItems ws n ++ Region.inlineItems)

/-- A line of closed elements, with text before and after them. -/
def closedLineTree : Choice :=
  .last <| .atom .head <|
  .maybe (.plain <| .last <| .atom (.set true (.lit '<') [.space true]) <| .few .dot .fin) <|
  .atom (.plain <| closedChoice ws 0) <| .few spaceOrTab <|
  .few (.plain <| .last <| .few .dot <| .atom (.plain <| closedChoice ws 3) <|
      .few spaceOrTab .fin) <|
  .few (.set true (.lit '<') []) <| .atom .tail .fin

/-- A line that begins with a closing tag, or ends with one. -/
def closingLineTree : Choice :=
  .any
    [.atom .head <| .atom (.plain <| .any
      [.atom (.plain <| .last <| .text "\x7b\x7b" <| .atom (.escaped '/') .fin) .fin,
        .atom (.plain <| .last <| .text "\x7b%" <| .maybe (.lit '-') <| .few .blank <|
          .text "end" <| .atom (.notAhead <| .last <| .text "comment" .fin) .fin) .fin]) .fin,
      .atom (.plain <| .last <| .atom .head <| .text "</" <| .atom (.plain <| words true ws) <|
        .atom .edge .fin) .fin,
      .atom (.plain <| .last <| .text "</" <| .atom (.plain <| words true ws) <| .text ">" <|
        .atom .tail .fin) .fin]

/-- A closed element: `head` comes before its opening tag, `middle` after its name, and `rest` after
its closing tag. -/
def closedTree (head middle : Items → Items) (rest : Items) : Choice :=
  .last <| .atom (.capture <| .last <| head <| .text "<" <| .atom (.capture <| words false ws) <|
    middle <| .text ">" .fin) <|
  .atom (.capture <| .last <| .few .dot .fin) <|
  .atom (.capture <| .last <| .text "</" <| .atom (.capture <| .last <| .back 2) <|
    .text ">" rest) .fin

/-- The rest of a line after a closing tag. -/
def lineRest : Items :=
  .few (.set true (.lit '<') []) <| .atom .tail .fin

/-- Attributes after an edge. -/
def anyAttributes (edge : Items → Items) (rest : Items) : Items :=
  edge <| .rep notClosing .some true rest

def closedAtEndTree : Choice :=
  closedTree ws id id lineRest

def closedAtEndEscapedTree : Choice :=
  closedTree ws id (anyAttributes <| .text "\\b") lineRest

def closedAtStartTree : Choice :=
  closedTree ws (.atom .head) id .fin

def attributedAtStartTree : Choice :=
  closedTree ws (.atom .head) (anyAttributes <| .atom .edge) .fin

/-- A line that begins with an opening tag. -/
def openingLineTree (blockChoice : Choice) : Choice :=
  .last <| .atom .head <| .atom (.plain <| .any
    [.atom (.plain <| .any [.text "\x7b\x7b#" .fin, .text "\x7b%" <| .maybe (.lit '-') .fin]) <|
        .few .blank <| .atom (.capture blockChoice) .fin,
      .atom (.plain <| .last <| .text "<" <| .atom (.plain <| words true ws) <|
        .atom .edge .fin) .fin])
    .fin

/-- A piece of attributes. -/
def attributePieces : Choice :=
  .any
    [.atom (.escaped '"') <| .many (.set true (.escaped '"') []) <| .atom (.escaped '"') .fin,
      .text "'" <| .many (.set true (.lit '\'') []) <| .text "'" .fin,
      .text "\x7b" <| .many (.set true (.brace true) []) <| .text "\x7d" .fin,
      .atom (.set true (.lit '\'') [.escaped '"', .lit '>', .brace false, .brace true,
        .escaped '/']) .fin]

/-- A tag with attributes, after blanks. -/
def attributedTagTree : Choice :=
  .last <| .atom (.capture <| .last <| .few .space .fin) <|
  .atom (.capture <| .last <| .text "<" <| .atom (.plain <| words false ws) <| .atom .edge .fin) <|
  .atom (.capture <| .last <| .rep (.plain attributePieces) .some true .fin) <|
  .atom (.capture <| .last <| .maybe .space <| .maybe (.lit '/') <| .text ">" .fin) .fin

end trees

/-! ### What the trees print -/

section printing

variable {ws : List (List Atom)} {e : String} (he : e.toList = (words false ws).print)
include he

theorem print_words_line : (words true ws).print = e.toList ++ ['\n'] := by
  rw [he, print_words, print_words]
  simp

set_option maxRecDepth 2000 in
theorem print_closedChoice {n : Nat} (hn : n ∈ [0, 3]) :
    (closedPiece e n).toList = (closedChoice ws n).print := by
  rw [closedChoice, print_any_append (by simp [closedItems]) (by simp [Region.inlineItems]),
    ← Region.toList_inlineSource, closedPiece, String.toList_intercalate, print_any]
  simp only [List.mem_cons, List.not_mem_nil, or_false] at hn
  obtain rfl | rfl := hn
  · simp [closedItems, closingTag, he, toList_voidSource, shortBlocks, anyOf, Choice.any,
      List.intercalate, Nat.toDigits_of_lt_base, Nat.digitChar]
  · simp [closedItems, closingTag, he, toList_voidSource, shortBlocks, anyOf, Choice.any,
      List.intercalate, Nat.toDigits_of_lt_base, Nat.digitChar]

theorem print_closedLineTree :
    (r"^(?:[^<\s].*?)?(?:" ++ closedPiece e 0 ++ r")[ \t]*?(?:.*?(?:" ++ closedPiece e 3 ++
      r")[ \t]*?)*?[^<]*?$").toList = (closedLineTree ws).print := by
  have hp := print_closedChoice he (show 0 ∈ [0, 3] by simp)
  have hp' := print_closedChoice he (show 3 ∈ [0, 3] by simp)
  simp [closedLineTree, hp, hp']

theorem print_closingLineTree :
    ("^" ++ blockClosing ++ "|(?:^</(?:" ++ e ++ "\n" ++ r")\b)|(?:</(?:" ++ e ++ "\n)>$)").toList =
      (closingLineTree ws).print := by
  simp [closingLineTree, blockClosing, print_words_line he, Choice.any]

theorem print_closedAtEndTree :
    (r"(<(" ++ e ++ r")>)(.*?)(</(\2)>[^<]*?$)").toList = (closedAtEndTree ws).print := by
  simp [closedAtEndTree, closedTree, lineRest, he, Nat.digitChar]

theorem print_closedAtEndEscapedTree :
    (r"(<(" ++ e ++ r")\\b[^>]+?>)(.*?)(</(\2)>[^<]*?$)").toList =
    (closedAtEndEscapedTree ws).print := by
  simp [closedAtEndEscapedTree, closedTree, anyAttributes, lineRest, he, Nat.digitChar]

theorem print_closedAtStartTree :
    (r"(^<(" ++ e ++ r")>)(.*?)(</(\2)>)").toList = (closedAtStartTree ws).print := by
  simp [closedAtStartTree, closedTree, he, Nat.digitChar]

theorem print_attributedAtStartTree :
    (r"(^<(" ++ e ++ r")\b[^>]+?>)(.*?)(</(\2)>)").toList = (attributedAtStartTree ws).print := by
  simp [attributedAtStartTree, closedTree, anyAttributes, he, Nat.digitChar]

theorem print_openingLineTree {b : String} {c : Choice} (hb : c.print = b.toList ++ ['\n']) :
    ("^(?:" ++ (r"(?:\x7b\x7b\#|\x7b%-?)[ ]*?(" ++ b ++ "\n)") ++ "|(?:<(?:" ++ e ++ "\n" ++
      r")\b))").toList = (openingLineTree ws c).print := by
  simp [openingLineTree, hb, print_words_line he, Choice.any]

theorem print_attributedTagTree :
    (r"(\s*?)(<(?:" ++ e ++ r#")\b)((?:\"[^\"]*\"|'[^']*'|\x7b[^\x7d]*\x7d|"# ++
      r#"[^'\">\x7b\x7d\/])+?)(\s?/?>)"#).toList = (attributedTagTree ws).print := by
  simp [attributedTagTree, attributePieces, he, Choice.any]

end printing

/-! ### The trees are well written -/

theorem inlineItems_ok : (Choice.any Region.inlineItems).okIn looseLines [] 0 = true ∧
    (Choice.any Region.inlineItems).groups = 0 ∧ (Choice.any Region.inlineItems).backs = [] := by
  decide +kernel

section checks

variable {ws : List (List Atom)} (hn : Names looseLines ws)
include hn

theorem groups_closedChoice (n : Nat) : (closedChoice ws n).groups = 3 := by
  have hi := inlineItems_ok.2.1
  rw [groups_any] at hi
  rw [closedChoice, groups_any, List.map_append, List.sum_append, hi]
  simp [closedItems, closingTag, hn.groups_words, (voidWords_names looseLines).groups_words,
    Choice.any]

theorem backs_closedChoice (n : Nat) : (closedChoice ws n).backs = [n + 1, n + 2, n + 3] := by
  have hi := inlineItems_ok.2.2
  rw [backs_any] at hi
  rw [closedChoice, backs_any, List.flatMap_append, hi]
  simp [closedItems, closingTag, hn.backs_words, (voidWords_names looseLines).backs_words,
    Choice.any]

theorem okIn_closedChoice {n : Nat} (hmem : n ∈ [0, 3]) :
    (closedChoice ws n).okIn looseLines [] n = true := by
  have hv := voidWords_names looseLines
  have hplain : false = true → looseLines.verbose = true := fun _ => rfl
  have hverbose : looseLines.verbose = true := rfl
  obtain ⟨hok, hgroups, hbacks⟩ := inlineItems_ok
  rw [closedChoice, okIn_any_append looseLines [] n (by simp [closedItems])
    (by simp [Region.inlineItems]), Choice.okIn_shift looseLines hgroups hbacks, hok]
  simp [closedItems, closingTag, Choice.any, hn.print_head, hn.okIn_words hplain, hn.groups_words,
    hv.print_head, hv.okIn_words hplain, hv.groups_words, hverbose, Atom.clear, isBlank, isSpace]
  simp only [List.mem_cons, List.not_mem_nil, or_false] at hmem
  omega

theorem closedLineTree_ok : (closedLineTree ws).ok looseLines = true := by
  have hok := okIn_closedChoice hn (show 0 ∈ [0, 3] by simp)
  have hok' := okIn_closedChoice hn (show 3 ∈ [0, 3] by simp)
  have hhead (n : Nat) : (closedChoice ws n).print.head? = some '(' := by
    simp [closedChoice, closedItems, Choice.any]
  simp [Choice.ok, closedLineTree, hok, hok', hhead, groups_closedChoice hn, backs_closedChoice hn]
  exact ⟨⟨rfl, rfl⟩, rfl, rfl⟩

theorem closingLineTree_ok : (closingLineTree ws).ok looseLines = true := by
  simp [Choice.ok, closingLineTree, Choice.any, hn.print_head, hn.okIn_words (fun _ => rfl),
    hn.groups_words, hn.backs_words]
  decide

theorem closedAtEndTree_ok : (closedAtEndTree ws).ok looseLines = true := by
  simp [Choice.ok, closedAtEndTree, closedTree, lineRest, hn.print_head,
    hn.okIn_words (fun _ : false = true => rfl), hn.groups_words, hn.backs_words]
  decide

theorem closedAtEndEscapedTree_ok : (closedAtEndEscapedTree ws).ok looseLines = true := by
  simp [Choice.ok, closedAtEndEscapedTree, closedTree, anyAttributes, lineRest, hn.print_head,
    hn.okIn_words (fun _ : false = true => rfl), hn.groups_words, hn.backs_words]
  decide

theorem closedAtStartTree_ok : (closedAtStartTree ws).ok looseLines = true := by
  simp [Choice.ok, closedAtStartTree, closedTree, hn.print_head,
    hn.okIn_words (fun _ : false = true => rfl), hn.groups_words, hn.backs_words]
  decide

theorem attributedAtStartTree_ok : (attributedAtStartTree ws).ok looseLines = true := by
  simp [Choice.ok, attributedAtStartTree, closedTree, anyAttributes, hn.print_head,
    hn.okIn_words (fun _ : false = true => rfl), hn.groups_words, hn.backs_words]
  decide

end checks

/-! ### The patterns of the settings -/

section settings

variable {s : Settings} {html blocks kept : List (List Char)} (h : Adds s html blocks kept)
include h

theorem closedLine_eq : closedLine s = .ok ((closedLineTree (tagWords html)).pattern looseLines) :=
  compileSource_of_print (print_closedLineTree (toList_elements h))
    (closedLineTree_ok (tagWords_names h _))

theorem closingLine_eq :
    closingLine s = .ok ((closingLineTree (tagWords html)).pattern looseLines) :=
  compileSource_of_print (print_closingLineTree (toList_elements h))
    (closingLineTree_ok (tagWords_names h _))

theorem closedAtEnd_eq :
    closedAtEnd s = .ok ((closedAtEndTree (tagWords html)).pattern looseLines) :=
  compileSource_of_print (print_closedAtEndTree (toList_elements h))
    (closedAtEndTree_ok (tagWords_names h _))

theorem closedAtEndEscaped_eq :
    closedAtEndEscaped s = .ok ((closedAtEndEscapedTree (tagWords html)).pattern looseLines) :=
  compileSource_of_print (print_closedAtEndEscapedTree (toList_elements h))
    (closedAtEndEscapedTree_ok (tagWords_names h _))

theorem closedAtStart_eq :
    closedAtStart s = .ok ((closedAtStartTree (tagWords html)).pattern looseLines) :=
  compileSource_of_print (print_closedAtStartTree (toList_elements h))
    (closedAtStartTree_ok (tagWords_names h _))

theorem attributedAtStart_eq :
    attributedAtStart s = .ok ((attributedAtStartTree (tagWords html)).pattern looseLines) :=
  compileSource_of_print (print_attributedAtStartTree (toList_elements h))
    (attributedAtStartTree_ok (tagWords_names h _))

theorem openingLine_eq :
    openingLine s = .ok ((openingLineTree (tagWords html)
      (blockNames indentBlockWords blocks kept)).pattern looseLines) := by
  have hw := indentBlockWords_ok h
  have hn := tagWords_names h looseLines
  refine compileSource_of_print
    (print_openingLineTree (toList_elements h) (hw.print_blockNames h)) ?_
  simp [Choice.ok, openingLineTree, Choice.any, hn.print_head, hn.okIn_words (fun _ => rfl),
    hn.groups_words,
    hn.backs_words, BlockWords.print_head, hw.okIn_blockNames h, hw.groups_blockNames h,
    hw.backs_blockNames h]
  decide

theorem attributedTag_eq :
    attributedTag s = .ok ((attributedTagTree (tagWords html)).pattern loose) := by
  have hn := tagWords_names h loose
  refine compileSource_of_print (print_attributedTagTree (toList_elements h)) ?_
  simp [Choice.ok, attributedTagTree, hn.print_head, hn.okIn_words (fun _ : false = true => rfl),
    hn.groups_words, hn.backs_words]
  decide

end settings

end TemplateTidy.Layout
