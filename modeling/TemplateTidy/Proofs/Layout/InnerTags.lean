import TemplateTidy.Proofs.Layout.Content

/-! # Template tags inside an attribute

`alignTags` breaks the text of an attribute before and behind its template tags, and indents the
lines.  The first pass puts a line feed before a match; the second one takes a match apart into a
tag and the rest of its line, which together are the match.  So what is not blank stays, in order
(`alignTags_moves_blanks`). -/

namespace TemplateTidy.Layout

open Text Pattern

variable {s : Settings} {html blocks kept : List (List Char)} {text : List Char}

/-! ### Patterns -/

def innerTagAtom (blocks kept : List (List Char)) : Atom :=
  .capture <| .last <| .atom (.plain <| .any [.text "\x7b%" .fin, .text "\x7b\x7b#" .fin]) <|
  .few .blank <| .atom (.plain <| blockNames breakBlockWords blocks kept) <|
  .rep (.set true (.brace true) []) .some true <|
  .atom (.set false (.lit '%') [.lit '|', .brace true]) <| .text "\x7d" .fin

def innerBefore (blocks kept : List (List Char)) : Choice :=
  .last <| .atom notAtLineStartAtom <| .atom .dot <| .atom .keep <|
    .atom (innerTagAtom blocks kept) .fin

/-- A tag and the rest of its line. -/
def innerAfterItems (blocks kept : List (List Char)) : Items :=
  .atom (innerTagAtom blocks kept) <|
  .atom (.capture <| .last <| .rep (.set true (.control false) []) .some false .fin) <|
    .atom .tail .fin

theorem print_innerTagAtom (h : Adds s html blocks kept) :
    (innerTagAtom blocks kept).print = (innerTag s).toList := by
  have hprint : (innerTagAtom blocks kept).print = r"((?:\x7b%|\x7b\x7b\#)[ ]*?(?:".toList ++
      ((blockNames breakBlockWords blocks kept).print ++ r")[^\x7d]+?[%|\x7d]\x7d)".toList) := by
    simp [innerTagAtom, Choice.any]
  rw [hprint, ← toList_breakBlocks h, ← String.toList_append, ← String.toList_append,
    ← String.append_assoc]
  rfl

theorem compile_innerBefore (h : Adds s html blocks kept) :
    compileSource looseLines (notAtLineStart ++ r".\K" ++ innerTag s) =
      .ok ((innerBefore blocks kept).pattern looseLines) := by
  refine compileSource_of_print ?_ ?_
  · simp [innerBefore, print_notAtLineStartAtom, print_innerTagAtom h]
  · have hw := breakBlockWords_ok h
    simp [Choice.ok, innerBefore, innerTagAtom, BlockWords.print_head, hw.okIn_blockNames h,
      hw.groups_blockNames h, hw.backs_blockNames h]
    decide

theorem compile_innerAfter (h : Adds s html blocks kept) :
    compileSource looseLines (innerTag s ++ r"([^\n]+)$") =
      .ok ((Choice.last (innerAfterItems blocks kept)).pattern looseLines) := by
  refine compileSource_of_print ?_ ?_
  · simp [innerAfterItems, print_innerTagAtom h]
  · have hw := breakBlockWords_ok h
    simp [Choice.ok, innerAfterItems, innerTagAtom, BlockWords.print_head, hw.okIn_blockNames h,
      hw.groups_blockNames h, hw.backs_blockNames h]
    decide

/-- The opening tag of a block whose contents are indented. -/
def innerOpening (blocks kept : List (List Char)) : Choice :=
  .last <| .atom (.plain <| .any [.text "\x7b\x7b#" .fin, .text "\x7b%" <|
      .maybe (.lit '-') .fin]) <|
  .few .blank <| .atom (.capture <| blockNames indentBlockWords blocks kept) .fin

theorem inner_check : areSimple loose indentBlockWords = true ∧
    (compileSource loose blockClosing).isOk = true ∧
    (compileSource loose blockDivider).isOk = true := by
  decide +kernel

theorem compile_blockOpening (h : Adds s html blocks kept) :
    compileSource loose (blockOpening s) = .ok ((innerOpening blocks kept).pattern loose) := by
  have hw := indentBlockWords_ok h
  refine compileSource_of_print ?_ ?_
  · have hprint : (innerOpening blocks kept).print = r"(?:\x7b\x7b\#|\x7b%-?)[ ]*?(".toList ++
        ((blockNames indentBlockWords blocks kept).print ++ [')']) := by
      simp [innerOpening, Choice.any]
    rw [hprint, hw.print_blockNames h]
    unfold blockOpening indentBlocks
    simp only [String.toList_append, List.append_assoc]
    -- The names stay as they are on both sides.
    generalize (anyOf (indentBlockNames ++ [openSet])).toList = names
    simp
  · have hn : Names loose (indentBlockWords ++ blocks.map edged) :=
      Names.append ⟨simple_of_areSimple inner_check.1, _, _, _, rfl⟩ (h.simple_blocks loose)
    have hok : ∀ opened k, (blockNames indentBlockWords blocks kept).okIn loose opened k =
        true := by
      intro opened k
      simp [blockNames, okIn_exclusionItems h, hn.print_head,
        hn.okIn_words (fun e : false = true => by simp at e), show loose.verbose = true from rfl]
    simp [Choice.ok, innerOpening, BlockWords.print_head, hok, hw.groups_blockNames h,
      hw.backs_blockNames h]
    decide

/-- The patterns for the lines of an attribute can be read. -/
structure InnerPatterns.IsReady (ps : InnerPatterns) : Prop where
  closing : ∃ p, ps.closing = .ok p
  divider : ∃ p, ps.divider = .ok p
  opening : ∃ p, ps.opening = .ok p

theorem isReady_of (h : Adds s html blocks kept) : (InnerPatterns.of s).IsReady := by
  have hread : ∀ {o : Outcome Pattern}, o.isOk = true → ∃ p, o = .ok p := by
    intro o ho
    cases o with
    | error e => cases ho
    | ok p => exact ⟨p, rfl⟩
  -- Without its reduction here, the unifier would rather evaluate the patterns than the record.
  constructor <;> dsimp only [InnerPatterns.of]
  · exact hread inner_check.2.1
  · exact hread inner_check.2.2
  · exact ⟨_, compile_blockOpening h⟩

/-! ### Breaking -/

theorem solid_breakTags (h : Adds s html blocks kept) (text : List Char) :
    ∃ result, breakTags s text = .ok result ∧ solid result = solid text := by
  have hkeep : (innerAfterItems blocks kept).keepless = true := by
    have hopen : (Choice.any [.text "\x7b%" .fin, .text "\x7b\x7b#" .fin]).keepless = true := rfl
    simp [innerAfterItems, innerTagAtom, Choice.keepless, Items.keepless, Atom.keepless,
      keepless_blockNames h, hopen]
  have hgroups : (innerTagAtom blocks kept).groups = 1 := by
    have hopen : (Choice.any [.text "\x7b%" .fin, .text "\x7b\x7b#" .fin]).groups = 0 := rfl
    simp [innerTagAtom, (breakBlockWords_ok h).groups_blockNames h, hopen]
  have hheld : ((innerAfterItems blocks kept).nodes looseLines 0).filterMap Node.held? =
      [1, 2] := by
    show [1, 0 + (innerTagAtom blocks kept).groups + 1] = [1, 2]
    rw [hgroups]
  unfold breakTags
  rw [compile_innerBefore h, Outcome.ok_bind, compile_innerAfter h, Outcome.ok_bind]
  refine ⟨_, rfl, ?_⟩
  refine (replaceAll_view solid_append fun m hm => ?_).trans ?_
  · have hparts := solid_written hkeep rfl hm
    rw [hheld] at hparts
    rw [hparts, solid_append, solid_cons_of_isBlank (by decide), solid_strip]
    simp [solid_append]
  · rw [List.toList_toArray]
    refine (replaceAll_view solid_append fun m hm => ?_).trans (by rw [List.toList_toArray])
    exact solid_cons_of_isBlank (by decide) _

/-! ### Indenting -/

theorem exists_innerLevels {ps : InnerPatterns} (hps : ps.IsReady) (level : Int)
    (line : List Char) : ∃ levels, innerLevels ps level line = .ok levels := by
  obtain ⟨⟨closing, hclosing⟩, ⟨divider, hdivider⟩, opening, hopening⟩ := hps
  unfold innerLevels
  simp only [hclosing, hdivider, hopening, Outcome.ok_bind]
  split_ifs <;> exact ⟨_, rfl⟩

theorem eq_space_of_mem_margin {n k : Int} {c : Char} (h : c ∈ indents s n ++ spaces k) :
    c = ' ' := by
  obtain h | h := List.mem_append.1 h
  · obtain ⟨part, hpart, hc⟩ := List.mem_flatten.1 h
    rw [List.eq_of_mem_replicate hpart] at hc
    exact List.eq_of_mem_replicate hc
  · exact List.eq_of_mem_replicate h

/-- Lines are written below each other, each with something in it, and hold what the lines held that
were read. -/
theorem exists_alignLines {ps : InnerPatterns} (hps : ps.IsReady) (spacing : Int) :
    ∀ (lines : List (List Char)) (level : Int), (∀ l ∈ lines, ∀ c ∈ l, isLineEnd c = false) →
      ∃ written : List (List Char), alignLines s ps spacing level lines =
        .ok (written.flatMap ('\n' :: ·)) ∧
        (written.map solid).flatten = (lines.map solid).flatten ∧
        ∀ l ∈ written, (∃ c ∈ l, isBlank c = false) ∧ ∀ c ∈ l, isLineEnd c = false
  | [], _, _ => ⟨[], rfl, rfl, by simp⟩
  | line :: lines, level, hlines => by
      obtain ⟨hline, hlines⟩ := List.forall_mem_cons.1 hlines
      obtain ⟨⟨here, next⟩, hlevels⟩ := exists_innerLevels hps level line
      obtain ⟨written, hwritten, hsolid, hgood⟩ := exists_alignLines hps spacing lines next hlines
      have hrun : alignLines s ps spacing level (line :: lines) =
          .ok (if (strip (indents s here ++ spaces spacing ++ line)).isEmpty then written.flatMap
            ('\n' :: ·)
            else '\n' :: (indents s here ++ spaces spacing ++ line) ++ written.flatMap
                ('\n' :: ·)) := by
        rw [alignLines, hlevels, Outcome.ok_bind]
        dsimp only
        rw [hwritten, Outcome.ok_bind]
        rfl
      have hkept : solid (indents s here ++ spaces spacing ++ line) = solid line := by
        rw [solid_append, solid_eq_nil
          fun c hc => by rw [eq_space_of_mem_margin hc]; decide, List.nil_append]
      have hends : ∀ c ∈ indents s here ++ spaces spacing ++ line, isLineEnd c = false := by
        intro c hc
        obtain hc | hc := List.mem_append.1 hc
        · rw [eq_space_of_mem_margin hc]
          decide
        · exact hline c hc
      generalize indents s here ++ spaces spacing ++ line = own at hrun hkept hends
      rw [hrun, List.map_cons, List.flatten_cons, ← hsolid, ← hkept, ← solid_strip]
      cases hstrip : strip own with
      | nil => exact ⟨written, rfl, rfl, hgood⟩
      | cons c rest =>
        -- The first character that is left is not blank.
        have hhead : (strip own).head? = some c := by rw [hstrip]; rfl
        have hmem : c ∈ own := mem_of_mem_strip (by rw [hstrip]; simp)
        have hsome : isBlank c = false := isBlank_head_stripLeft (head?_stripRight hhead)
        refine ⟨own :: written, rfl, ?_, List.forall_mem_cons.2 ⟨⟨⟨c, hmem, hsome⟩, hends⟩, hgood⟩⟩
        rw [← hstrip, solid_strip]
        rfl

theorem joinWith_cons_eq_flatMap : ∀ (first : List Char) (rest : List (List Char)),
    joinWith ['\n'] (first :: rest) = first ++ rest.flatMap ('\n' :: ·)
  | first, [] => by simp [joinWith]
  | first, line :: rest => by
      rw [joinWith, joinWith_cons_eq_flatMap line rest]
      simp

/-- The blanks of a text are moved: all else stays, in order.  Lines end with line feeds only, the
first one begins and ends without a blank, and each later one holds something else than blanks. -/
structure MovesBlanks (text result : List Char) : Prop where
  solid_eq : solid result = solid text
  lineEnds : ∀ c ∈ result, isLineEnd c = true → c = '\n'
  lines : ∃ first rest, result.splitOn '\n' = first :: rest ∧
    (∀ c, first.head? = some c ∨ first.getLast? = some c → isBlank c = false) ∧
    ∀ line ∈ rest, ∃ c ∈ line, isBlank c = false

theorem MovesBlanks.of_lines {first : List Char} {rest : List (List Char)}
    (hsolid : ((first :: rest).map solid).flatten = solid text)
    (hends : ∀ l ∈ first :: rest, ∀ c ∈ l, isLineEnd c = false)
    (hfirst : ∀ c, first.head? = some c ∨ first.getLast? = some c → isBlank c = false)
    (hrest : ∀ line ∈ rest, ∃ c ∈ line, isBlank c = false) :
    MovesBlanks text (joinWith ['\n'] (first :: rest)) where
  solid_eq := by rw [solid_joinWith isBlank_lineFeed, hsolid]
  lineEnds := by
    intro c hc hend
    obtain hc | ⟨l, hl, hc⟩ := mem_joinWith hc
    · simpa using hc
    · rw [hends l hl c hc] at hend
      cases hend
  lines := by
    refine ⟨first, rest, splitOn_joinWith (fun l hl hmem => ?_) (by simp), hfirst, hrest⟩
    cases hends l hl _ hmem

theorem exists_alignTags (h : Adds s html blocks kept) (text : List Char) (spacing : Int) :
    ∃ result, alignTags s text spacing = .ok result ∧ MovesBlanks text result := by
  have hps := isReady_of h
  obtain ⟨broken, hbroken, hsolid⟩ := solid_breakTags h text
  have hlines : (((splitLines broken).map strip).map solid).flatten = solid text := by
    rw [List.map_map, show solid ∘ strip = solid from funext solid_strip, solid_splitLines, hsolid]
  have hends : ∀ l ∈ (splitLines broken).map strip, ∀ c ∈ l, isLineEnd c = false := by
    intro l hl c hc
    obtain ⟨l, hmem, rfl⟩ := List.mem_map.1 hl
    exact not_isLineEnd_of_mem_splitLines hmem (mem_of_mem_strip hc)
  have htrimmed : ∀ l ∈ (splitLines broken).map strip,
      ∀ c, l.head? = some c ∨ l.getLast? = some c → isBlank c = false := by
    intro l hl c hc
    obtain ⟨l, -, rfl⟩ := List.mem_map.1 hl
    obtain hc | hc := hc
    · exact isBlank_head_stripLeft (head?_stripRight hc)
    · exact isBlank_getLast_stripRight hc
  unfold alignTags
  rw [hbroken, Outcome.ok_bind]
  cases hfirst : (splitLines broken).map strip with
  | nil =>
    rw [hfirst] at hlines
    have hnone : MovesBlanks text (joinWith ['\n'] [[]]) :=
      .of_lines hlines (by simp) (by simp) (by simp)
    exact ⟨[], rfl, hnone⟩
  | cons first rest =>
    rw [hfirst] at hlines hends htrimmed
    obtain ⟨hown, hends⟩ := List.forall_mem_cons.1 hends
    obtain ⟨⟨here, level⟩, hlevels⟩ := exists_innerLevels hps 0 first
    obtain ⟨written, hwritten, hkept, hgood⟩ :=
      exists_alignLines (s := s) hps spacing rest level hends
    refine ⟨joinWith ['\n'] (first :: written), ?_,
      .of_lines ?_ ?_ (htrimmed first List.mem_cons_self)
      fun l hl => (hgood l hl).1⟩
    · dsimp only
      rw [hlevels, Outcome.ok_bind]
      dsimp only
      rw [hwritten, joinWith_cons_eq_flatMap]
      rfl
    · rw [List.map_cons, List.flatten_cons, hkept, ← hlines]
      rfl
    · exact List.forall_mem_cons.2 ⟨hown, fun l hl => (hgood l hl).2⟩

theorem alignLines_customHtml (w : String) (ps : InnerPatterns) (spacing : Int) :
    ∀ (lines : List (List Char)) (level : Int),
    alignLines { s with customHtml := w } ps spacing level lines =
    alignLines s ps spacing level lines
  | [], _ => rfl
  | line :: lines, level => by
      unfold alignLines
      simp only [alignLines_customHtml w ps spacing lines]
      rfl

/-- Whatever names of blocks the settings list, aligning the template tags of an attribute answers
on every text, and moves blanks only. -/
theorem alignTags_moves_blanks {s : Settings} {blocks kept : Value}
    (hblocks : (customBlocksOf blocks).map (·.getD "") = .ok s.customBlocks)
    (hkept : ignoreBlocksOf kept = .ok s.ignoreBlocks)
    (hnames : ListsNames blocks ∧ ListsNames kept) (text : List Char) (spacing : Int) :
    ∃ result, alignTags s text spacing = .ok result ∧ MovesBlanks text result := by
  -- The names of elements play no part.
  have hhtml : (customHtmlOf .null).map (·.getD "") = .ok "" := rfl
  obtain ⟨_, _, _, hadds⟩ := exists_adds_of_plain (s := { s with customHtml := "" })
    hhtml hblocks hkept
    ⟨.inl rfl, hnames⟩
  have hsame : alignTags { s with customHtml := "" } text spacing = alignTags s text spacing := by
    unfold alignTags
    simp only [alignLines_customHtml]
    rfl
  rw [← hsame]
  exact exists_alignTags hadds text spacing

/-- A block that the settings add, in a text with other line ends. -/
theorem alignTags_moves_blanks_toc :
    ((customBlocksOf (.text "toc")).map (·.getD "") = .ok "|endtoc\\b|toc\\b" ∧
      ListsNames (.text "toc")) ∧
      ∃ result, alignTags { Settings.standard 4 120 with customBlocks := "|endtoc\\b|toc\\b" }
          " a\r\n\x7b% toc %\x7d b\x0c \x7b% endtoc %\x7dc ".toList 3 = .ok result ∧
        MovesBlanks " a\r\n\x7b% toc %\x7d b\x0c \x7b% endtoc %\x7dc ".toList result := by
  have hcomma : commaNames "toc" = ["toc"] := by cbv
  have hsorted : sortedNames ["toc\\b", "endtoc\\b"] = ["endtoc\\b", "toc\\b"] :=
    sortedNames_pair (by decide)
  have hblocks : (customBlocksOf (.text "toc")).map (·.getD "") = .ok "|endtoc\\b|toc\\b" := by
    show Except.ok ("|" ++ String.intercalate "|" (sortedNames
      ((commaNames "toc" ++ (commaNames "toc").map ("end" ++ ·)).map (· ++ "\\b")))) = _
    rw [hcomma]
    exact congrArg (fun names => Except.ok ("|" ++ String.intercalate "|" names)) hsorted
  have hnames : ListsNames (.text "toc") := by
    have hcheck : (["toc"].all fun n => n != "" && n.toList.all isPlain) = true := by decide
    refine .inr ⟨"toc", rfl, fun n hn => ?_⟩
    simpa using List.all_eq_true.1 hcheck n (hcomma ▸ hn)
  have hkept : ignoreBlocksOf .null = .ok none := rfl
  exact ⟨⟨hblocks, hnames⟩, alignTags_moves_blanks hblocks hkept ⟨hnames, .inl rfl⟩ _ 3⟩

end TemplateTidy.Layout
