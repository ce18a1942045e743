import TemplateTidy.Proofs.Layout.FlatTags
import TemplateTidy.Proofs.Layout.Page
import TemplateTidy.Proofs.Layout.Regionless
import TemplateTidy.Proofs.Layout.TrimmedLines

/-! # The canonical layout

However the tags and texts of a page are written, with any blanks and line feeds between them, the
formatter answers its layout (`format_spelling`), and leaves that as it is (`format_again`).  Each
stage is known on spellings: flat tags stay as they are, breaks put each tag on a line of its own,
trimming leaves the lines alone, indentation follows the nesting, and joining shortens what is short
enough. -/

namespace TemplateTidy.Layout

open Node Text Pattern

variable {ts : List Token} {text : List Char} (width : Nat) (most : Int)

/-! ### Flat tags -/

/-- Tags without attributes stay as they are. -/
theorem flattenTags_eq (h : Spells ts text) (hts : Apart ts) :
    flattenTags (.standard width most) text = text := by
  have hflat : ∀ m ∈ flatPattern.findAll text.toArray,
      (if (Region.spansOf Region.unformatted text.toArray).any
        (Region.childOf m.span) then m.text text.toArray
        else flatTag (.standard width most) text.toArray m) = flatTag (.standard width most)
            text.toArray m := by
    intro m hm
    obtain ⟨origin, i, q, -, hq, rfl⟩ := exists_reach_of_mem_findAll hm
    rw [not_childOf_unformatted h hts (bounds_of_reach hq).2.1]
    rfl
  unfold flattenTags
  dsimp only
  rw [tagPattern_eq, replaceAll_congr hflat, replaceAll_eq_rewriteFrom]
  obtain ⟨g, ps, htext, -, hg, hps⟩ := h.parted
  exact (rewriteFrom_flat_spell (fun m => rfl) [] g (by simpa using htext) hg hps).trans htext.symm

/-! ### Broken lines -/

theorem breakElementsOn_before (h : Spells ts text) (hts : Apart ts) :
    ∃ result, breakElementsOn (.standard width most) .before text = .ok result ∧
      Parted (fun _ t => t.isTag) ts result := by
  obtain ⟨g, ps, htext, hps, hg, hgaps⟩ := h.parted
  obtain ⟨g', ps', hrun, hsame, hg', hgaps', -⟩ := rewriteFrom_before_spell
    (f := fun m => Side.before.isolate m.start (m.capture text.toArray 1)) (fun _ => rfl) [] g
      (by simp [Closed])
    (by simpa using htext) hg hgaps
  refine ⟨_, ?_, g', ps', hrun, hsame.trans hps, hg', hgaps'⟩
  simp only [breakElementsOn, compile_breakBefore (readable_standard width most).adds,
    ignoredSpans_eq_nil h hts,
    Region.inTemplateTag, templateTag_eq_nil h, List.any_nil, Bool.or_false, Bool.false_eq_true,
    if_false]
  rfl

theorem breakElementsOn_after (h : Parted (fun _ t => t.isTag) ts text) (hts : Apart ts) :
    ∃ result, breakElementsOn (.standard width most) .after text = .ok result ∧
      Parted (fun t t' => t.isTag || t'.isTag) ts result := by
  have hspells := h.spells
  obtain ⟨g, ps, htext, hps, hg, hgaps⟩ := h
  obtain ⟨ps', hrun, hsame, hgaps'⟩ := rewriteFrom_after_spell
    (f := fun m => Side.after.isolate m.start (m.capture text.toArray 1)) (fun _ => rfl) [] g
    (by simpa using htext) hg hgaps
  refine ⟨_, ?_, g, ps', hrun, hsame.trans hps, hg, hgaps'⟩
  simp only [breakElementsOn, compile_breakAfter (readable_standard width most).adds,
    ignoredSpans_eq_nil hspells hts,
    Region.inTemplateTag, templateTag_eq_nil hspells, List.any_nil, Bool.or_false,
    Bool.false_eq_true, if_false]
  rfl

/-- Each tag gets a line of its own. -/
theorem breakLines_spells (h : Spells ts text) (hts : Apart ts) :
    ∃ result, breakLines (.standard width most) text = .ok result ∧
      Parted (fun t t' => t.isTag || t'.isTag) ts result := by
  obtain ⟨a, ha, h⟩ := breakElementsOn_before width most h hts
  obtain ⟨b, hb, h⟩ := breakElementsOn_after width most h hts
  exact ⟨b, breakLines_of_passes (readable_standard width most).adds ha hb h.spells.brace_not_mem,
    h⟩

/-! ### Trimmed lines -/

/-- A page on lines: an empty line perhaps, and each tag and text on a line of its own. -/
def onLines (empty : Bool) (ts : List Token) : List Char :=
  (if empty then ['\n'] else []) ++ joinWith ['\n'] (ts.map Token.chars)

theorem spells_onLines {empty : Bool} : Spells ts (onLines empty ts) := by
  have hlines : Spells ts (joinWith ['\n'] (ts.map Token.chars)) := by
    induction ts with
    | nil => exact .nil (by simp [joinWith])
    | cons t ts ih =>
      cases ts with
      | nil => simpa [joinWith] using @Spells.cons t [] [] [] (by simp) (.nil (by simp))
      | cons t' ts =>
        have hfeed : ∀ c ∈ ['\n'], isGap c = true := by simp [isGap]
        simpa [joinWith] using @Spells.cons t _ [] _ (by simp) (ih.behind hfeed)
  refine hlines.behind ?_
  cases empty <;> simp [isGap]

/-- Trimming leaves nothing but the lines, and an empty line if one came first. -/
theorem trimEnds_eq (h : Parted (fun t t' => t.isTag || t'.isTag) ts text)
    (hts : Apart ts) (hne : ts ≠ []) :
    ∃ empty, trimEnds (.standard width most) text = onLines empty ts := by
  have hspells := h.spells
  obtain ⟨g, ps, htext, rfl, hg, hgaps⟩ := h
  have hf : ∀ m, trimmed text.toArray [] text.toArray m = m.capture text.toArray 1 := by
    intro m
    have hbrace : '\x7b' ∉ (m.text text.toArray).toArray.toList := by
      rw [List.toList_toArray]
      exact fun hmem => hspells.brace_not_mem (Match.mem_of_mem_text hmem)
    simp only [trimmed, List.any_nil, Bool.false_and, Bool.false_eq_true, if_false,
      inProtectedTrans_eq_false hbrace]
  have hrun := replaceAll_trim hf (by simpa using htext) hg (by simpa using hne) (hgaps.all hts)
  refine ⟨decide ('\n' ∈ g), ?_⟩
  rw [trimEnds_eq_replaceAll, ignoredSpans_eq_nil hspells hts, hrun, onLines, List.map_map]
  by_cases hfeed : '\n' ∈ g <;> simp [hfeed, Function.comp_def]

/-- Trimming adds no blank lines. -/
theorem trimLines_spells (h : Parted (fun t t' => t.isTag || t'.isTag) ts text)
    (hts : Apart ts) (hne : ts ≠ []) :
    ∃ empty, trimLines (.standard width most) text = .ok (onLines empty ts) := by
  obtain ⟨empty, htrim⟩ := trimEnds_eq width most h hts hne
  have hafter : blankLinesAfter (.standard width most) (onLines empty ts) =
    .ok (onLines empty ts) := rfl
  have hbefore : blankLinesBefore (.standard width most) (onLines empty ts) =
    .ok (onLines empty ts) := rfl
  refine ⟨empty, ?_⟩
  rw [trimLines, htrim, hafter, Outcome.ok_bind, hbefore, Outcome.ok_bind,
    blankLineAfterFrontMatter_eq spells_onLines hts]
  rfl

/-! ### Indentation -/

theorem Content.isGap_margin {width level : Nat} : ∀ c ∈ margin width level, isGap c = true := by
  intro c hc
  rw [mem_margin hc]
  rfl

/-- What is written line by line spells the tags and texts. -/
theorem spells_written : ∀ {ls : List (Option Nat × List Char)} {ts : List Token},
    ls.map Prod.snd = ts.map Token.chars → Spells ts (written (.standard width most) ls)
  | [], [], _ => .nil (by simp [written])
  | [], t :: ts, h => by cases h
  | l :: ls, [], h => by cases h
  | (level, line) :: ls, t :: ts, h => by
      obtain ⟨hline, hls⟩ := List.cons.inj h
      obtain rfl : line = t.chars := hline
      obtain ⟨lead, hplaced, hlead⟩ : ∃ lead, placed (.standard width most) level t.chars = lead ++
          t.chars ∧ ∀ c ∈ lead, isGap c = true := by
        cases level with
        | none => exact ⟨[], rfl, by simp⟩
        | some n => exact ⟨Content.margin width n, by rw [placed, indents_standard], Content.isGap_margin⟩
      have hwritten : written (.standard width most) ((level, t.chars) :: ls) =
          lead ++ (t.chars ++ (['\n'] ++ written (.standard width most) ls)) := by
        simp [written, hplaced]
      rw [hwritten]
      exact .cons hlead ((spells_written hls).behind (by simp [isGap]))

namespace Content

variable {b : Bool} (c : Content b)

theorem lines_ne_nil {c : Content b} (hne : c.tokens ≠ []) : c.nested.lines 0 ≠ [] := by
  intro he
  have h := c.lines_nested 0
  rw [he] at h
  exact hne (List.map_eq_nil_iff.1 h.symm)

/-- The lines are written with their indents, behind an empty one if it came first. -/
theorem indentLines_onLines (hne : c.tokens ≠ []) (empty : Bool) :
    indentLines (.standard width most) (onLines empty c.tokens) =
      .ok ((if empty then ['\n'] else []) ++ written (.standard width most)
        (c.nested.lines 0)) := by
  have hadds := (readable_standard width most).adds
  have hpreserve : (Settings.standard width most).preserveLeadingSpace.truthy = false := rfl
  cases empty with
  | false =>
    have hlines := c.nested.indentLines_eq hadds hpreserve (lines_ne_nil hne)
    rw [c.lines_nested] at hlines
    simpa [onLines] using hlines
  | true =>
    have hone : ∀ l ∈ [] :: c.tokens.map Token.chars, '\n' ∉ l := by
      intro l hl
      obtain rfl | hl := List.mem_cons.1 hl
      · simp
      · obtain ⟨t, -, rfl⟩ := List.mem_map.1 hl
        exact t.feed_not_mem
    -- the empty line is a step of its own, and leaves the level as it is
    have hruns : Runs (.standard width most) (outside 0)
        ((none, []) :: c.nested.lines 0) (outside 0) :=
      .cons (indentLine_nil hpreserve) (c.nested.runs hpreserve 0)
    have hresult := hruns.result
    rw [List.map_cons, c.lines_nested] at hresult
    rw [onLines, if_pos rfl, List.singleton_append, ← joinWith_cons_nil (by simpa using hne),
      indentLines, linePatterns_eq hadds, splitOn_joinWith hone (by simp)]
    refine hresult.trans ?_
    simp [written, placed]

/-- Each line gets its indent; an empty line before them is dropped. -/
theorem indent_onLines (tools : Tools) (hne : c.tokens ≠ []) (empty : Bool) :
    (tools.indent (onLines empty c.tokens)).run.run (.standard width most) =
      (.ok (written (.standard width most) (c.nested.lines 0)), .standard width most) := by
  have hfree : '\x7b' ∉ onLines empty c.tokens := spells_onLines.brace_not_mem
  have hspells : Spells c.tokens ((if empty then ['\n'] else []) ++
      written (.standard width most) (c.nested.lines 0)) := by
    refine (spells_written width most (c.lines_nested 0)).behind ?_
    cases empty <;> simp [isGap]
  have hkeep : (Settings.standard width most).preserveBlankLines.truthy = false := rfl
  have hfirm := c.nested.firm_joined (s := .standard width most) (lines_ne_nil hne)
  have hblank : ∀ c ∈ ['\n'], isBlank c = true := by simp [isBlank, isSpace]
  have hleft : stripLeft ((if empty then ['\n'] else []) ++ written (.standard width most)
      (c.nested.lines 0)) = written (.standard width most) (c.nested.lines 0) := by
    rw [written_eq (lines_ne_nil hne)]
    cases empty <;> exact stripLeft_of_firm hfirm _
  have hlines := indentLines_onLines width most c hne empty
  rw [← spaceTags_eq hfree] at hlines
  rw [run_indent_of_dataless hlines (dataless_of_not_mem hspells.brace_not_mem), endsRight, hkeep,
    if_neg (by simp), hleft, written_eq (lines_ne_nil hne), stripRight_of_firm hfirm hblank]

/-! ### Short elements -/

theorem spells_of_only {c : Content b} {body : List Char} (h : c.only? = some body) :
    Spells c.tokens body := by
  have hend : Spells [] [] := .nil (by simp)
  match c, h with
  | .nil, h => exact Option.some.inj h ▸ hend
  | .text t .nil, h =>
    rw [← Option.some.inj h]
    simpa [tokens, Token.chars] using @Spells.cons (.text t) _ [] _ (by simp) hend
  | .text _ (.element _ _ _), h => cases h
  | .element _ _ _, h => cases h

/-- The layout of a page is one of its spellings. -/
theorem spells_layout : ∀ level, Spells c.tokens (unlines (c.layout width most level)) := by
  have hfeed : ∀ c ∈ ['\n'], isGap c = true := by simp [isGap]
  induction c with
  | nil => exact fun _ => .nil (by simp [layout, unlines])
  | text t rest ih =>
    intro level
    rw [layout, unlines_cons, List.append_assoc]
    exact .cons isGap_margin ((ih level).behind hfeed)
  | @element b n inner rest ihinner ihrest =>
    intro level
    obtain ⟨body, hbody, heq⟩ : ∃ body, Spells inner.tokens body ∧
        unlines ((element (b := b) n inner rest).layout width most level) = margin width level ++
          (n.tag false ++
          (body ++ (n.tag true ++ (['\n'] ++ unlines (rest.layout width most level))))) := by
      rw [layout]
      cases hline : oneLine? most n inner with
      | some line =>
        obtain ⟨hline, -⟩ := Option.filter_eq_some_iff.1 hline
        obtain ⟨body, hbody, rfl⟩ := Option.map_eq_some_iff.1 hline
        exact ⟨body, spells_of_only hbody, by simp [unlines]⟩
      | none =>
        refine ⟨['\n'] ++ (unlines (inner.layout width most (level + 1)) ++ margin width level), ?_,
          by simp [unlines]⟩
        simpa using ((ihinner (level + 1)).append (.nil isGap_margin)).behind hfeed
    rw [heq]
    exact .cons isGap_margin (hbody.append
      (@Spells.cons _ _ [] _ (by simp) ((ihrest level).behind hfeed)))

/-- Short elements are joined, and the result is the layout. -/
theorem joinShort_written :
    joinShort (.standard width most) (written (.standard width most) (c.nested.lines 0)) =
      .ok (unlines (c.layout width most 0)) := by
  have hspells := spells_written width most (c.lines_nested 0)
  generalize htext : written (.standard width most) (c.nested.lines 0) = text at hspells
  have hjoins : shortPattern.replaceAll (joinedText (.standard width most) text.toArray)
      text.toArray = unlines (c.layout width most 0) := by
    have hrun := joins_content c 0 (u := []) (r := []) (show text.toArray.toList = [] ++
      (written (.standard width most) (c.nested.lines 0) ++ []) by simp [htext])
    rw [Joins, htext, List.nil_append, startsTag_short.rewriteFrom_stop (u := text) (by simp),
      List.append_nil] at hrun
    exact hrun
  have hneeds : shortBlock.node.needs '\x7b' = true := by
    rw [shortBlock_eq]
    decide
  have hblock : shortBlock.findAll (unlines (c.layout width most 0)).toArray = [] :=
    findAll_eq_nil_of_needs hneeds (by simpa using (c.spells_layout width most 0).brace_not_mem)
  have hpreserve : (Settings.standard width most).preserveLeadingSpace.truthy = false := rfl
  unfold joinShort
  rw [hpreserve, if_neg (by simp)]
  dsimp only
  rw [ignoredSpans_eq_nil hspells c.apart, List.foldlM_cons, shortElement_eq,
    replaceAllM_ok fun m _ => joined_standard width most _ m, hjoins, Outcome.ok_bind,
    List.foldlM_cons,
    replaceAllM_of_findAll_eq_nil hblock, Outcome.ok_bind]
  rfl

end Content

/-! ### The formatter -/

theorem endsWithReturn_of_spells (h : Spells ts text) : endsWithReturn text = false := by
  refine Bool.not_eq_true _ ▸ mt endsWithReturn_iff.1 (not_returnFirst fun hmem => ?_)
  cases h.isLineEnd_eq hmem rfl

/-- With any line ends, the formatter answers the layout of a page. -/
theorem run_format_page (page : Content true) (hne : page.tokens ≠ [])
    (h : Spells page.tokens (naturalLines text)) :
    (format text).run.run (.standard width most) = (.ok (if endsWithReturn text then
      withReturns (unlines (page.layout width most 0)) else unlines (page.layout width most 0)),
          .standard width most) := by
  have hflat := flattenTags_eq width most h page.apart
  obtain ⟨broken, hbreak, hparted⟩ := breakLines_spells width most h page.apart
  obtain ⟨empty, htrim⟩ := trimLines_spells width most hparted page.apart hne
  have htext : text ≠ [] := by
    rintro rfl
    exact h.ne_nil hne rfl
  have htrimmed : trimmedText (.standard width most) text = .ok (onLines empty page.tokens) := by
    rw [trimmedText_eq, hflat, hbreak, Outcome.ok_bind, htrim]
  exact run_format htext rfl rfl htrimmed (page.indent_onLines width most .builtin hne empty)
    (page.joinShort_written width most)

/-- However the tags and texts of a page are written, the formatter answers its layout. -/
theorem format_spelling (page : Content true) (hne : page.tokens ≠ [])
    (h : Spells page.tokens text) : (format text).run.run (.standard width most) =
      (.ok (unlines (page.layout width most 0)), .standard width most) := by
  rw [run_format_page width most page hne h.naturalLines, endsWithReturn_of_spells h]
  rfl

/-- A page with a headline that is too long for one line, a text and an empty paragraph. -/
def notice : Content true :=
  .element ⟨"body", by decide⟩
    (.element ⟨"h1", by decide⟩
      (.text ⟨⟨"News".toList, ⟨rfl, rfl⟩, by simp [markup]⟩, by simp [isLineEnd], by decide⟩ .nil)
      (.text ⟨⟨"- all".toList, ⟨rfl, rfl⟩, by simp [markup]⟩, by simp [isLineEnd], by decide⟩
        (.element ⟨"p", by decide⟩ .nil .nil)))
    .nil

theorem notice_formatted :
    (format "\n\t<body><h1>\n News </h1>\n\n- all<p> \n</p>\t</body>  ".toList).run.run
      (.standard 2 13) =
      (.ok "<body>\n  <h1>\n    News\n  </h1>\n  - all\n  <p></p>\n</body>\n".toList,
        .standard 2 13) := by
  have hgap : ∀ g : List Char, g.all isGap = true → ∀ c ∈ g, isGap c = true := fun _ =>
    List.all_eq_true.1
  have hspelling : Spells notice.tokens _ :=
    .cons (hgap ['\n', '\t'] rfl) <| .cons (hgap [] rfl) <| .cons (hgap ['\n', ' '] rfl) <|
      .cons (hgap [' '] rfl) <|
      .cons (hgap ['\n', '\n'] rfl) <| .cons (hgap [] rfl) <| .cons (hgap [' ', '\n'] rfl) <|
      .cons (hgap ['\t'] rfl) <| .nil (hgap [' ', ' '] rfl)
  exact format_spelling 2 13 notice (by decide) hspelling

/-- What the formatter answers on a page it does not change any more, with any line ends. -/
theorem format_again (page : Content true) (hne : page.tokens ≠ [])
    (h : Spells page.tokens (naturalLines text)) :
    ∃ result, (format text).run.run (.standard width most) = (.ok result, .standard width most) ∧
      (format result).run.run (.standard width most) = (.ok result, .standard width most) := by
  have hlayout := page.spells_layout width most 0
  have hfeed : '\n' ∈ unlines (page.layout width most 0) := by
    obtain ⟨l, hl⟩ := List.exists_mem_of_ne_nil _ (mt (congrArg unlines) (hlayout.ne_nil hne))
    exact List.mem_flatMap.2 ⟨l, hl, by simp⟩
  have hrun := fun text => @run_format_page text width most page hne
  generalize unlines (page.layout width most 0) = layout at hlayout hfeed hrun
  have hfree : '\r' ∉ layout := fun hmem => by cases hlayout.isLineEnd_eq hmem rfl
  refine ⟨_, hrun text h, ?_⟩
  cases endsWithReturn text with
  | false =>
    refine (hrun layout hlayout.naturalLines).trans ?_
    rw [endsWithReturn_of_spells hlayout]
  | true =>
    have hsame : naturalLines (crlf layout) = naturalLines layout :=
      congrArg (joinWith ['\n']) (splitLinesFrom_crlf [] hfree)
    rw [if_pos rfl, withReturns_eq_crlf hfree, hrun _ (hsame ▸ hlayout.naturalLines),
      endsWithReturn_iff.2 (returnFirst_crlf hfeed), if_pos rfl, withReturns_eq_crlf hfree]

end TemplateTidy.Layout
