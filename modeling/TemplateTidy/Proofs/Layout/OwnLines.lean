import TemplateTidy.Proofs.Layout.Isolation
import TemplateTidy.Proofs.Region.Absence

/-! # A line for each tag

In a text without quotes, braces and marks of regions nothing is left alone, so the passes rewrite
each match (`exists_passes`), and afterwards each tag that a search finds has a line of its own
(`breakLines_isolates`).  The letter case of the marks does not matter: a region may begin with
`<?PHP` (`breakLines_keeps_upper_mark`). -/

namespace TemplateTidy.Layout

open Node Pattern Text

variable {s : Settings} {html blocks kept : List (List Char)} {text : List Char}

/-- No quotes, no braces, and no mark that a region begins with. -/
structure Regionless (text : List Char) : Prop where
  unquoted : Unquoted text
  markless : ∀ m ∈ Region.marks, Region.mentions text m = false

instance (text : List Char) : Decidable (Regionless text) :=
  decidable_of_iff (Unquoted text ∧ (Region.marks.all fun m => !Region.mentions text m) = true)
    ⟨fun h => ⟨h.1, by simpa using h.2⟩, fun h => ⟨h.1, by simpa using h.2⟩⟩

theorem Regionless.brace_not_mem (h : Regionless text) : '\x7b' ∉ text := h.unquoted _ (by decide)

/-- Line feeds beside brackets bring no region in. -/
theorem Regionless.of_fed {result : List Char} (h : Regionless text) (hfed : Fed text result) :
    Regionless result where
  unquoted c hc hmem := h.unquoted c hc ((hfed.mem_iff (by rintro rfl; simp at hc)).1 hmem)
  markless m hm := Region.mentions_of_fed hfed hm (h.markless m hm)

/-- Nothing in such a text is left alone. -/
theorem Regionless.not_kept (h : Regionless text) (span : Span) :
    ((Region.ignoredSpans text.toArray).any (Region.within span) ||
      Region.inTemplateTag text.toArray span) = false := by
  rw [Region.ignoredSpans_of_markless h.brace_not_mem h.markless, Region.inTemplateTag,
    Region.spansOf, findAll_eq_nil_of_needs needs_templateTag.1 (by simpa using h.brace_not_mem)]
  rfl

theorem compile_elementBreak (h : Adds s html blocks kept) :
    compileSource loose (elementBreak s) =
    .ok ((Choice.last <| .atom (breakTag html) .fin).pattern loose) := by
  refine compileSource_of_print ?_ ?_
  · simp [print_breakTag h]
  · have hn := breakWords_names h loose
    simp [Choice.ok, breakTag, hn.print_head, hn.okIn_words (fun _ => rfl), hn.groups_words,
      hn.backs_words]
    decide

/-- In a text without quotes, braces and marks of regions, after lines are broken each tag that a
search finds has only spaces before it and only white space after it on its line. -/
theorem breakLines_isolates (w : Nat) (l : Int) {text : List Char} (h : Regionless text) :
    ∃ tag result, compileSource loose (elementBreak (.standard w l)) = .ok tag ∧
      breakLines (.standard w l) text = .ok result ∧ Fed text result ∧
      ∀ m ∈ tag.findAll result.toArray,
        opensLine (result.take m.start) = true ∧ closesLine (result.drop m.stop) = true := by
  have hadds := (readable_standard w l).adds
  obtain ⟨middle, hmiddle, hspread⟩ := exists_spread_breakElementsOn hadds .before text
  obtain ⟨result, hresult, hspread'⟩ := exists_spread_breakElementsOn hadds .after middle
  have hm := h.of_fed hspread.fed
  have hr := hm.of_fed hspread'.fed
  refine ⟨_, result, compile_elementBreak hadds,
    breakLines_of_passes hadds hmiddle hresult hr.brace_not_mem, hspread.fed.trans hspread'.fed, ?_⟩
  simp only [breakElementsOn, compile_breakBefore hadds, compile_breakAfter hadds, Outcome.ok_bind,
    h.not_kept, hm.not_kept, Bool.false_eq_true, if_false] at hmiddle hresult
  exact isolated_of_passes h.unquoted (fun _ => rfl) (Except.ok.inj hmiddle) (fun _ => rfl)
    (Except.ok.inj hresult)

/-- A tag inside another one, capitals, and a tab at the beginning of a line. -/
def tangled : List Char := "x<div a<p >y</DIV>\n \t<br>z<b>".toList

theorem breakLines_isolates_tangled : Regionless tangled ∧
    ∃ tag result, compileSource loose (elementBreak (.standard 4 120)) = .ok tag ∧
      breakLines (.standard 4 120) tangled = .ok result ∧ Fed tangled result ∧
      ∀ m ∈ tag.findAll result.toArray,
        opensLine (result.take m.start) = true ∧ closesLine (result.drop m.stop) = true := by
  have h : Regionless tangled := by decide +kernel
  exact ⟨h, breakLines_isolates 4 120 h⟩

/-! ### Regions -/

/-- A text that is a region stays as it is. -/
theorem breakElementsOn_region (h : Adds s html blocks kept) (side : Side)
    (hregion : ⟨0, text.length⟩ ∈ Region.ignoredSpans text.toArray) :
    breakElementsOn s side text = .ok text := by
  have hpass : ∀ {P : Pattern}, Encloses '<' '>' P → P.replaceAll (fun m =>
      if (Region.ignoredSpans text.toArray).any (Region.within m.span) ||
        Region.inTemplateTag text.toArray m.span then m.capture text.toArray 1
      else side.isolate m.start (m.capture text.toArray 1)) text.toArray = text := by
    intro P hP
    refine replaceAll_eq_self fun m hm => ?_
    obtain ⟨_, i, q, hi, hreach, rfl⟩ := exists_reach_of_mem_findAll hm
    have hstop : q.pos ≤ text.length := (bounds_of_reach hreach).2.2 hi
    rw [if_pos, (hP _ _ hm).1]
    refine Bool.or_eq_true_iff.2 <| .inl <| List.any_eq_true.2 ⟨_, hregion, ?_⟩
    exact Bool.and_eq_true_iff.2 ⟨decide_eq_true (Nat.zero_le _), decide_eq_true hstop⟩
  cases side with
  | before =>
    simp only [breakElementsOn, compile_breakBefore h, Outcome.ok_bind]
    exact congrArg Except.ok (hpass (encloses_breakBefore h))
  | after =>
    simp only [breakElementsOn, compile_breakAfter h, Outcome.ok_bind]
    exact congrArg Except.ok (hpass (encloses_breakAfter h))

/-- A region whose mark is written in capitals. -/
def upperMark : List Char := "<?PHP x<p>y?>".toList

theorem upperMark_check :
    (((Choice.any Region.ignoredItems).pattern Region.wide).node.originFree = true ∧
      (((Choice.any Region.ignoredItems).pattern Region.wide).pointsAt upperMark.toArray
        0).head?.map (Match.span ∘ .ofPoint) = some ⟨0, upperMark.length⟩) ∧
    ((∀ i < 7, breakTagPattern.pointsAt upperMark.toArray i = []) ∧
      (breakTagPattern.pointsAt upperMark.toArray 7).head?.map Point.start = some 7) ∧
    Unquoted upperMark ∧ ¬"<?php".toList <:+: upperMark ∧
    ((Region.marks.erase "<?php").all fun m => !Region.mentions upperMark m) = true := by
  decide +kernel

/-- Letters in capitals begin a region as well, and so a tag there is not broken off its line. -/
theorem breakLines_keeps_upper_mark :
    (Unquoted upperMark ∧ ¬"<?php".toList <:+: upperMark ∧
      ∀ m ∈ Region.marks.erase "<?php", Region.mentions upperMark m = false) ∧
    ∃ tag result, compileSource loose (elementBreak (.standard 4 120)) = .ok tag ∧
      breakLines (.standard 4 120) upperMark = .ok result ∧
      ∃ m ∈ tag.findAll result.toArray, opensLine (result.take m.start) = false := by
  obtain ⟨⟨hfree, hregion⟩, ⟨hnone, htag⟩, hunquoted, hlower, hmarks⟩ := upperMark_check
  obtain ⟨q, hq, hspan⟩ := Option.map_eq_some_iff.1 hregion
  obtain ⟨q', hq', hstart⟩ := Option.map_eq_some_iff.1 htag
  have hadds := (readable_standard 4 120).adds
  have hmem : ⟨0, upperMark.length⟩ ∈ Region.ignoredSpans upperMark.toArray := by
    rw [Region.ignoredSpans, Region.spansOf, Region.ignored_eq, ← hspan]
    exact List.mem_append_left _ (List.mem_map_of_mem
      (mem_findAll_of_first hfree (Nat.zero_le _) (by simp) hq))
  refine ⟨⟨hunquoted, hlower, by simpa using List.all_eq_true.1 hmarks⟩,
    _, upperMark, compile_elementBreak hadds, ?_, .ofPoint q', ?_, ?_⟩
  · exact breakLines_of_passes hadds (breakElementsOn_region hadds .before hmem)
      (breakElementsOn_region hadds .after hmem) (hunquoted _ (by decide))
  · exact mem_findAll_of_first originFree_breakTagPattern (by decide) hnone hq'
  · show opensLine (upperMark.take q'.start) = false
    rw [hstart]
    decide

end TemplateTidy.Layout
