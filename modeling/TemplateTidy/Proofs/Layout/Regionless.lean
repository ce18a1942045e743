import TemplateTidy.Proofs.Layout.Tokens

/-! # Documents without regions

The patterns of regions ask for characters that no document of tags and texts holds, for a rule of
dashes, or for tags of other names.  Which of the three it is, is decided by evaluation for each of
them (`regions_foreign`), and so nothing in such a document is left alone
(`ignoredSpans_eq_nil`). -/

namespace TemplateTidy.Layout

open Node Text Pattern

/-! ### Patterns without a place in a document -/

/-- Whether a pattern begins with a rule of dashes. -/
def isRuled : Node → Bool
  | .seq (.one a) (.seq (.one b) (.seq (.one c) _)) =>
    a.onlyOf (· == '-') && b.onlyOf (· == '-') && c.onlyOf (· == '-')
  | _ => false

/-- The tags of lines. -/
def lineTags : List (List Char) :=
  lineNames.flatMap fun n => [openTag n.toList, closeTag n.toList]

theorem LineName.tag_mem (n : LineName) (closing : Bool) : n.tag closing ∈ lineTags := by
  refine List.mem_flatMap.2 ⟨n.name, n.known, ?_⟩
  cases closing <;> simp [tag, chars]

/-- Whether a pattern asks for markup that is not in a document, for a rule of dashes, or for other
tags. -/
def foreign (n : Node) : Bool :=
  n.hopeless (·.onlyOf alien.contains) isRuled ||
    (n.solid && n.begins (· == '<') && lineTags.all fun t => (n.walkOver t).isEmpty)

theorem regions_foreign :
    (((Choice.any Region.ignoredItems).nodes Region.wide 0).all foreign) = true ∧
    (((Choice.any Region.inlineItems).nodes Region.narrow 0).all foreign) = true ∧
    (((Choice.any Region.unformattedItems).nodes Region.wide 0).all fun n => n == .empty ||
      foreign n) = true ∧
    foreign (frontMatterTree.pattern { multiline := true, dotAll := true }).node = true := by
  decide +kernel

theorem needs_templateTag :
    Region.templateTag.node.needs '\x7b' = true ∧ Region.transEnd.node.needs '\x7b' = true := by
  unfold Region.templateTag Region.transEnd Region.transEndSource
  simp only [ofSource_eq_ofChars]
  repeat rw [String.toList_ofList]
  decide +kernel

section spelled

variable {ts : List Token} {text : List Char} {scene : Scene} {p q : Point}
  (h : Spells ts text) (hts : Apart ts)
include h hts

theorem not_reach_of_isRuled (hscene : scene.text.toList = text) {n : Node}
    (hn : isRuled n = true) : ¬n.Reach scene false p q := by
  unfold isRuled at hn
  split at hn
  next a b c rest =>
    simp only [Bool.and_eq_true] at hn
    rintro ⟨m₁, h₁, m₂, h₂, m₃, h₃, -⟩
    obtain ⟨d₁, r₁, hr₁, hd₁, rfl⟩ := reach_one.1 h₁
    obtain ⟨d₂, r₂, hr₂, hd₂, rfl⟩ := reach_one.1 h₂
    obtain ⟨d₃, r₃, hr₃, hd₃, rfl⟩ := reach_one.1 h₃
    obtain rfl := CharSet.eq_of_holds hn.1.1 hd₁
    obtain rfl := CharSet.eq_of_holds hn.1.2 hd₂
    obtain rfl := CharSet.eq_of_holds hn.2 hd₃
    rw [Scene.rest_move, hr₁] at hr₂
    obtain rfl : r₁ = '-' :: r₂ := hr₂
    rw [Scene.rest_move, Scene.rest_move, hr₁] at hr₃
    obtain rfl : r₂ = '-' :: r₃ := hr₃
    exact h.no_rule hts (hscene ▸ List.drop_suffix _ _) ⟨r₃, hr₁.symm⟩
  next => cases hn

/-- What is foreign to documents is not found in them. -/
theorem not_reach_of_foreign (hscene : scene.text.toList = text) {n : Node}
    (hn : foreign n = true) : ¬n.Reach scene false p q := by
  obtain hn | hn := Bool.or_eq_true_iff.1 hn
  · refine not_reach_of_hopeless (fun c hc cs hholds => ?_) (fun _ hr _ _ =>
      not_reach_of_isRuled h hts hscene hr) hn
    by_contra hdead
    have hbad := CharSet.holds_onlyOf (Bool.not_eq_false _ ▸ hdead) hholds
    exact h.alien_not_mem (by simpa using hbad) (hscene ▸ hc)
  · simp only [Bool.and_eq_true, List.all_eq_true, List.isEmpty_iff] at hn
    obtain ⟨⟨hsolid, hbegins⟩, htags⟩ := hn
    by_cases hless : (scene.rest p).head? = some '<'
    · obtain ⟨u, hu⟩ := List.head?_eq_some_iff.1 hless
      have hsuffix : '<' :: u <:+ text := by
        rw [← hu, ← hscene]
        exact List.drop_suffix _ _
      obtain ⟨closing, n, r, hr⟩ := h.tag_of_less hsuffix
      exact not_reach_of_walkOver (n.tag closing) r (hu.trans hr.symm) (htags _ (n.tag_mem closing))
    · refine not_reach_of_begins _ hsolid hbegins fun c hc => ?_
      rw [beq_eq_false_iff_ne]
      rintro rfl
      exact hless hc

/-! ### Nothing is left alone -/

theorem findAll_of_foreign {P : Pattern}
    (hP : ∀ {scene : Scene} {p q : Point}, P.node.Reach scene false p q →
      ∃ n, foreign n = true ∧ n.Reach scene false p q) :
    P.findAll text.toArray = [] := by
  refine findAll_eq_nil fun scene hscene i q _ hreach => ?_
  obtain ⟨n, hn, hreach⟩ := hP hreach
  exact not_reach_of_foreign h hts (by simp [hscene]) hn hreach

/-- No part of a document is left alone. -/
theorem ignoredSpans_eq_nil : Region.ignoredSpans text.toArray = [] := by
  have hnone : ∀ {flags : Flags} {es : List Items}, ((Choice.any es).nodes flags 0).all foreign =
      true → ((Choice.any es).pattern flags).findAll text.toArray = [] := by
    intro flags es hes
    refine findAll_of_foreign h hts fun hreach => ?_
    obtain ⟨n, hn, hreach⟩ := reach_choice.1 hreach
    exact ⟨n, List.all_eq_true.1 hes n hn, hreach⟩
  rw [Region.ignoredSpans, Region.spansOf, Region.spansOf, Region.ignored_eq, Region.inline_eq,
    hnone regions_foreign.1, hnone regions_foreign.2.1]
  rfl

/-- Only empty texts are not formatted. -/
theorem not_childOf_unformatted {s : Span} (hs : s.start ≤ s.stop) :
    (Region.spansOf Region.unformatted text.toArray).any (Region.childOf s) = false := by
  rw [List.any_eq_false]
  intro r hr
  obtain ⟨m, hm, rfl⟩ := List.mem_map.1 hr
  rw [Region.unformatted_eq] at hm
  obtain ⟨origin, i, q, -, hreach, rfl⟩ := exists_reach_of_mem_findAll hm
  obtain ⟨n, hn, hreach⟩ := reach_choice.1 hreach
  obtain hn | hn := Bool.or_eq_true_iff.1 (List.all_eq_true.1 regions_foreign.2.2.1 n hn)
  · obtain rfl := beq_iff_eq.1 hn
    obtain rfl : q = .at i := hreach
    intro hchild
    obtain ⟨hstart, hstop⟩ := Bool.and_eq_true_iff.1 hchild
    have hstart : i < s.start := of_decide_eq_true hstart
    have hstop : s.stop ≤ i := of_decide_eq_true hstop
    omega
  · exact absurd hreach (not_reach_of_foreign h hts (by simp [Pattern.scene]) hn)

omit hts in
theorem templateTag_eq_nil : Region.spansOf Region.templateTag text.toArray = [] := by
  rw [Region.spansOf, findAll_eq_nil_of_needs needs_templateTag.1 (by simpa using h.brace_not_mem)]
  rfl

/-- Front matter is not found in a document. -/
theorem blankLineAfterFrontMatter_eq : blankLineAfterFrontMatter text = text := by
  have hnone : frontMatter.findAll text.toArray = [] := by
    rw [frontMatter_eq]
    exact findAll_of_foreign h hts fun hreach => ⟨_, regions_foreign.2.2.2, hreach⟩
  unfold blankLineAfterFrontMatter
  dsimp only
  rw [replaceAll_eq_self (by simp [hnone])]

end spelled

theorem find?_eq_none_of_needs {P : Pattern} {c : Char} (hP : P.node.needs c = true)
    {chars : Array Char} (h : c ∉ chars.toList) : P.find? chars = none := by
  have hnone : P.occurs chars = false := by
    refine occurs_eq_false ?_
    rintro scene rfl i q - hq
    exact h (mem_of_mem_between (hq.lang.mem_of_needs hP))
  simpa [occurs] using hnone

/-- A text without braces closes no localized block. -/
theorem inProtectedTrans_eq_false {doc piece : Array Char} (h : '\x7b' ∉ piece.toList) :
    Region.inProtectedTrans doc piece = false := by
  delta Region.inProtectedTrans
  rw [find?_eq_none_of_needs needs_templateTag.2 h]

end TemplateTidy.Layout
