import TemplateTidy.Proofs.Lint.Places
import TemplateTidy.Proofs.Lint.Returns
import TemplateTidy.Proofs.Lint.Selection
import TemplateTidy.Proofs.Region.Overlap
import TemplateTidy.Proofs.Region.RuleMarks

/-! # No findings behind a mark

Behind a comment that turns a rule off, and before no comment that turns rules on again, the rule
finds nothing (`lint_silent_behind_mark`), whatever other comments stand there.  The comment counts
unless the region of an earlier comment of its style goes over it, and no region does if no template
comment opens before it (`lint_silent_behind_first_mark`). -/

namespace TemplateTidy

namespace Lint

open Region

variable {checks : List (String × Check)} {rules : List Rule} {found : List Finding}
  {perFile : Value} {path : String}
  {text before code after : List Char}

theorem mem_of_mem_dropRepeats {f : Finding} (h : f ∈ dropRepeats found) : f ∈ found := by
  have key : ∀ (found kept : List Finding),
      f ∈ found.foldl (fun kept f => if kept.any (·.same f) then kept else f :: kept) kept →
      f ∈ found ∨ f ∈ kept := by
    intro found
    induction found with
    | nil => exact fun kept => .inr
    | cons g found ih =>
      intro kept hf
      obtain hf | hf := ih _ hf
      · exact .inl (List.mem_cons_of_mem _ hf)
      · dsimp only at hf
        split at hf
        · exact .inr hf
        · obtain rfl | hf := List.mem_cons.1 hf
          · exact .inl List.mem_cons_self
          · exact .inr hf
  simpa using key found [] (List.mem_reverse.1 h)

/-- A finding of a lint is one of a rule. -/
theorem exists_runRule_of_mem_lint (h : lint checks rules perFile text path = .ok found)
    {f : Finding} (hf : f ∈ found) :
    ∃ rule ∈ rules, ∃ part, runRule checks (Document.ofText text path) rule = .ok part ∧
    f ∈ part := by
  unfold lint at h
  obtain ⟨off, -, h⟩ := Outcome.exists_of_bind h
  obtain ⟨parts, hparts, h⟩ := Outcome.exists_of_bind h
  rw [← Except.ok.inj h] at hf
  obtain ⟨part, hpart, hf⟩ := List.mem_flatten.1 (mem_of_mem_dropRepeats hf)
  obtain ⟨rule, hrule, hpart⟩ := Outcome.exists_of_mem_mapM hparts part hpart
  exact ⟨rule, (List.mem_filter.1 hrule).1, part, hpart, hf⟩

/-- A finding that comes from a span has its place. -/
theorem Document.Marks.exists_place {rule : Rule} {f : Finding}
    (h : (Document.ofText text path).Marks rule f) :
    ∃ s : Span, (Document.ofText text path).counts f.code s = true ∧ s.start < text.length ∧
      f.place = placeText text s.start := by
  have hcode := h.code_eq
  obtain ⟨s, hcounts, hs⟩ := h
  obtain ⟨place, hplace, hs⟩ := Outcome.exists_of_bind hs
  obtain ⟨hlt, rfl⟩ := lt_length_of_placeOf (show placeOf s.start (lineSpans text) =
    .ok place from hplace)
  exact ⟨s, hcode ▸ hcounts, hlt, by rw [← Except.ok.inj hs]⟩

/-- A finding of plain rules has the place of a span that counts for its code. -/
theorem exists_counts_of_mem_lint (hchecks : checks.lookup "djlint.rules.H025" = some orphanCheck)
    (hrules : ∀ rule ∈ rules, rule.IsPlain) (h : lint checks rules perFile text path = .ok found)
    {f : Finding}
    (hf : f ∈ found) : ∃ s : Span, (Document.ofText text path).counts f.code s = true ∧
      s.start < text.length ∧ f.place = placeText text s.start := by
  obtain ⟨rule, hrule, part, hpart, hf⟩ := exists_runRule_of_mem_lint h hf
  exact (marks_of_runRule hchecks (hrules rule hrule) hpart f hf).exists_place

/-- A finding has one place only. -/
theorem place_ne_of_lt {f : Finding} {i j : Nat} (h : f.place = placeText text i) (hij : i < j)
    (hj : j ≤ text.length) : f.place ≠ placeText text j := by
  intro h'
  have hkeys := (placeKey_eq h).symm.trans (placeKey_eq h')
  simp only [Except.ok.injEq, List.cons.injEq, and_true, Int.natCast_inj] at hkeys
  have := lineAt_lt_or_columnAt_lt hij hj
  omega

/-- Behind a comment that turns a rule off the rule finds nothing, if no comment behind it turns
rules on again and the region of no earlier comment goes over it. -/
theorem lint_silent_behind_mark (hchecks : checks.lookup "djlint.rules.H025" = some orphanCheck)
    (hrules : ∀ rule ∈ rules, rule.IsPlain) (hcode : IsCode code)
    (hon : commentOn.occurs after.toArray = false)
    (htext : text = before ++ (offMark code ++ after))
    (hbefore : ∀ r ∈ spansOf commentOff text.toArray, r.start < before.length →
      r.stop ≤ before.length)
    (h : lint checks rules perFile text path = .ok found) :
    ∀ f ∈ found, f.code = .text (String.ofList code) →
      ∀ i, before.length ≤ i → i ≤ text.length → f.place ≠ placeText text i := by
  intro f hf hown i hi hend
  obtain ⟨s, hcounts, hlt, hplace⟩ := exists_counts_of_mem_lint hchecks hrules h hf
  rw [hown, Document.counts_iff, String.toList_ofList] at hcounts
  have hstart : s.start < before.length := by
    by_contra hge
    have hoff : ruleOff text.toArray code s = true :=
      ruleOff_of_mark htext hcode hon hbefore (not_lt.1 hge) (by simpa using hlt.le)
    rw [hcounts.2.1] at hoff
    cases hoff
  exact place_ne_of_lt hplace (by omega) hend

/-! ### The catalog -/

/-- The name of a rule as a mark lists it. -/
def Rule.listed (rule : Rule) : List Char :=
  match rule.name with
  | .text s => s.toList
  | _ => []

/-- Marks can list the rules of the catalog. -/
theorem isCode_of_mem_catalog {rule : Rule} (h : rule ∈ Catalog.all) :
    rule.name = .text (String.ofList rule.listed) ∧ IsCode rule.listed := by
  have hall : (Catalog.all.all fun rule => rule.name == .text (String.ofList rule.listed) &&
      !rule.listed.isEmpty &&
      rule.listed.all fun c => c != '#' && c != ',' && !Text.isBlank c) = true := by
    decide +kernel
  have hrule := List.all_eq_true.1 hall rule h
  simp only [Bool.and_eq_true, Value.beq_text_iff, Bool.not_eq_eq_eq_not, Bool.not_true,
    List.isEmpty_eq_false_iff, List.all_eq_true, bne_iff_ne, and_assoc] at hrule
  exact ⟨hrule.1, hrule.2.1, hrule.2.2⟩

theorem isPlain_of_mem_catalog {rule : Rule} (h : rule ∈ Catalog.all) : rule.IsPlain := by
  intro name hname
  obtain htest | htest | ⟨ps, htest⟩ := test_of_mem_all rule h
  all_goals
    rw [htest] at hname
    cases hname
  rfl

/-- Behind the first template comment, if that turns a rule of the catalog off, the rule finds
nothing. -/
theorem lint_silent_behind_first_mark {rule : Rule} (hrule : rule ∈ Catalog.all)
    (hrules : ∀ r ∈ rules, r ∈ Catalog.all)
    (htext : text = before ++ (offMark rule.listed ++ after)) (hopen : ¬openWord <:+: before)
    (hon : commentOn.occurs after.toArray = false)
    (h : lint builtinChecks rules perFile text path = .ok found) :
    ∀ f ∈ found, f.code = rule.name →
      ∀ i, before.length ≤ i → i ≤ text.length → f.place ≠ placeText text i := by
  obtain ⟨hname, hcode⟩ := isCode_of_mem_catalog hrule
  rw [hname]
  refine lint_silent_behind_mark rfl (fun r hr => isPlain_of_mem_catalog (hrules r hr))
    hcode hon htext
    (fun r hr hlt => ?_) h
  exact absurd hlt (not_lt.2 (le_start_of_mem_commentOff htext hopen hr))

end Lint

end TemplateTidy
