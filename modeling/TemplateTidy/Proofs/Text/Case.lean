import Mathlib
import TemplateTidy.Pattern.Syntax

/-! # Characters without case

A character below 128 that is no letter is a case variant of itself only (`mem_variants_iff`), and
the lower case of no other (`lowerChar_eq_iff`).  So a set of such characters holds nothing else,
whether letter case counts or not (`CharSet.holds_onlyOf`). -/

namespace TemplateTidy

open Text

namespace Text

/-- A character below 128 that is no letter. -/
def isCaseless (c : Char) : Bool :=
  0 < c.toNat && c.toNat < 128 && !c.isAlpha

/-- The runs start above 127 and end there too, but for those that end at a small s or k. -/
def StayAbove (runs : Array CaseRun) : Prop :=
  ∀ r ∈ runs, 128 ≤ r.first ∧ (128 ≤ (r.first : Int) + r.shift ∨
    (r.first = r.last ∧ (r.apply r.first = 's'.toNat ∨ r.apply r.first = 'k'.toNat)))

theorem runs_stayAbove : StayAbove foldRuns ∧ StayAbove lowerRuns := by
  unfold StayAbove
  simp only [← Array.mem_toList_iff]
  decide +kernel

theorem foldRuns_stayAbove : StayAbove foldRuns := runs_stayAbove.1

theorem lowerRuns_stayAbove : StayAbove lowerRuns := runs_stayAbove.2

theorem applyRuns_cases (runs : Array CaseRun) (n : Nat) :
    applyRuns runs n = n ∨ ∃ r ∈ runs, r.covers n = true ∧ applyRuns runs n = r.apply n := by
  unfold applyRuns
  cases hr : runs.find? (·.covers n) with
  | none => exact .inl rfl
  | some r =>
    have hcov := Array.find?_some (p := fun r : CaseRun => r.covers n) hr
    exact .inr ⟨r, Array.mem_of_find?_eq_some hr, hcov, rfl⟩

/-- A variant of a character below 128 is the character, or a letter, or lies above 127. -/
theorem variants_below {c : Char} (hc : c.toNat < 128) :
    c ∈ variants c ∧ ∀ b ∈ variants c, b = c ∨ b.isAlpha = true ∨ 128 ≤ b.toNat := by
  unfold variants
  split_ifs <;> simp_all [Char.isAlpha] <;> tauto

theorem mem_variants_above {b c : Char} (hc : ¬c.toNat < 128) (hb : b ∈ variants c) :
    b = c ∨ b = 'I' ∨ b = 'i' ∨ b = foldChar c ∨ b ∈ foldSources (foldChar c) := by
  unfold variants at hb
  simp only [hc, if_false] at hb
  split_ifs at hb
  all_goals
    simp only [List.mem_cons, List.mem_filter, List.not_mem_nil, or_false] at hb
    rcases hb with h | h | h <;> simp_all

section caseless

variable {a : Char} (ha : isCaseless a = true)
include ha

theorem isCaseless_bounds : 0 < a.toNat ∧ a.toNat < 128 ∧ a.isAlpha = false := by
  simpa [isCaseless, and_assoc] using ha

theorem apply_ne_of_covers {runs : Array CaseRun} (hruns : StayAbove runs)
    {r : CaseRun} (hr : r ∈ runs) {n : Nat} (hn : r.covers n = true) : r.apply n ≠ a.toNat := by
  obtain ⟨hpos, hlt, halpha⟩ := isCaseless_bounds ha
  have hletter : ∀ c : Char, c.isAlpha = true → c.toNat ≠ a.toNat := by
    intro c hc he
    rw [Char.toNat_inj.1 he] at hc
    simp [hc] at halpha
  simp only [CaseRun.covers, Bool.and_eq_true, decide_eq_true_eq] at hn
  obtain ⟨-, himage | ⟨hone, himage⟩⟩ := hruns r hr
  · unfold CaseRun.apply
    omega
  · obtain rfl : n = r.first := by omega
    rcases himage with h | h <;> rw [h] <;> exact hletter _ (by decide)

theorem ofNat_ne {n : Nat} (hn : 128 ≤ n) : Char.ofNat n ≠ a := by
  obtain ⟨hpos, hlt, -⟩ := isCaseless_bounds ha
  rintro rfl
  by_cases hv : n.isValidChar
  · rw [Char.toNat_ofNat, if_pos hv] at hlt
    omega
  · rw [Char.toNat_ofNat, if_neg hv] at hpos
    omega

theorem ofNat_applyRuns_ne {runs : Array CaseRun} (hruns : StayAbove runs) {c : Char}
    (hc : ¬c.toNat < 128) : Char.ofNat (applyRuns runs c.toNat) ≠ a := by
  obtain ⟨hpos, hlt, -⟩ := isCaseless_bounds ha
  obtain h | ⟨r, hr, hcov, h⟩ := applyRuns_cases runs c.toNat
  · rw [h]
    exact ofNat_ne ha (by omega)
  · have hne := apply_ne_of_covers ha hruns hr hcov
    rw [h]
    rintro rfl
    rw [Char.toNat_ofNat] at hne hpos
    split at hne
    · exact hne rfl
    · simp_all

theorem foldChar_ne {c : Char} (hc : ¬c.toNat < 128) : foldChar c ≠ a := by
  rw [foldChar, if_neg hc]
  exact ofNat_applyRuns_ne ha foldRuns_stayAbove hc

/-- A character without case is the lower case of itself only. -/
theorem lowerChar_eq_iff {c : Char} : lowerChar c = a ↔ c = a := by
  obtain ⟨hpos, hlt, halpha⟩ := isCaseless_bounds ha
  unfold lowerChar
  by_cases hc : c.toNat < 128
  · rw [if_pos hc]
    by_cases hup : c.isUpper = true
    · have hlow : c.toLower.isAlpha = true := by
        simp [Char.isAlpha, hup]
      constructor
      · rintro rfl
        simp [hlow] at halpha
      · rintro rfl
        simp [Char.isAlpha, hup] at halpha
    · rw [Char.toLower_eq_of_not_isUpper (by simpa using hup)]
  · rw [if_neg hc]
    constructor
    · exact fun h => absurd h (ofNat_applyRuns_ne ha lowerRuns_stayAbove hc)
    · rintro rfl
      exact absurd hlt hc

theorem not_mem_foldSources (f : Char) : a ∉ foldSources f := by
  obtain ⟨hpos, hlt, halpha⟩ := isCaseless_bounds ha
  intro h
  simp only [foldSources, List.mem_append, List.mem_map, List.mem_filterMap] at h
  obtain h | ⟨n, ⟨r, hr, hn⟩, rfl⟩ := h
  · split at h
    · rename_i hl
      obtain rfl := List.mem_singleton.1 h
      simp [Char.isAlpha, Char.isUpper_toUpper_eq_isAlpha, hl] at halpha
    · simp at h
  · have hfirst := (foldRuns_stayAbove r (by simpa using hr)).1
    simp only [CaseRun.source?] at hn
    split at hn
    · rename_i hcov
      obtain rfl := Option.some.inj hn
      simp only [CaseRun.covers, Bool.and_eq_true, decide_eq_true_eq] at hcov
      exact ofNat_ne ha (by omega) rfl
    · simp at hn

/-- A character without case is a variant of itself only. -/
theorem mem_variants_iff {c : Char} : a ∈ variants c ↔ c = a := by
  obtain ⟨hpos, hlt, halpha⟩ := isCaseless_bounds ha
  by_cases hc : c.toNat < 128
  · obtain ⟨hself, hothers⟩ := variants_below hc
    constructor
    · intro h
      obtain h | h | h := hothers a h
      · exact h.symm
      · simp [h] at halpha
      · omega
    · rintro rfl
      exact hself
  · have hne : c ≠ a := by
      rintro rfl
      exact hc hlt
    refine ⟨fun h => ?_, fun h => absurd h hne⟩
    obtain h | rfl | rfl | h | h := mem_variants_above hc h
    · exact h.symm
    · simp [Char.isAlpha] at halpha
    · simp [Char.isAlpha] at halpha
    · exact absurd h.symm (foldChar_ne ha hc)
    · exact absurd h (not_mem_foldSources ha _)

end caseless

end Text

/-- Whether a set holds only characters of a class, all of them without case. -/
def CharSet.onlyOf (bad : Char → Bool) (s : CharSet) : Bool :=
  !s.negated && s.folding != .ascii && s.items.all fun
    | .range a b => a == b && isCaseless a && bad a
    | .named .. => false

theorem CharSet.holds_onlyOf {bad : Char → Bool} {s : CharSet} (h : s.onlyOf bad = true) {c : Char}
    (hc : s.holds c = true) : bad c = true := by
  simp only [onlyOf, Bool.and_eq_true, Bool.not_eq_true', bne_iff_ne, List.all_eq_true] at h
  obtain ⟨⟨hneg, hfold⟩, hitems⟩ := h
  -- each item holds a single character of the class
  have hitem : ∀ item ∈ s.items, ∀ d, item.holds d = true → isCaseless d = true ∧ bad d = true := by
    intro item hmem d hd
    have := hitems item hmem
    cases item with
    | named k positive => simp at this
    | range a b =>
      simp only [Bool.and_eq_true, beq_iff_eq] at this
      simp only [CharItem.holds, Bool.and_eq_true, decide_eq_true_eq] at hd
      obtain ⟨⟨rfl, hcase⟩, hbad⟩ := this
      obtain rfl : d = a := le_antisymm hd.2 hd.1
      exact ⟨hcase, hbad⟩
  simp only [holds, hneg, Bool.bne_false] at hc
  split at hc
  · obtain ⟨item, hmem, hd⟩ := List.any_eq_true.1 hc
    exact (hitem item hmem c hd).2
  · obtain ⟨d, hd, hany⟩ := List.any_eq_true.1 hc
    obtain ⟨item, hmem, hitemd⟩ := List.any_eq_true.1 hany
    obtain ⟨hcase, hbad⟩ := hitem item hmem d hitemd
    have hvar : d ∈ variants c := by
      cases hf : s.folding with
      | exact => simp_all
      | ascii => exact absurd hf hfold
      | simple => simpa [hf, Folding.images] using hd
    rw [(mem_variants_iff hcase).1 hvar]
    exact hbad

end TemplateTidy
