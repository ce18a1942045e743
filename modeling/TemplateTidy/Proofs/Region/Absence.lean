import TemplateTidy.Proofs.Layout.Regionless
import TemplateTidy.Proofs.Pattern.Demands

/-! # Texts without regions

Every region that is left alone begins with a brace or with one of a few marks, in any letter case
(`regions_marked`).  So a text that mentions none of them has no regions
(`ignoredSpans_of_markless`), and line feeds put into the text do not bring any in
(`mentions_of_fed`). -/

namespace TemplateTidy

namespace Region

open Text Node Pattern

/-- The marks that a region without braces begins with. -/
def marks : List String :=
  ["<!--", "---", "<?php", "<pre", "<textarea", "<script", "<style"]

/-- A word in any letter case. -/
def anyCase (word : String) : List CharSet :=
  word.toList.map (CharSet.single · .simple)

/-- Whether a word stands somewhere in a text, in any letter case. -/
def mentions (text : List Char) (word : String) : Bool :=
  text.tails.any (fits (anyCase word))

/-- Whether what a match begins with is a brace or a mark. -/
def isMarked (w : List CharSet) : Bool :=
  (anyCase "\x7b").isPrefixOf w || marks.any fun m => (anyCase m).isPrefixOf w

theorem regions_marked :
    (((Choice.any ignoredItems).nodes wide 0).all fun n =>
      (n.demands (fun _ => [[]]) []).all isMarked) = true ∧
    (((Choice.any inlineItems).nodes narrow 0).all fun n =>
      (n.demands (fun _ => [[]]) []).all isMarked) = true ∧
    (marks.all fun m => (anyCase m).all fun cs => !cs.holds '\n') = true := by
  decide +kernel

theorem mentions_iff {text : List Char} {word : String} :
    mentions text word = true ↔ ∃ r, r <:+ text ∧ fits (anyCase word) r = true := by
  rw [mentions, List.any_eq_true]
  simp only [List.mem_tails]

theorem fits_of_isPrefixOf : ∀ {v w : List CharSet} {r : List Char}, v.isPrefixOf w = true →
    fits w r = true → fits v r = true
  | [], _, _, _, _ => rfl
  | _ :: _, [], _, h, _ => by cases h
  | _ :: _, _ :: _, [], _, h => by cases h
  | cs :: v, ds :: w, c :: r, h, hfits => by
      rw [List.isPrefixOf_cons_cons, Bool.and_eq_true, beq_iff_eq] at h
      simp only [fits, Bool.and_eq_true] at hfits ⊢
      exact ⟨h.1 ▸ hfits.1, fits_of_isPrefixOf h.2 hfits.2⟩

/-- A text without braces that mentions no mark has no ignored regions. -/
theorem ignoredSpans_of_markless {text : List Char} (hbrace : '\x7b' ∉ text)
    (hmarks : ∀ m ∈ marks, mentions text m = false) : ignoredSpans text.toArray = [] := by
  have hnone : ∀ {flags : Flags} {es : List Items},
      ((Choice.any es).nodes flags 0).all (fun n => (n.demands (fun _ => [[]]) []).all isMarked) =
        true → ((Choice.any es).pattern flags).findAll text.toArray = [] := by
    intro flags es hes
    refine findAll_eq_nil fun scene hscene i q _ hreach => ?_
    obtain ⟨n, hn, hreach⟩ := reach_choice.1 hreach
    obtain ⟨w, hw, hfits⟩ := exists_fits_of_demands hreach (List.nil_append _).symm
    have hsuffix : scene.rest (.at i) <:+ text := by
      rw [Scene.rest, hscene]
      exact List.drop_suffix _ _
    obtain h | h := Bool.or_eq_true_iff.1 (List.all_eq_true.1 (List.all_eq_true.1 hes n hn) w hw)
    · have hopen := fits_of_isPrefixOf h hfits
      cases hr : scene.rest (.at i) with
      | nil =>
        rw [hr] at hopen
        cases hopen
      | cons c r =>
        rw [hr] at hopen hsuffix
        obtain rfl : c = '\x7b' := CharSet.eq_of_holds (by decide) (Bool.and_eq_true_iff.1 hopen).1
        exact hbrace (hsuffix.subset List.mem_cons_self)
    · obtain ⟨m, hm, hbegins⟩ := List.any_eq_true.1 h
      have hmention := mentions_iff.2 ⟨_, hsuffix, fits_of_isPrefixOf hbegins hfits⟩
      rw [hmarks m hm] at hmention
      cases hmention
  rw [ignoredSpans, spansOf, spansOf, ignored_eq, inline_eq, hnone regions_marked.1,
    hnone regions_marked.2.1]
  rfl

/-! ### Line feeds -/

theorem exists_suffix_of_fed {a b : List Char} (h : Fed a b) {r' : List Char} (hr : r' <:+ b) :
    ∃ r, r <:+ a ∧ Fed r r' := by
  induction h with
  | nil =>
    obtain rfl := List.suffix_nil.1 hr
    exact ⟨[], List.suffix_rfl, .nil⟩
  | @keep x a b h ih =>
    obtain rfl | hr := List.suffix_cons_iff.1 hr
    · exact ⟨x :: a, List.suffix_rfl, .keep x h⟩
    · obtain ⟨r, hr, hfed⟩ := ih hr
      exact ⟨r, hr.trans (List.suffix_cons _ _), hfed⟩
  | @feed a b h ih =>
    obtain rfl | hr := List.suffix_cons_iff.1 hr
    · exact ⟨a, List.suffix_rfl, .feed h⟩
    · exact ih hr

theorem fits_of_fed {a b : List Char} (h : Fed a b) :
    ∀ {w : List CharSet}, (∀ cs ∈ w, cs.holds '\n' = false) →
    fits w b = true → fits w a = true := by
  induction h with
  | nil => exact fun _ hfits => hfits
  | @keep x a b _ ih =>
    intro w hw hfits
    cases w with
    | nil => rfl
    | cons cs w =>
      simp only [fits, Bool.and_eq_true] at hfits ⊢
      exact ⟨hfits.1, ih (fun cs hcs => hw cs (by simp [hcs])) hfits.2⟩
  | feed _ _ =>
    intro w hw hfits
    cases w with
    | nil => rfl
    | cons cs w =>
      simp only [fits, Bool.and_eq_true] at hfits
      rw [hw cs (by simp)] at hfits
      cases hfits.1

/-- Line feeds put into a text bring no word without a line feed in. -/
theorem mentions_of_fed_of_feedless {a b : List Char} (h : Fed a b) {word : String}
    (hword : ∀ cs ∈ anyCase word, cs.holds '\n' = false) (ha : mentions a word = false) :
    mentions b word = false := by
  rw [← Bool.not_eq_true] at ha ⊢
  refine fun hb => ha ?_
  obtain ⟨r', hr', hfits⟩ := mentions_iff.1 hb
  obtain ⟨r, hr, hfed⟩ := exists_suffix_of_fed h hr'
  exact mentions_iff.2 ⟨r, hr, fits_of_fed hfed hword hfits⟩

/-- Line feeds put into a text bring no mark in. -/
theorem mentions_of_fed {a b : List Char} (h : Fed a b) {m : String} (hm : m ∈ marks)
    (ha : mentions a m = false) : mentions b m = false := by
  refine mentions_of_fed_of_feedless h (fun cs hcs => ?_) ha
  simpa using List.all_eq_true.1 (List.all_eq_true.1 regions_marked.2.2 m hm) cs hcs

end Region

end TemplateTidy
