import TemplateTidy.Lint.Run
import TemplateTidy.Proofs.Pattern.Beginnings
import TemplateTidy.Proofs.Region.Sources

/-! # Matches beside ignored regions

A match is dropped if it begins or ends in an ignored region, ends included.  No region is empty
(`start_lt_stop_of_mem_ignoredSpans`), so the four characters around the two ends of a match decide
(`overlapsIgnored_iff_edges`): a match is dropped where it only abuts on a region, and kept where it
encloses one and sticks out on both sides.  For the rest, being dropped is to share a character with
a region (`overlapsIgnored_iff_shares`). -/

namespace TemplateTidy

/-- The span holds the character at a place. -/
def Span.Holds (s : Span) (i : Nat) : Prop :=
  s.start ≤ i ∧ i < s.stop

/-- Two spans have a character in common. -/
def Span.Shares (s r : Span) : Prop :=
  ∃ i, s.Holds i ∧ r.Holds i

/-- One span ends where the other one begins. -/
def Span.Abuts (s r : Span) : Prop :=
  s.stop = r.start ∨ r.stop = s.start

/-- `r` lies inside `s`, away from its ends. -/
def Span.Encloses (s r : Span) : Prop :=
  s.start < r.start ∧ r.stop < s.stop

theorem Span.shares_iff {s r : Span} (hs : s.start < s.stop) (hr : r.start < r.stop) :
    s.Shares r ↔ s.start < r.stop ∧ r.start < s.stop := by
  constructor
  · rintro ⟨i, hi, hi'⟩
    exact ⟨hi.1.trans_lt hi'.2, hi'.1.trans_lt hi.2⟩
  · rintro ⟨h, h'⟩
    refine ⟨max s.start r.start, ⟨le_max_left _ _, max_lt hs h'⟩, le_max_right _ _, max_lt h hr⟩

namespace Region

open Pattern Node

/-! ### Regions are not empty -/

theorem regions_solid : ((Choice.any ignoredItems).node wide).solid = true ∧
    ((Choice.any inlineItems).node narrow).solid = true ∧
    (Choice.any ignoredItems).keepless = true ∧ (Choice.any inlineItems).keepless = true := by
  decide +kernel

theorem start_lt_stop_of_mem_spansOf {flags : Flags} {e : Choice}
    (hsolid : (e.node flags).solid = true) (hkeep : e.keepless = true) {text : Array Char}
    {r : Span} (hr : r ∈ spansOf (e.pattern flags) text) : r.start < r.stop := by
  obtain ⟨m, hm, rfl⟩ := List.mem_map.1 hr
  obtain ⟨origin, i, q, -, hreach, rfl⟩ := exists_reach_of_mem_findAll hm
  have hstart : q.start = i := hreach.start_eq <| by
    rw [Choice.pattern, Choice.node, keepless_choice, Choice.keepless_nodes flags hkeep]
  rw [Match.span, Match.ofPoint, hstart]
  exact lt_of_solid hsolid hreach

theorem start_lt_stop_of_mem_ignoredSpans {text : Array Char} {r : Span}
    (hr : r ∈ ignoredSpans text) : r.start < r.stop := by
  obtain ⟨hignored, hinline, hkeep, hkeep'⟩ := regions_solid
  rw [ignoredSpans, ignored_eq, inline_eq, List.mem_append] at hr
  obtain hr | hr := hr
  · exact start_lt_stop_of_mem_spansOf hignored hkeep hr
  · exact start_lt_stop_of_mem_spansOf hinline hkeep' hr

/-! ### Which matches are dropped -/

/-- The character at a place belongs to an ignored region. -/
def IgnoredAt (text : Array Char) (i : Nat) : Prop :=
  ∃ r ∈ ignoredSpans text, r.Holds i

/-- The characters beside the two ends of a span, inside it and outside. -/
def atEdge (s : Span) (i : Nat) : Prop :=
  i + 1 = s.start ∨ i = s.start ∨ i + 1 = s.stop ∨ i = s.stop

theorem touches_iff_edges {s r : Span} (hr : r.start < r.stop) :
    touches s r = true ↔ ∃ i, r.Holds i ∧ atEdge s i := by
  have hplace : ∀ n, r.start ≤ n ∧ n ≤ r.stop ↔ ∃ i, r.Holds i ∧ (i + 1 = n ∨ i = n) := by
    intro n
    constructor
    · rintro ⟨h, h'⟩
      obtain h' | rfl := h'.lt_or_eq
      · exact ⟨n, ⟨h, h'⟩, .inr rfl⟩
      · exact ⟨r.stop - 1, ⟨by omega, by omega⟩, .inl (by omega)⟩
    · rintro ⟨i, ⟨h, h'⟩, hi⟩
      omega
  simp only [touches, Bool.or_eq_true, Bool.and_eq_true, decide_eq_true_eq, hplace, atEdge]
  constructor
  · rintro (⟨i, hi, h⟩ | ⟨i, hi, h⟩)
    · exact ⟨i, hi, by tauto⟩
    · exact ⟨i, hi, by tauto⟩
  · rintro ⟨i, hi, h | h | h⟩
    · exact .inl ⟨i, hi, .inl h⟩
    · exact .inl ⟨i, hi, .inr h⟩
    · exact .inr ⟨i, hi, h⟩

/-- A match is dropped exactly if an ignored character stands at one of its ends, inside or
outside. -/
theorem overlapsIgnored_iff_edges (text : Array Char) (s : Span) :
    overlapsIgnored text s = true ↔ ∃ i, IgnoredAt text i ∧ atEdge s i := by
  rw [overlapsIgnored, List.any_eq_true]
  constructor
  · rintro ⟨r, hr, htouches⟩
    obtain ⟨i, hi, hedge⟩ := (touches_iff_edges (start_lt_stop_of_mem_ignoredSpans hr)).1 htouches
    exact ⟨i, ⟨r, hr, hi⟩, hedge⟩
  · rintro ⟨i, ⟨r, hr, hi⟩, hedge⟩
    exact ⟨r, hr, (touches_iff_edges (start_lt_stop_of_mem_ignoredSpans hr)).2 ⟨i, hi, hedge⟩⟩

theorem touches_iff_shares {s r : Span} (hs : s.start < s.stop) (hr : r.start < r.stop) :
    touches s r = true ↔ (s.Shares r ∧ ¬s.Encloses r) ∨ s.Abuts r := by
  rw [Span.shares_iff hs hr]
  simp only [touches, Bool.or_eq_true, Bool.and_eq_true, decide_eq_true_eq, Span.Encloses,
    Span.Abuts]
  omega

/-- A match that is not empty is dropped exactly if it abuts on an ignored region, or shares a
character with one that it does not enclose. -/
theorem overlapsIgnored_iff_shares (text : Array Char) {s : Span} (hs : s.start < s.stop) :
    overlapsIgnored text s = true ↔
      ∃ r ∈ ignoredSpans text, (s.Shares r ∧ ¬s.Encloses r) ∨ s.Abuts r := by
  rw [overlapsIgnored, List.any_eq_true]
  refine exists_congr fun r => and_congr_right fun hr => ?_
  exact touches_iff_shares hs (start_lt_stop_of_mem_ignoredSpans hr)

/-- Beside a comment on either side, and around it. -/
example : [overlapsIgnored "a<!--x-->b".toList.toArray ⟨0, 1⟩,
    overlapsIgnored "a<!--x-->b".toList.toArray ⟨9, 10⟩,
    overlapsIgnored "a<!--x-->b".toList.toArray ⟨0, 10⟩] = [true, true, false] := by
  simp only [overlapsIgnored, ignoredSpans, ignored_eq, inline_eq]
  decide +kernel

end Region

namespace Lint

open Region

/-- A match of a rule counts if no ignored character stands at its ends, the rule is not off there,
and no raw block holds it. -/
theorem Document.counts_iff (text : List Char) (path rule : String) (s : Span) :
    (Document.ofText text path).counts (.text rule) s = true ↔
      (∀ i, atEdge s i → ¬IgnoredAt text.toArray i) ∧ ruleOff text.toArray rule.toList s = false ∧
        inRaw text.toArray s = false := by
  have hedges : (ignoredSpans text.toArray).any (touches s) = false ↔
      ∀ i, atEdge s i → ¬IgnoredAt text.toArray i := by
    rw [← Bool.not_eq_true, ← overlapsIgnored, overlapsIgnored_iff_edges]
    push Not
    exact ⟨fun h i hi hi' => h i hi' hi, fun h i hi hi' => h i hi' hi⟩
  rw [← hedges]
  simp [counts, ofText, ruleOff, inRaw, and_assoc]

end Lint

end TemplateTidy
