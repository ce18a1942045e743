import TemplateTidy.Proofs.Pattern.Sole
import TemplateTidy.Proofs.Pattern.Images

/-! # Rewriting piece by piece

A text is rewritten from left to right.  `rewriteFrom_piece` says what happens to a piece that is
the preferred match at its place, `rewriteFrom_split` that a text can be cut where no match crosses,
and `rewriteFrom_copy` what happens to characters that no match begins with.  For patterns of tags
these are all characters but the opening bracket (`StartsTag`). -/

namespace TemplateTidy

namespace Pattern

open Node

variable {P : Pattern} {f : Match → List Char} {text : Array Char} {u v r : List Char} {c : Char}

/-! ### Places in a text -/

theorem length_le_size (htext : text.toList = u ++ r) : u.length ≤ text.size := by
  rw [← Array.length_toList, htext]
  simp

theorem getElem?_length (htext : text.toList = u ++ c :: r) : text[u.length]? = some c := by
  rw [← Array.getElem?_toList, htext]
  simp

theorem rest_at (htext : text.toList = u ++ r) : (P.scene text 0).rest (.at u.length) = r := by
  show text.toList.drop u.length = _
  rw [htext, List.drop_left]

theorem between_of_append (htext : text.toList = u ++ (v ++ r)) :
    between text u.length (u ++ v).length = v := by
  rw [between_eq, htext, List.drop_left, List.length_append, Nat.add_sub_cancel_left,
    List.take_left]

/-- What a group holds whose ends are known. -/
theorem capture_group {q : Point} {i : Nat} (htext : text.toList = u ++ (v ++ r))
    (h : q.group? i = some ⟨u.length, u.length + v.length⟩) :
    (Match.ofPoint q).capture text i = v := by
  have hgroup : (Match.ofPoint q).group? i = some ⟨u.length, u.length + v.length⟩ := h
  rw [Match.capture, Match.capture?, hgroup, ← List.length_append]
  exact between_of_append htext

/-! ### Matches -/

section rewriting

variable (hP : P.node.originFree = true)
include hP

theorem rewriteFrom_first {pos : Nat} {q : Point} (hpos : pos ≤ text.size)
    (hq : P.node.First (P.scene text 0) (.at pos) q) :
    P.rewriteFrom f text pos false =
      between text pos q.start ++ f (.ofPoint q) ++ P.rewriteFrom f text q.pos
        (q.start == q.pos) := by
  refine rewriteFrom_match hP hpos ?_
  obtain ⟨l, hl⟩ := List.head?_eq_some_iff.1 hq
  rw [pointsAt, hl]
  rfl

/-- A piece that is the preferred match at its place is replaced by its image. -/
theorem rewriteFrom_piece {q : Point} (htext : text.toList = u ++ (v ++ r))
    (hq : P.node.First (P.scene text 0) (.at u.length) q) (hstart : q.start = u.length)
    (hpos : q.pos = (u ++ v).length) :
    P.rewriteFrom f text u.length false =
      f (.ofPoint q) ++ P.rewriteFrom f text (u ++ v).length v.isEmpty := by
  have hempty : (u.length == (u ++ v).length) = v.isEmpty := by
    rw [Bool.eq_iff_iff, beq_iff_eq, List.isEmpty_iff, ← List.length_eq_zero_iff,
      List.length_append]
    omega
  rw [rewriteFrom_first hP (length_le_size htext) hq, hstart, hpos, between_self, hempty,
    List.nil_append]

end rewriting

/-- A text is rewritten up to a place that no match crosses and from there on; up to there it is
copied if each match is.  A match may end at the place, if it takes something. -/
theorem rewriteFrom_cut {n : Nat} (hP : P.node.originFree = true) (hn : n ≤ text.size)
    (hstay : ∀ i < n, ∀ q ∈ P.pointsAt text i, q.pos ≤ n ∧ (q.start = q.pos → q.pos < n))
    (pos : Nat) (advance : Bool) (hpos : pos ≤ n) (hadvance : advance = true → pos < n) :
    ∃ a, P.rewriteFrom f text pos advance = a ++ P.rewriteFrom f text n false ∧
      ((∀ i, pos ≤ i → i < n → ∀ q ∈ P.pointsAt text i,
        f (.ofPoint q) = between text q.start q.pos) → a = between text pos n) := by
  obtain rfl | hlt := hpos.eq_or_lt
  · obtain rfl : advance = false := by simpa using hadvance
    exact ⟨[], rfl, by simp⟩
  cases hfind : (P.pointsAt text pos).find? (fun q => !(advance && q.pos == pos)) with
  | none =>
    obtain ⟨c, hc⟩ : ∃ c, text[pos]? = some c := ⟨_, Array.getElem?_eq_getElem (hlt.trans_le hn)⟩
    have hno : ∀ q ∈ P.pointsAt text pos, advance = true ∧ q.pos = pos := by
      simpa using List.find?_eq_none.1 hfind
    obtain ⟨a, ha, hcopy⟩ := rewriteFrom_cut hP hn hstay (pos + 1) false hlt (by simp)
    refine ⟨c :: a, by rw [rewriteFrom_skip hP hc hno, ha]; rfl, fun h => ?_⟩
    rw [hcopy fun i hi => h i (by omega), ← between_append text (Nat.le_succ pos) hlt,
      between_succ hc]
    rfl
  | some q =>
    have hq := List.mem_of_find?_eq_some hfind
    obtain ⟨hle, hstart, -⟩ := bounds_of_reach (reach_of_mem_points hq)
    obtain ⟨hqn, hqlt⟩ := hstay pos hlt q hq
    have hdecrease : q.pos = pos → advance = false ∧ (q.start == q.pos) = true := by
      intro he
      have hfound := List.find?_some hfind
      refine ⟨by simpa [he] using hfound, beq_iff_eq.2 (by omega)⟩
    obtain ⟨a, ha, hcopy⟩ := rewriteFrom_cut hP hn hstay q.pos (q.start == q.pos) hqn fun h =>
      hqlt (beq_iff_eq.1 h)
    refine ⟨between text pos q.start ++ f (.ofPoint q) ++ a, ?_, fun h => ?_⟩
    · rw [rewriteFrom_match hP (hpos.trans hn) hfind, ha, List.append_assoc _ a]
    · rw [hcopy fun i hi => h i (by omega), h pos le_rfl hlt q hq, between_append text hle hstart,
        between_append text (hle.trans hstart) hqn]
termination_by 2 * (n - pos) + if advance then 0 else 1
decreasing_by
  · show 2 * (n - (pos + 1)) + 1 < 2 * (n - pos) + if advance = true then 0 else 1
    omega
  · show (2 * (n - q.pos) + if (q.start == q.pos) = true then 0 else 1) < 2 * (n - pos) +
      if advance = true then 0 else 1
    by_cases he : q.pos = pos
    · obtain ⟨hfirst, hempty⟩ := hdecrease he
      rw [hfirst, hempty, he]
      simp
    · split <;> omega

/-- The same where no match ends at the place. -/
theorem rewriteFrom_split {n : Nat} (hP : P.node.originFree = true) (hn : n ≤ text.size)
    (hstay : ∀ i < n, ∀ q ∈ P.pointsAt text i, q.pos < n) (pos : Nat)
    (advance : Bool) (hpos : pos ≤ n) (hadvance : advance = true → pos < n) :
    ∃ a, P.rewriteFrom f text pos advance = a ++ P.rewriteFrom f text n false ∧
      ((∀ i, pos ≤ i → ∀ q ∈ P.pointsAt text i, q.pos < n →
        f (.ofPoint q) = between text q.start q.pos) → a = between text pos n) := by
  obtain ⟨a, ha, hcopy⟩ := rewriteFrom_cut (f := f) hP hn
    (fun i hi q hq => ⟨(hstay i hi q hq).le, fun _ => hstay i hi q hq⟩) pos advance hpos hadvance
  exact ⟨a, ha, fun h => hcopy fun i hi hlt q hq => h i hi q hq (hstay i hlt q hq)⟩

/-! ### Patterns of tags -/

/-- A pattern that takes a character, and an opening bracket first. -/
structure StartsTag (P : Pattern) : Prop where
  originFree : P.node.originFree = true
  solid : P.node.solid = true
  begins : P.node.begins (· == '<') = true

namespace StartsTag

theorem of_check {n : Node} (hn : P.node = n)
    (h : (n.originFree && n.solid && n.begins (· == '<')) = true) : P.StartsTag := by
  simp only [Bool.and_eq_true, ← hn] at h
  exact ⟨h.1.1, h.1.2, h.2⟩

variable (hP : P.StartsTag)
include hP

/-- At the end nothing is left. -/
theorem rewriteFrom_stop (htext : text.toList = u) : P.rewriteFrom f text u.length false = [] := by
  rw [← htext, Array.length_toList]
  refine rewriteFrom_end hP.originFree fun q hq => ?_
  have hreach := reach_of_mem_points hq
  have hlt : text.size < q.pos := lt_of_solid hP.solid hreach
  have hle : q.pos ≤ text.size := hreach.moves.bound (le_refl text.size)
  omega

/-- What holds no opening bracket is copied. -/
theorem rewriteFrom_copy : ∀ {u v r : List Char}, text.toList = u ++ (v ++ r) → '<' ∉ v →
    P.rewriteFrom f text u.length false = v ++ P.rewriteFrom f text (u ++ v).length false
  | u, [], r, _, _ => by simp
  | u, c :: v, r, htext, hv => by
      have hnone : ∀ q ∈ P.pointsAt text u.length, false = true ∧ q.pos = u.length := by
        intro q hq
        refine absurd (reach_of_mem_points hq) (not_reach_of_begins _ hP.solid hP.begins
          fun d hd => ?_)
        rw [rest_at htext] at hd
        obtain rfl : c = d := by simpa using hd
        rw [beq_eq_false_iff_ne]
        rintro rfl
        simp at hv
      have hnext : P.rewriteFrom f text (u ++ [c]).length false =
          v ++ P.rewriteFrom f text (u ++ [c] ++ v).length false :=
        rewriteFrom_copy (r := r) (by simp [htext]) fun h => hv (by simp [h])
      rw [rewriteFrom_skip hP.originFree (getElem?_length htext) hnone,
        show u.length + 1 = (u ++ [c]).length by simp, hnext]
      simp

/-- A tag where no match begins is copied. -/
theorem rewriteFrom_copy_tag (htext : text.toList = u ++ ('<' :: v ++ r)) (hv : '<' ∉ v)
    (hnone : P.pointsAt text u.length = []) :
    P.rewriteFrom f text u.length false = '<' :: v ++ P.rewriteFrom f text
      (u ++ '<' :: v).length false := by
  have hnext : P.rewriteFrom f text (u ++ ['<']).length false =
      v ++ P.rewriteFrom f text (u ++ ['<'] ++ v).length false :=
    hP.rewriteFrom_copy (r := r) (by simp [htext]) hv
  rw [rewriteFrom_skip hP.originFree (getElem?_length htext) (by simp [hnone]),
    show u.length + 1 = (u ++ ['<']).length by simp, hnext]
  simp

end StartsTag

/-! ### Images and absent matches -/

theorem replaceAll_congr {g : Match → List Char} (h : ∀ m ∈ P.findAll text, f m = g m) :
    P.replaceAll f text = P.replaceAll g text := by
  unfold replaceAll
  rw [List.map_congr_left fun m hm => by rw [h m hm]]

end Pattern

end TemplateTidy
