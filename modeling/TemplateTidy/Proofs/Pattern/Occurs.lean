import TemplateTidy.Proofs.Pattern.First
import TemplateTidy.Proofs.Pattern.Walk
import TemplateTidy.Proofs.Text.Case

/-! # Where a pattern occurs

An `Outlook` is what is known of a text.  A pattern does not occur in the text if it is hopeless, or
if no walk over an end of the known beginning gets through (`occurs_eq_false_of_excludes`), and it
does occur if there is a way through the known beginning that nothing can bar (`occurs_of_sure`).
Both conditions are computed. -/

namespace TemplateTidy

/-! ### Absence -/

/-- What is known of a text: its beginning, characters that do not stand behind that, and sequences
that match nowhere in the text. -/
structure Outlook where
  start : List Char := []
  missing : List Char := []
  barred : List Node := []

namespace Outlook

/-- Whether a set holds missing characters only. -/
def dead (o : Outlook) (cs : CharSet) : Bool :=
  cs.onlyOf o.missing.contains

/-- The text is as the outlook says. -/
structure Holds (o : Outlook) (text : List Char) : Prop where
  begins : ∃ beyond, text = o.start ++ beyond ∧ ∀ c ∈ o.missing, c ∉ beyond
  barred : ∀ n ∈ o.barred, ∀ scene : Scene, scene.text.toList <:+ text → ∀ p q,
    ¬n.Reach scene false p q

/-- Whether a set holds only characters that stand nowhere in the text. -/
def lacks (o : Outlook) (cs : CharSet) : Bool :=
  cs.onlyOf fun c => o.missing.contains c && !o.start.contains c

/-- Whether the pattern is hopeless, or no walk over an end of the known beginning gets through
it. -/
def excludes (o : Outlook) (n : Node) : Bool :=
  n.hopeless o.lacks o.barred.contains ||
    o.start.tails.all fun u => (n.walk o.dead o.barred.contains u u).isEmpty

variable {o : Outlook} {text : List Char}

theorem Holds.dead_eq_false {beyond : List Char} (h : o.Holds (o.start ++ beyond))
    {c : Char} (hc : c ∈ beyond)
    {cs : CharSet} (hholds : cs.holds c = true) : o.dead cs = false := by
  obtain ⟨r, hr, hmissing⟩ := h.begins
  obtain rfl := List.append_cancel_left hr
  by_contra hdead
  have hbad := CharSet.holds_onlyOf (by simpa [dead] using hdead) hholds
  exact hmissing c (by simpa using hbad) hc

theorem Holds.not_reach (h : o.Holds text) {n : Node} (hn : o.excludes n = true) {scene : Scene}
    (hscene : scene.text.toList <:+ text) {p q : Point} : ¬n.Reach scene false p q := by
  obtain ⟨beyond, htext, hmissing⟩ := h.begins
  have hd : ∀ c ∈ beyond, ∀ cs : CharSet, cs.holds c = true → o.dead cs = false :=
    fun c hc cs => (htext ▸ h).dead_eq_false hc
  have hbar : ∀ n, o.barred.contains n = true → ∀ p q, ¬n.Reach scene false p q := fun n hn =>
    h.barred n (by simpa using hn) scene hscene
  obtain hn | hn := Bool.or_eq_true_iff.1 hn
  · refine Node.not_reach_of_hopeless (fun c hc cs hholds => ?_) hbar hn
    by_contra hlack
    have hbad := CharSet.holds_onlyOf (Bool.not_eq_false _ ▸ hlack : o.lacks cs = true) hholds
    obtain ⟨hbad, hstart⟩ : c ∈ o.missing ∧ c ∉ o.start := by simpa using hbad
    have hmem := hscene.subset hc
    rw [htext] at hmem
    exact (List.mem_append.1 hmem).elim hstart (hmissing c hbad)
  have hempty : ∀ u, u <:+ o.start → n.walk o.dead o.barred.contains u u = [] := fun u hu =>
    List.isEmpty_iff.1 (List.all_eq_true.1 hn u ((List.mem_tails u _).2 hu))
  have hdrop : scene.text.toList.drop p.pos <:+ o.start ++ beyond :=
    htext ▸ (List.drop_suffix _ _).trans hscene
  obtain ⟨x, hx⟩ := hdrop
  obtain ⟨u, h₁, h₂⟩ | ⟨u, h₁, h₂⟩ := List.append_eq_append_iff.1 hx
  · exact Node.not_reach_of_walk hd hbar h₂ (hempty u ⟨x, h₁.symm⟩)
  · -- the match begins beyond the known part
    refine Node.not_reach_of_walk (fun c hc => hd c ?_) hbar (u := [])
      rfl (hempty [] List.nil_suffix)
    rw [h₂]
    exact List.mem_append_right _ hc

end Outlook

namespace Pattern

variable {p : Pattern} {text : Array Char}

theorem occurs_eq_false
    (h : ∀ scene : Scene, scene.text = text → ∀ i q, i ≤ text.size →
      ¬p.node.Reach scene false (.at i) q) :
    p.occurs text = false := by
  unfold occurs find?
  cases hm : p.findFrom? text 0 false with
  | none => rfl
  | some m =>
    obtain ⟨i, q, -, hi, hq, -⟩ := exists_reach_of_findFrom? hm
    exact absurd hq (h _ rfl i q hi)

section absence

variable {o : Outlook} {whole : List Char} (h : o.Holds whole) (hp : o.excludes p.node = true)
  (htext : text.toList <:+ whole)
include h hp htext

theorem occurs_eq_false_of_excludes : p.occurs text = false :=
  occurs_eq_false fun _ hs _ _ _ => h.not_reach hp (hs ▸ htext)

theorem findAll_eq_nil_of_excludes : p.findAll text = [] :=
  findAll_eq_nil fun _ hs _ _ _ => h.not_reach hp (hs ▸ htext)

end absence

/-! ### Presence -/

theorem scan_isSome {scene : Scene} {i : Nat} (h : (p.matchFrom? scene (fun _ => true) i).isSome) :
    ∀ {fuel pos : Nat}, pos ≤ i → i < pos + fuel → (p.scan scene (fun _ => true) fuel pos).isSome
  | 0, _, h₁, h₂ => by omega
  | fuel + 1, pos, h₁, h₂ => by
      rw [scan]
      cases hm : p.matchFrom? scene (fun _ => true) pos with
      | some m => rfl
      | none =>
        have hne : pos ≠ i := by
          rintro rfl
          simp [hm] at h
        exact scan_isSome h (by omega) (by omega)

/-- A pattern occurs where a match of it has an end. -/
theorem occurs_of_mem_points {i : Nat} (hi : i ≤ text.size) {q : Point}
    (h : q ∈ p.node.points (p.scene text 0) false (.at i)) : p.occurs text = true := by
  refine scan_isSome (i := i) ?_ (Nat.zero_le i) (by omega)
  rw [matchFrom?_eq_find?, Option.isSome_map, List.find?_isSome]
  exact ⟨q, h, by simp⟩

end Pattern

namespace Node

theorem runLength_le (cs : CharSet) (u : List Char) : runLength cs u ≤ u.length :=
  (List.takeWhile_prefix _).length_le

theorem runLength_le_append (cs : CharSet) (u v : List Char) :
    runLength cs u ≤ runLength cs (u ++ v) := by
  induction u with
  | nil => exact Nat.zero_le _
  | cons c u ih =>
    by_cases hc : cs.holds c = true
    · simpa [runLength, hc] using ih
    · simp [runLength, hc]

theorem move_mem_points_run {scene : Scene} {p : Point} {cs : CharSet} {most : Option Nat}
    {reluctant : Bool}
    {i : Nat} (hi : i ≤ runLength cs (scene.rest p)) (hmost : ∀ m ∈ most, i ≤ m) :
    p.move i ∈ (Node.rep (.one cs) 0 most reluctant).points scene false p := by
  have hsize : runLength cs (scene.rest p) ≤ scene.text.size :=
    (runLength_le cs _).trans (scene.length_rest_le p)
  have hmin : i ≤ most.getD scene.text.size := by
    cases most with
    | none => exact hi.trans hsize
    | some m => exact hmost m rfl
  have hmem : p.move i ∈
      (List.range (min (most.getD scene.text.size) (runLength cs (scene.rest p)) + 1)).map p.move :=
    List.mem_map_of_mem (List.mem_range.2 (by omega))
  rw [points_run]
  cases reluctant with
  | true => simpa using hmem
  | false => simpa using hmem

/-- What is certainly left after a run of at most `most` characters of a set. -/
def sureRun (most : Option Nat) : Node → List Char → List (List Char)
  | .one cs, u => ((List.range (runLength cs u + 1)).filter fun i => most.all (i ≤ ·)).map u.drop
  | _, _ => []

/-- What is certainly left of the end `u` of the known beginning `w` of a text after some match of
the pattern, whatever stands behind. -/
def sure (w : List Char) : Node → List Char → List (List Char)
  | .empty, u => [u]
  | .one cs, c :: u => if cs.holds c then [u] else []
  | .anchor .lineStart, u => if u.length = w.length then [u] else []
  | .anchor (.wordEdge ascii positive), u => if edgeIn ascii w u = some positive then [u] else []
  | .seq a b, u => (a.sure w u).flatMap (b.sure w)
  | .alt a b, u => a.sure w u ++ b.sure w u
  | .group _ a, u => a.sure w u
  | .rep a least most _, u => if least = 0 then a.sureRun most u else []
  | .look false false a, u => if (a.walkOver u).isEmpty then [u] else []
  | _, _ => []

/-- A way through the known beginning is a way of the matcher. -/
theorem exists_mem_points_of_sure {w beyond : List Char} {scene : Scene}
    (htext : scene.text.toList = w ++ beyond) {n : Node} :
    ∀ {u u' : List Char} {p : Point}, p.pos ≤ w.length → u = w.drop p.pos → u' ∈ n.sure w u →
      ∃ q ∈ n.points scene false p, q.pos ≤ w.length ∧ u' = w.drop q.pos := by
  have hrest : ∀ {p : Point}, p.pos ≤ w.length → scene.rest p = w.drop p.pos ++ beyond := by
    intro p hp
    rw [Scene.rest, htext, List.drop_append_of_le_length hp]
  have hstart : scene.text.toList.drop 0 = w ++ beyond := htext
  induction n with
  | empty =>
    intro u u' p hp hu h
    rw [sure, List.mem_singleton] at h
    exact ⟨p, by simp [points], hp, by rw [h, hu]⟩
  | one cs =>
    intro u u' p hp hu h
    cases u with
    | nil => simp [sure] at h
    | cons c u =>
      have hlt : p.pos < w.length := by
        by_contra hge
        rw [List.drop_eq_nil_of_le (by omega)] at hu
        cases hu
      by_cases hc : cs.holds c = true
      · obtain rfl : u' = u := by simpa [sure, hc] using h
        refine ⟨p.move 1, ?_, hlt, ?_⟩
        · have hr : scene.rest p = c :: (u' ++ beyond) := by rw [hrest hp, ← hu]; rfl
          rw [points_one_of_holds hr hc]
          exact List.mem_singleton_self _
        · rw [Point.move_pos, ← List.drop_drop, ← hu]
          rfl
      · simp [sure, hc] at h
  | anchor a =>
    intro u u' p hp hu h
    cases a with
    | lineStart =>
      by_cases hl : u.length = w.length
      · obtain rfl : u' = u := by simpa [sure, hl] using h
        have hpos : p.pos = 0 ∨ w = [] := by
          rw [hu, List.length_drop] at hl
          cases w with
          | nil => exact .inr rfl
          | cons c w =>
            simp only [List.length_cons] at hl hp
            omega
        have hzero : p.pos = 0 := by
          obtain h | h := hpos
          · exact h
          · rw [h] at hp
            simpa using hp
        refine ⟨p, ?_, hp, hu⟩
        rw [points_anchor_of_holds (by simp [Scene.holdsAt, hzero])]
        exact List.mem_singleton_self p
      · simp [sure, hl] at h
    | wordEdge ascii positive =>
      by_cases he : edgeIn ascii w u = some positive
      · obtain rfl : u' = u := by simpa [sure, he] using h
        have hleft : edgeIn ascii w (left w 0 p) = some positive := by
          rw [← he, hu]
          rfl
        have hat : scene.holdsAt (.wordEdge ascii positive) p.pos = true := by
          rw [holdsAt_of_edgeIn hstart (Nat.zero_le _) hleft, beq_self_eq_true]
        exact ⟨p, by simp [points_anchor_of_holds hat], hp, hu⟩
      · simp [sure, he] at h
    | _ => simp [sure] at h
  | seq a b iha ihb =>
    intro u u' p hp hu h
    rw [sure, List.mem_flatMap] at h
    obtain ⟨v, hv, hu'⟩ := h
    obtain ⟨m, hm, hml, hvm⟩ := iha hp hu hv
    obtain ⟨q, hq, hql, hqu⟩ := ihb hml hvm hu'
    refine ⟨q, ?_, hql, hqu⟩
    rw [points_seq, List.mem_flatMap]
    exact ⟨m, hm, hq⟩
  | alt a b iha ihb =>
    intro u u' p hp hu h
    rw [sure, List.mem_append] at h
    obtain h | h := h
    · obtain ⟨q, hq, hrest⟩ := iha hp hu h
      exact ⟨q, by rw [points]; exact List.mem_append_left _ hq, hrest⟩
    · obtain ⟨q, hq, hrest⟩ := ihb hp hu h
      exact ⟨q, by rw [points]; exact List.mem_append_right _ hq, hrest⟩
  | group i a ih =>
    intro u u' p hp hu h
    obtain ⟨q, hq, hql, hqu⟩ := ih hp hu h
    refine ⟨{ q with groups := (i, ⟨p.pos, q.pos⟩) :: q.groups }, ?_, hql, hqu⟩
    rw [points_group]
    exact List.mem_map_of_mem hq
  | rep a least most reluctant ih =>
    intro u u' p hp hu h
    by_cases hleast : least = 0
    · subst hleast
      cases a with
      | one cs =>
        simp only [sure, if_true, sureRun, List.mem_map, List.mem_filter, List.mem_range,
          Nat.lt_succ_iff] at h
        obtain ⟨i, ⟨hi, hmost⟩, rfl⟩ := h
        have hle := hi.trans (runLength_le cs u)
        have hlen : u.length = w.length - p.pos := by rw [hu, List.length_drop]
        refine ⟨p.move i, move_mem_points_run ?_ ?_, ?_, ?_⟩
        · rw [hrest hp, ← hu]
          exact hi.trans (runLength_le_append cs u beyond)
        · intro m hm
          rw [Option.mem_def.1 hm] at hmost
          simpa using hmost
        · rw [Point.move_pos]
          omega
        · rw [Point.move_pos, ← List.drop_drop, ← hu]
      | _ => simp [sure, sureRun] at h
    · simp [sure, hleast] at h
  | look behind positive a ih =>
    intro u u' p hp hu h
    cases behind <;> cases positive <;> simp only [sure, List.not_mem_nil] at h
    by_cases hw : a.walkOver u = []
    · obtain rfl : u' = u := by simpa [hw] using h
      have hnone : a.points scene false p = [] := by
        refine List.eq_nil_iff_forall_not_mem.2 fun q hq => ?_
        refine not_reach_of_walkOver u' beyond ?_ hw (reach_of_mem_points hq)
        rw [hu]
        exact hrest hp
      exact ⟨p, by simp [points, hnone], hp, hu⟩
    · simp [hw] at h
  | _ => intro u u' p hp hu h; simp [sure] at h

end Node

/-- A pattern occurs in a text if there is a way through its known beginning. -/
theorem Pattern.occurs_of_sure {p : Pattern} {text : Array Char} (w beyond : List Char)
    (htext : text.toList = w ++ beyond) (h : (p.node.sure w w).isEmpty = false) :
    p.occurs text = true := by
  obtain ⟨u, hu⟩ := List.exists_mem_of_ne_nil _ (List.isEmpty_eq_false_iff.1 h)
  have hscene : (p.scene text 0).text.toList = w ++ beyond := htext
  obtain ⟨q, hq, -⟩ := Node.exists_mem_points_of_sure (p := .at 0) hscene (Nat.zero_le _) rfl hu
  exact occurs_of_mem_points (Nat.zero_le _) hq

end TemplateTidy
