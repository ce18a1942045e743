import TemplateTidy.Proofs.Pattern.Words

/-! # What a match demands

A walk over the known beginning of a text tells nothing about what stands behind it.  `Node.demands`
lists what must stand there for a match to get through, as words of character sets
(`exists_fits_of_demands`).  So a pattern does not match where what it demands is refused, even if a
walk gets through (`Outlook.Holds.not_reach_of_refuses`). -/

namespace TemplateTidy

namespace Node

/-- Demands of rounds, for as long as they take something off the known text. -/
def roundDemands (f : (List Char → List (List CharSet)) → List Char → List (List CharSet))
    (k : List Char → List (List CharSet)) : (fuel : Nat) → List Char → List (List CharSet)
  | 0, u => k u ++ f (fun _ => [[]]) u
  | fuel + 1, u => k u ++ f (fun v => if v.length < u.length then roundDemands f k fuel v else [[]]) u

/-- What must stand behind the known text `u` for the pattern to match, where `k` tells what is
demanded from then on. -/
def demands : Node → (k : List Char → List (List CharSet)) → (u : List Char) → List (List CharSet)
  | .empty, k, u | .keep, k, u | .anchor _, k, u | .look .., k, u => k u
  | .fail, _, _ => []
  | .one cs, k, c :: u => if cs.holds c then k u else []
  | .one cs, k, [] => (k []).map (cs :: ·)
  | .seq a b, k, u => a.demands (b.demands k) u
  | .alt a b, k, u | .ifGroup _ a b, k, u => a.demands k u ++ b.demands k u
  | .group _ a, k, u | .atomic a, k, u => a.demands k u
  | .recall .., _, _ => [[]]
  | .rep a least _ _, k, u =>
    if least = 0 then roundDemands a.demands k u.length u
    else a.demands (fun v => roundDemands a.demands k v.length v) u

variable {scene : Scene}

/-- What is asked of what stands at a point, however much of it is known, is met by one of the
demands. -/
def Meets (scene : Scene) (k : List Char → List (List CharSet)) (q : Point) : Prop :=
  ∀ u t, scene.rest q = u ++ t → ∃ w ∈ k u, fits w t = true

theorem meets_anything (q : Point) : Meets scene (fun _ => [[]]) q :=
  fun _ _ _ => ⟨[], List.mem_singleton_self _, rfl⟩

theorem meets_roundDemands {R : Point → Point → Prop}
    {f : (List Char → List (List CharSet)) → List Char → List (List CharSet)}
    (hf : ∀ p q k, R p q → Meets scene k q → Meets scene (f k) p)
    {k : List Char → List (List CharSet)} {n : Nat}
    {p q : Point} (h : Iter R n p q) (hk : Meets scene k q) :
    ∀ {fuel : Nat} {u t : List Char}, scene.rest p = u ++ t → u.length ≤ fuel →
      ∃ w ∈ roundDemands f k fuel u, fits w t = true := by
  induction h with
  | zero p =>
    intro fuel u t hrest _
    obtain ⟨w, hw, hfits⟩ := hk u t hrest
    cases fuel <;> exact ⟨w, List.mem_append_left _ hw, hfits⟩
  | @succ n p m q hpm _ ih =>
    intro fuel u t hrest hfuel
    cases fuel with
    | zero =>
      obtain ⟨w, hw, hfits⟩ := hf p m _ hpm (meets_anything m) u t hrest
      exact ⟨w, List.mem_append_right _ hw, hfits⟩
    | succ fuel =>
      have hmeets : Meets scene (fun v =>
          if v.length < u.length then roundDemands f k fuel v else [[]]) m := by
        intro v r hv
        dsimp only
        split
        · exact ih hk hv (by omega)
        · exact ⟨[], List.mem_singleton_self _, rfl⟩
      obtain ⟨w, hw, hfits⟩ := hf p m _ hpm hmeets u t hrest
      exact ⟨w, List.mem_append_right _ hw, hfits⟩

/-- Before a match stands what the match demands and what is demanded behind it. -/
theorem meets_demands {n : Node} : ∀ {p q : Point} {k : List Char → List (List CharSet)},
    n.Reach scene false p q → Meets scene k q → Meets scene (n.demands k) p := by
  induction n with
  | empty | keep =>
    rintro p q k rfl hk
    exact hk
  | fail => rintro p q k ⟨⟩
  | anchor a =>
    rintro p q k ⟨-, rfl⟩ hk
    exact hk
  | look behind positive a _ =>
    intro p q k h hk u t hrest
    have hpos : q.pos = p.pos := by
      cases positive with
      | true => obtain ⟨m, -, rfl⟩ := h; rfl
      | false => obtain ⟨-, rfl⟩ := h; rfl
    exact hk u t ((scene.rest_eq_of_pos p hpos).trans hrest)
  | one cs =>
    intro p q k h hk u t hrest
    obtain ⟨c, r, hc, hholds, rfl⟩ := reach_one.1 h
    rw [hc] at hrest
    have hnext : scene.rest (p.move 1) = r := by rw [Scene.rest_move, hc]; rfl
    cases u with
    | nil =>
      -- the character stands behind the known text
      obtain rfl : c :: r = t := hrest
      obtain ⟨w, hw, hfits⟩ := hk [] r hnext
      refine ⟨cs :: w, List.mem_map_of_mem hw, ?_⟩
      rw [fits, hholds]
      exact hfits
    | cons d u =>
      obtain ⟨rfl, rfl⟩ := List.cons.inj hrest
      obtain ⟨w, hw, hfits⟩ := hk u t hnext
      exact ⟨w, by rwa [demands, if_pos hholds], hfits⟩
  | seq a b iha ihb =>
    rintro p q k ⟨m, h₁, h₂⟩ hk
    exact iha h₁ (ihb h₂ hk)
  | alt a b iha ihb =>
    rintro p q k (h | h) hk u t hrest
    · obtain ⟨w, hw, hfits⟩ := iha h hk u t hrest
      exact ⟨w, List.mem_append_left _ hw, hfits⟩
    · obtain ⟨w, hw, hfits⟩ := ihb h hk u t hrest
      exact ⟨w, List.mem_append_right _ hw, hfits⟩
  | ifGroup i a b iha ihb =>
    intro p q k h hk u t hrest
    rw [Reach] at h
    split at h
    · obtain ⟨w, hw, hfits⟩ := iha h hk u t hrest
      exact ⟨w, List.mem_append_left _ hw, hfits⟩
    · obtain ⟨w, hw, hfits⟩ := ihb h hk u t hrest
      exact ⟨w, List.mem_append_right _ hw, hfits⟩
  | group i a ih =>
    rintro p q k ⟨m, h, rfl⟩ hk
    exact ih h hk
  | atomic a ih =>
    intro p q k h hk
    exact ih h hk
  | «recall» =>
    intro p q k _ _ u t _
    exact ⟨[], List.mem_singleton_self _, rfl⟩
  | rep a least most reluctant ih =>
    rintro p q k ⟨n, hleast, -, hiter⟩ hk u t hrest
    have hround : ∀ p q k, a.Reach scene false p q → Meets scene k q →
        Meets scene (a.demands k) p :=
      fun p q k => ih
    rw [demands]
    split
    · exact meets_roundDemands hround hiter hk hrest le_rfl
    · obtain ⟨n, rfl⟩ : ∃ i, n = i + 1 := ⟨n - 1, by have := hleast (by omega); omega⟩
      obtain ⟨m, hm, hiter⟩ := Iter.succ_iff.1 hiter
      refine hround p m _ hm (fun v r hv => ?_) u t hrest
      exact meets_roundDemands hround hiter hk hv le_rfl

/-- A match over a known beginning finds one of its demands behind that. -/
theorem exists_fits_of_demands {n : Node} {p q : Point}
    (h : n.Reach scene false p q) {u t : List Char}
    (hrest : scene.rest p = u ++ t) : ∃ w ∈ n.demands (fun _ => [[]]) u, fits w t = true :=
  meets_demands h (meets_anything q) u t hrest

end Node

namespace Outlook

open Node

/-- Whether over each end of the known beginning no walk gets through, or only to demands that are
`refused`. -/
def refuses (o : Outlook) (refused : List CharSet → Bool) : Node → Bool
  | .alt a b => o.refuses refused a && o.refuses refused b
  | n => o.excludes n || o.start.tails.all fun u => (n.walk o.dead o.barred.contains u u).isEmpty ||
      !u.isEmpty && (n.demands (fun _ => [[]]) u).all refused

variable {o : Outlook} {refused : List CharSet → Bool} {beyond : List Char}

/-- A pattern whose demands are refused matches nowhere in the text, nor in an end of it. -/
theorem Holds.not_reach_of_refuses (h : o.Holds (o.start ++ beyond))
    (hrefused : ∀ w, refused w = true → fits w beyond ≠ true) {n : Node}
    (hn : o.refuses refused n = true) {scene : Scene}
    (hscene : scene.text.toList <:+ o.start ++ beyond) {p q : Point} :
    ¬n.Reach scene false p q := by
  have hsingle : ∀ n : Node, (o.excludes n || o.start.tails.all fun u =>
      (n.walk o.dead o.barred.contains u u).isEmpty ||
      !u.isEmpty && (n.demands (fun _ => [[]]) u).all refused) = true →
        ¬n.Reach scene false p q := by
    intro n hn hreach
    obtain hn | hn := Bool.or_eq_true_iff.1 hn
    · exact h.not_reach hn hscene hreach
    have hbar : ∀ n, o.barred.contains n = true → ∀ p q, ¬n.Reach scene false p q := fun n hn =>
      h.barred n (by simpa using hn) scene hscene
    have hsuffix : scene.rest p <:+ o.start ++ beyond := (List.drop_suffix _ _).trans hscene
    obtain ⟨x, hx⟩ := hsuffix
    obtain ⟨u, hu, hrest⟩ | ⟨u, hu, hrest⟩ := List.append_eq_append_iff.1 hx
    · have htail := List.all_eq_true.1 hn u ((List.mem_tails u _).2 ⟨x, hu.symm⟩)
      obtain hwalk | hdemands := Bool.or_eq_true_iff.1 htail
      · exact not_reach_of_walk (fun c hc cs => h.dead_eq_false hc) hbar hrest
          (List.isEmpty_iff.1 hwalk) hreach
      · obtain ⟨w, hw, hfits⟩ := exists_fits_of_demands hreach hrest
        exact hrefused w (List.all_eq_true.1 (Bool.and_eq_true_iff.1 hdemands).2 w hw) hfits
    · -- the match begins behind the known part, where a walk must tell
      have htail := List.all_eq_true.1 hn [] ((List.mem_tails [] _).2 List.nil_suffix)
      have hwalk : n.walk o.dead o.barred.contains [] [] = [] := by simpa using htail
      refine not_reach_of_walk (fun c hc cs => h.dead_eq_false ?_) hbar (u := []) rfl hwalk hreach
      rw [hrest]
      exact List.mem_append_right _ hc
  induction n with
  | alt a b iha ihb =>
    obtain ⟨ha, hb⟩ := Bool.and_eq_true_iff.1 hn
    exact fun hreach => hreach.elim (iha ha) (ihb hb)
  | _ => exact hsingle _ hn

end Outlook

end TemplateTidy
