import TemplateTidy.Proofs.Pattern.Points

/-! # What a match can reach

`Node.Reach` says where a match of a pattern may end, with no regard to the order in which the
matcher tries its ways.  Every point that the matcher visits is reached (`reach_of_mem_points`), so
what holds of all reached points holds of every match: it moves forward (`Reach.pos_le`), stays in
the text (`Reach.le_size`), begins where it should (`Reach.start`), and touches no group that the
pattern does not set (`Reach.group?_eq`). -/

namespace TemplateTidy

/-! ### Iteration -/

/-- `n` rounds of a relation. -/
inductive Iter (R : Point → Point → Prop) : Nat → Point → Point → Prop
  | zero (p : Point) : Iter R 0 p p
  | succ {n : Nat} {p q r : Point} : R p q → Iter R n q r → Iter R (n + 1) p r

namespace Iter

variable {R S : Point → Point → Prop} {n : Nat} {p q : Point}

theorem mono (h : Iter R n p q) (hRS : ∀ p q, R p q → S p q) : Iter S n p q := by
  induction h with
  | zero p => exact .zero p
  | succ hpq _ ih => exact .succ (hRS _ _ hpq) ih

/-- A preorder that holds of each round holds of all of them. -/
theorem preorder (h : Iter R n p q) (refl : ∀ p, S p p) (trans : ∀ p q r, S p q → S q r → S p r)
    (hRS : ∀ p q, R p q → S p q) : S p q := by
  induction h with
  | zero p => exact refl p
  | succ hpq _ ih => exact trans _ _ _ (hRS _ _ hpq) ih

@[simp] theorem zero_iff : Iter R 0 p q ↔ q = p := by
  constructor
  · rintro ⟨⟩
    rfl
  · rintro rfl
    exact .zero q

theorem succ_iff : Iter R (n + 1) p q ↔ ∃ m, R p m ∧ Iter R n m q := by
  constructor
  · rintro ⟨⟩
    exact ⟨_, ‹_›, ‹_›⟩
  · rintro ⟨m, h1, h2⟩
    exact .succ h1 h2

end Iter

/-! ### Runs of steps -/

section runs

variable (step : Point → Option Point)

theorem nearest_eq_drop :
    ∀ (fuel due : Nat) (p : Point), nearest step fuel due p = (nearest step fuel 0 p).drop due
  | 0, due, p => by
      cases due <;> simp [nearest]
  | fuel + 1, 0, p => by simp
  | fuel + 1, due + 1, p => by
      simp only [nearest, Nat.add_eq_zero_iff, one_ne_zero, and_false, if_false, List.nil_append,
        Nat.add_sub_cancel, Nat.zero_sub, if_true, List.singleton_append, List.drop_succ_cons]
      cases step p with
      | none => simp
      | some q => exact nearest_eq_drop fuel due q

theorem chain_eq_reverse :
    ∀ (fuel : Nat) (p : Point) (acc : List Point),
      chain step fuel p acc = (nearest step fuel 0 p).reverse ++ acc
  | 0, p, acc => by simp [chain, nearest]
  | fuel + 1, p, acc => by
      simp only [chain, nearest, if_true, Nat.zero_sub, List.singleton_append]
      cases step p with
      | none => simp
      | some q =>
        simp only
        rw [chain_eq_reverse fuel q (p :: acc)]
        simp

/-- A greedy run tries the same points as a reluctant one, the other way round. -/
theorem runPoints_eq (scene : Scene) (least : Nat) (most : Option Nat)
    (reluctant : Bool) (p : Point) : runPoints scene step least most reluctant p =
      let near := (nearest step ((most.getD scene.text.size).min scene.text.size) 0 p).drop least
      if reluctant then near else near.reverse := by
  unfold runPoints
  cases reluctant with
  | true => simp only [if_true]; exact nearest_eq_drop step _ _ _
  | false =>
    simp only [Bool.false_eq_true, if_false]
    rw [chain_eq_reverse, List.append_nil, List.length_reverse, List.reverse_drop]

theorem iter_of_mem_nearest {step : Point → Option Point} {q : Point} :
    ∀ {fuel due : Nat} {p : Point}, q ∈ nearest step fuel due p →
      ∃ n, due ≤ n ∧ n ≤ fuel ∧ Iter (fun p q => step p = some q) n p q
  | 0, due, p, h => by
      by_cases hd : due = 0
      · simp only [nearest, hd, if_true, List.mem_singleton] at h
        exact ⟨0, by omega, by omega, by simpa using h⟩
      · simp [nearest, hd] at h
  | fuel + 1, due, p, h => by
      rw [nearest, List.mem_append] at h
      obtain h | h := h
      · by_cases hd : due = 0
        · simp only [hd, if_true, List.mem_singleton] at h
          exact ⟨0, by omega, by omega, by simpa using h⟩
        · simp [hd] at h
      · cases hs : step p with
        | none => simp [hs] at h
        | some m =>
          simp only [hs] at h
          obtain ⟨n, h1, h2, h3⟩ := iter_of_mem_nearest h
          exact ⟨n + 1, by omega, by omega, .succ hs h3⟩

theorem iter_of_mem_runPoints {step : Point → Option Point} {scene : Scene} {least : Nat}
    {most : Option Nat} {reluctant : Bool} {p q : Point}
    (h : q ∈ runPoints scene step least most reluctant p) :
    ∃ n, least ≤ n ∧ (∀ m ∈ most, n ≤ m) ∧ Iter (fun p q => step p = some q) n p q := by
  have h : q ∈ nearest step ((most.getD scene.text.size).min scene.text.size) least p := by
    rw [runPoints_eq] at h
    rw [nearest_eq_drop]
    cases reluctant <;> simpa using h
  obtain ⟨n, h1, h2, h3⟩ := iter_of_mem_nearest h
  refine ⟨n, h1, ?_, h3⟩
  rintro m rfl
  exact h2.trans (Nat.min_le_left _ _)

end runs

/-! ### Rounds -/

theorem exists_of_mem_gather {g : Point → List Place → List Point × List Place} {q : Point} :
    ∀ {ps : List Point} {seen : List Place}, q ∈ (gather g ps seen).1 →
      ∃ p ∈ ps, ∃ seen, q ∈ (g p seen).1
  | [], seen, h => by simp [gather] at h
  | p :: ps, seen, h => by
      rw [gather, List.mem_append] at h
      obtain h | h := h
      · exact ⟨p, by simp, seen, h⟩
      · obtain ⟨p', hp', seen', h'⟩ := exists_of_mem_gather h
        exact ⟨p', by simp [hp'], seen', h'⟩

theorem iter_of_mem_roundPoints {scene : Scene} {body : Point → List Point} {least : Nat}
    {most : Option Nat} {reluctant : Bool} {q : Point} :
    ∀ {fuel count : Nat} {p : Point} {seen : List Place},
      q ∈ (roundPoints scene body least most reluctant fuel count p seen).1 →
      ∃ n, (1 ≤ least → 1 ≤ count + n) ∧ (∀ m ∈ most, count ≤ m → count + n ≤ m) ∧
        Iter (fun p q => q ∈ body p) n p q
  | 0, count, p, seen, h => by simp [roundPoints] at h
  | fuel + 1, count, p, seen, h => by
      simp only [roundPoints] at h
      split at h
      · simp at h
      · -- the point is left, or one more round is made
        have hcases : (least ≤ count ∧ q = p) ∨ (most.all (count < ·) = true ∧ ∃ m ∈ body p,
            ∃ seen, q ∈ (if m.pos = p.pos then ([m], seen) else
              roundPoints scene body least most reluctant fuel (count + 1) m seen).1) := by
          have hleave : q ∈ (if least ≤ count then [p] else []) → least ≤ count ∧ q = p := by
            intro h
            by_cases hl : least ≤ count
            · exact ⟨hl, by simpa [hl] using h⟩
            · simp [hl] at h
          by_cases hm : most.all (count < ·) = true
          · simp only [hm, if_true] at h
            have hagain : q ∈ (gather (fun q seen => if q.pos = p.pos then ([q], seen) else
                roundPoints scene body least most reluctant fuel (count + 1) q seen) (body p)
                (placeOf scene least most count p :: seen)).1 → _ := exists_of_mem_gather
            cases reluctant with
            | true =>
              rw [if_pos rfl, List.mem_append] at h
              exact h.imp hleave fun h => ⟨hm, hagain h⟩
            | false =>
              rw [if_neg (by simp), List.mem_append] at h
              exact h.symm.imp hleave fun h => ⟨hm, hagain h⟩
          · simp only [hm, Bool.false_eq_true, if_false, List.append_nil, List.nil_append,
              ite_self] at h
            exact .inl (hleave h)
        obtain ⟨hl, rfl⟩ | ⟨hm, m, hbody, seen', h⟩ := hcases
        · exact ⟨0, by omega, by simp, .zero q⟩
        · have hmost : ∀ k ∈ most, count + 1 ≤ k := by
            rintro k rfl
            simpa using hm
          by_cases hpos : m.pos = p.pos
          · simp only [hpos, if_true, List.mem_singleton] at h
            subst h
            exact ⟨1, by omega, fun k hk _ => hmost k hk, .succ hbody (.zero q)⟩
          · simp only [hpos, if_false] at h
            obtain ⟨n, h1, h2, h3⟩ := iter_of_mem_roundPoints h
            refine ⟨n + 1, by omega, ?_, .succ hbody h3⟩
            intro k hk _
            have := h2 k hk (hmost k hk)
            omega

/-! ### Reaching -/

namespace Node

/-- A match of the pattern from `p` may end at `q`. -/
def Reach (scene : Scene) : Node → (back : Bool) → Point → Point → Prop
  | .empty, _, p, q => q = p
  | .fail, _, _, _ => False
  | .one cs, back, p, q => scene.stepOver back cs p = some q
  | .anchor a, _, p, q => scene.holdsAt a p.pos = true ∧ q = p
  | .seq a b, true, p, q => ∃ m, b.Reach scene true p m ∧ a.Reach scene true m q
  | .seq a b, false, p, q => ∃ m, a.Reach scene false p m ∧ b.Reach scene false m q
  | .alt a b, back, p, q => a.Reach scene back p q ∨ b.Reach scene back p q
  | .group i a, back, p, q =>
    ∃ m, a.Reach scene back p m ∧
      q = { m with groups := (i, if back then ⟨m.pos, p.pos⟩ else ⟨p.pos, m.pos⟩) :: m.groups }
  | .recall i folding, back, p, q =>
    ∃ held, p.group? i = some held ∧ scene.stepOverSpan back folding held p = some q
  | .rep a least most _, back, p, q =>
    ∃ n, (1 ≤ least → 1 ≤ n) ∧ (∀ m ∈ most, n ≤ m) ∧ Iter (a.Reach scene back) n p q
  | .look behind true a, _, p, q =>
    ∃ m, a.Reach scene behind p m ∧ q = { p with groups := m.groups }
  | .look behind false a, _, p, q => a.points scene behind p = [] ∧ q = p
  | .atomic a, back, p, q => a.Reach scene back p q
  | .keep, _, p, q => q = { p with start := p.pos }
  | .ifGroup i yes no, back, p, q =>
    if (p.group? i).isSome then yes.Reach scene back p q else no.Reach scene back p q

/-- The matcher visits only points that are reached. -/
theorem reach_of_mem_points {scene : Scene} {n : Node} :
    ∀ {back : Bool} {p q : Point}, q ∈ n.points scene back p → n.Reach scene back p q := by
  induction n with
  | empty => intro back p q h; simpa [points, Reach] using h
  | fail => intro back p q h; simp [points] at h
  | one cs => intro back p q h; simpa [points, Reach] using h
  | anchor a =>
    intro back p q h
    by_cases ha : scene.holdsAt a p.pos = true
    · simpa [points, Reach, ha] using h
    · simp [points, ha] at h
  | seq a b iha ihb =>
    intro back p q h
    cases back with
    | true =>
      simp only [points, if_true, List.mem_flatMap] at h
      obtain ⟨m, h1, h2⟩ := h
      exact ⟨m, ihb h1, iha h2⟩
    | false =>
      simp only [points, Bool.false_eq_true, if_false, List.mem_flatMap] at h
      obtain ⟨m, h1, h2⟩ := h
      exact ⟨m, iha h1, ihb h2⟩
  | alt a b iha ihb =>
    intro back p q h
    rw [points, List.mem_append] at h
    exact h.imp iha ihb
  | group i a ih =>
    intro back p q h
    rw [points, List.mem_map] at h
    obtain ⟨m, hm, rfl⟩ := h
    exact ⟨m, ih hm, rfl⟩
  | «recall» i folding =>
    intro back p q h
    rw [points, Option.mem_toList, Option.bind_eq_some_iff] at h
    exact h
  | rep a least most reluctant ih =>
    intro back p q h
    rw [points] at h
    split at h
    · obtain ⟨n, h1, h2, h3⟩ := iter_of_mem_runPoints h
      exact ⟨n, fun hl => hl.trans h1, h2, h3.mono fun p q h => ih (List.mem_of_head? h)⟩
    · obtain ⟨n, h1, h2, h3⟩ := iter_of_mem_roundPoints h
      refine ⟨n, by simpa using h1, ?_, h3.mono fun p q h => ih h⟩
      intro m hm
      simpa using h2 m hm (Nat.zero_le m)
  | look behind positive a ih =>
    intro back p q h
    rw [points] at h
    cases positive with
    | true =>
      cases hq : (a.points scene behind p).head? with
      | none => simp [hq] at h
      | some m =>
        simp only [hq, if_true, List.mem_singleton] at h
        exact ⟨m, ih (List.mem_of_head? hq), h⟩
    | false =>
      cases hq : (a.points scene behind p).head? with
      | none =>
        simp only [hq, Bool.false_eq_true, if_false, List.mem_singleton] at h
        exact ⟨List.head?_eq_none_iff.1 hq, h⟩
      | some m => simp [hq] at h
  | atomic a ih =>
    intro back p q h
    rw [points, Option.mem_toList] at h
    exact ih (List.mem_of_head? h)
  | keep => intro back p q h; simpa [points, Reach] using h
  | ifGroup i yes no ihy ihn =>
    intro back p q h
    rw [points] at h
    rw [Reach]
    split at h
    · rename_i hi
      rw [if_pos hi]
      exact ihy h
    · rename_i hi
      rw [if_neg hi]
      exact ihn h

end Node

/-! ### Where a match may go -/

namespace Scene

variable {scene : Scene} {cs : CharSet} {p q : Point}

theorem stepOver_forward :
    scene.stepOver false cs p = some q ↔
      ∃ c, scene.text[p.pos]? = some c ∧ cs.holds c = true ∧ q = { p with pos := p.pos + 1 } := by
  simp only [stepOver, Bool.false_eq_true, if_false]
  cases scene.text[p.pos]? with
  | none => simp
  | some c =>
    by_cases h : cs.holds c = true
    · simpa [h] using eq_comm
    · simp [h]

theorem stepOver_backward :
    scene.stepOver true cs p = some q ↔
      ∃ c, 0 < p.pos ∧ scene.text[p.pos - 1]? = some c ∧ cs.holds c = true ∧
        q = { p with pos := p.pos - 1 } := by
  simp only [stepOver, if_true]
  by_cases h0 : p.pos = 0
  · simp [h0]
  · simp only [h0, if_false]
    cases scene.text[p.pos - 1]? with
    | none => simp
    | some c =>
      by_cases h : cs.holds c = true
      · simpa [h, Nat.pos_of_ne_zero h0] using eq_comm
      · simp [h]

theorem le_size_of_agree {folding : Folding} :
    ∀ {n i j : Nat}, scene.agree folding i j n = true → n = 0 ∨ j + n ≤ scene.text.size
  | 0, i, j, _ => .inl rfl
  | n + 1, i, j, h => by
      rw [agree] at h
      split at h
      · rename_i a b ha hb
        rw [Bool.and_eq_true] at h
        have hj : j < scene.text.size := (Array.getElem?_eq_some_iff.1 hb).1
        have := le_size_of_agree h.2
        right
        omega
      · simp at h

end Scene

/-- What every way from `p` to `q` respects. -/
structure Moves (scene : Scene) (back : Bool) (p q : Point) : Prop where
  forward : back = false → p.pos ≤ q.pos
  backward : back = true → q.pos ≤ p.pos
  bound : p.pos ≤ scene.text.size → q.pos ≤ scene.text.size
  start : back = false → q.start = p.start ∨ (p.pos ≤ q.start ∧ q.start ≤ q.pos)

namespace Moves

variable {scene : Scene} {back : Bool} {p q r : Point}

theorem of_eq (hpos : q.pos = p.pos) (hstart : q.start = p.start) : Moves scene back p q :=
  ⟨by omega, by omega, by omega, fun _ => .inl hstart⟩

theorem trans (h : Moves scene back p q) (h' : Moves scene back q r) : Moves scene back p r where
  forward hb := (h.forward hb).trans (h'.forward hb)
  backward hb := (h'.backward hb).trans (h.backward hb)
  bound hp := h'.bound (h.bound hp)
  start hb := by
    have h1 := h.forward hb
    have h2 := h'.forward hb
    obtain h3 | h3 := h.start hb <;> obtain h4 | h4 := h'.start hb <;> omega

end Moves

namespace Node

/-- Every match keeps to the direction and to the text. -/
theorem Reach.moves {scene : Scene} {n : Node} :
    ∀ {back : Bool} {p q : Point}, n.Reach scene back p q → Moves scene back p q := by
  induction n with
  | empty => rintro back p q rfl; exact .of_eq rfl rfl
  | fail => rintro back p q ⟨⟩
  | one cs =>
    intro back p q h
    cases back with
    | true =>
      obtain ⟨c, h0, hc, -, rfl⟩ := Scene.stepOver_backward.1 h
      exact ⟨by simp, by simp, fun hp => (Nat.sub_le _ _).trans hp, by simp⟩
    | false =>
      obtain ⟨c, hc, -, rfl⟩ := Scene.stepOver_forward.1 h
      have hlt : p.pos < scene.text.size := (Array.getElem?_eq_some_iff.1 hc).1
      exact ⟨by simp, by simp, fun _ => hlt, by simp⟩
  | anchor a => rintro back p q ⟨-, rfl⟩; exact .of_eq rfl rfl
  | seq a b iha ihb =>
    intro back p q h
    cases back with
    | true =>
      obtain ⟨m, h1, h2⟩ := h
      exact (ihb h1).trans (iha h2)
    | false =>
      obtain ⟨m, h1, h2⟩ := h
      exact (iha h1).trans (ihb h2)
  | alt a b iha ihb => rintro back p q (h | h); exacts [iha h, ihb h]
  | group i a ih =>
    rintro back p q ⟨m, h, rfl⟩
    exact (ih h).trans (.of_eq rfl rfl)
  | «recall» i folding =>
    rintro back p q ⟨held, -, h⟩
    cases back with
    | true =>
      simp only [Scene.stepOverSpan, if_true] at h
      split at h
      · obtain rfl := Option.some.inj h
        exact ⟨by simp, by simp, fun hp => (Nat.sub_le _ _).trans hp, by simp⟩
      · simp at h
    | false =>
      simp only [Scene.stepOverSpan, Bool.false_eq_true, if_false] at h
      split at h
      · rename_i ha
        obtain rfl := Option.some.inj h
        have := Scene.le_size_of_agree ha
        exact ⟨by simp, by simp, by simp only; omega, by simp⟩
      · simp at h
  | rep a least most reluctant ih =>
    rintro back p q ⟨n, -, -, h⟩
    exact h.preorder (fun p => .of_eq rfl rfl) (fun p q r h h' => h.trans h') fun p q h => ih h
  | look behind positive a ih =>
    intro back p q h
    cases positive with
    | true => obtain ⟨m, -, rfl⟩ := h; exact .of_eq rfl rfl
    | false => obtain ⟨-, rfl⟩ := h; exact .of_eq rfl rfl
  | atomic a ih => intro back p q h; exact ih h
  | keep =>
    rintro back p q rfl
    exact ⟨by simp, by simp, by simp, by simp⟩
  | ifGroup i yes no ihy ihn =>
    intro back p q h
    rw [Reach] at h
    split at h
    · exact ihy h
    · exact ihn h

/-- The groups that a pattern may set. -/
def indices : Node → List Nat
  | .group i a => i :: a.indices
  | .seq a b | .alt a b | .ifGroup _ a b => a.indices ++ b.indices
  | .rep a .. | .look _ _ a | .atomic a => a.indices
  | _ => []

/-- A match leaves the other groups alone. -/
theorem Reach.group?_eq {scene : Scene} {n : Node} {i : Nat} :
    ∀ {back : Bool} {p q : Point}, n.Reach scene back p q → i ∉ n.indices →
      q.group? i = p.group? i := by
  induction n with
  | empty => rintro back p q rfl _; rfl
  | fail => rintro back p q ⟨⟩
  | one cs =>
    intro back p q h _
    cases back with
    | true => obtain ⟨c, -, -, -, rfl⟩ := Scene.stepOver_backward.1 h; rfl
    | false => obtain ⟨c, -, -, rfl⟩ := Scene.stepOver_forward.1 h; rfl
  | anchor a => rintro back p q ⟨-, rfl⟩ _; rfl
  | seq a b iha ihb =>
    intro back p q h hi
    simp only [indices, List.mem_append, not_or] at hi
    cases back with
    | true => obtain ⟨m, h1, h2⟩ := h; rw [iha h2 hi.1, ihb h1 hi.2]
    | false => obtain ⟨m, h1, h2⟩ := h; rw [ihb h2 hi.2, iha h1 hi.1]
  | alt a b iha ihb =>
    intro back p q h hi
    simp only [indices, List.mem_append, not_or] at hi
    obtain h | h := h
    · exact iha h hi.1
    · exact ihb h hi.2
  | group j a ih =>
    rintro back p q ⟨m, h, rfl⟩ hi
    simp only [indices, List.mem_cons, not_or] at hi
    rw [← ih h hi.2]
    have hij : (i == j) = false := by simpa using hi.1
    simp only [Point.group?, List.lookup_cons, hij]
  | «recall» j folding =>
    rintro back p q ⟨held, -, h⟩ _
    simp only [Scene.stepOverSpan] at h
    split at h
    all_goals
      split at h
      · obtain rfl := Option.some.inj h
        rfl
      · simp at h
  | rep a least most reluctant ih =>
    rintro back p q ⟨n, -, -, h⟩ hi
    exact h.preorder (S := fun p q => q.group? i = p.group? i) (fun p => rfl)
      (fun p q r h h' => h'.trans h) fun p q h => ih h hi
  | look behind positive a ih =>
    intro back p q h hi
    cases positive with
    | true => obtain ⟨m, h, rfl⟩ := h; exact (ih h hi :)
    | false => obtain ⟨-, rfl⟩ := h; rfl
  | atomic a ih => intro back p q h hi; exact ih h hi
  | keep => rintro back p q rfl _; rfl
  | ifGroup j yes no ihy ihn =>
    intro back p q h hi
    simp only [indices, List.mem_append, not_or] at hi
    rw [Reach] at h
    split at h
    · exact ihy h hi.1
    · exact ihn h hi.2

end Node

end TemplateTidy
