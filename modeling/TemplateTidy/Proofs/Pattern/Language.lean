import TemplateTidy.Proofs.Pattern.Reach

/-! # The texts of a pattern

`Node.Lang` says which texts a pattern can match, with no regard to what stands around them
(`Reach.lang`). -/

namespace TemplateTidy

/-! ### Pieces of a text -/

/-- The characters between two points. -/
def between (text : Array Char) (i j : Nat) : List Char :=
  Span.of ⟨i, j⟩ text

theorem between_eq (text : Array Char) (i j : Nat) :
    between text i j = (text.toList.drop i).take (j - i) := by
  simp [between, Span.of, List.extract_eq_take_drop]

@[simp] theorem between_self (text : Array Char) (i : Nat) : between text i i = [] := by
  simp [between_eq]

theorem between_append (text : Array Char) {i j k : Nat} (hij : i ≤ j) (hjk : j ≤ k) :
    between text i j ++ between text j k = between text i k := by
  rw [between_eq, between_eq, between_eq]
  have e : text.toList.drop j = (text.toList.drop i).drop (j - i) := by
    rw [List.drop_drop]
    congr 1
    omega
  rw [e, show k - i = (j - i) + (k - j) by omega, List.take_add]

theorem between_append_drop (text : Array Char) {i j : Nat} (hij : i ≤ j) :
    between text i j ++ text.toList.drop j = text.toList.drop i := by
  rw [between_eq]
  have e : text.toList.drop j = (text.toList.drop i).drop (j - i) := by
    rw [List.drop_drop]
    congr 1
    omega
  rw [e, List.take_append_drop]

theorem between_succ {text : Array Char} {i : Nat} {c : Char} (h : text[i]? = some c) :
    between text i (i + 1) = [c] := by
  obtain ⟨hi, hc⟩ := Array.getElem?_eq_some_iff.1 h
  rw [between_eq, Nat.add_sub_cancel_left, List.drop_eq_getElem_cons (by simpa using hi)]
  simpa using hc

/-! ### The language of a pattern -/

namespace Node

/-- The texts that a pattern can match. -/
def Lang : Node → List Char → Prop
  | .empty, w | .anchor _, w | .look .., w | .keep, w => w = []
  | .fail, _ => False
  | .one cs, w => ∃ c, w = [c] ∧ cs.holds c = true
  | .seq a b, w => ∃ u v, w = u ++ v ∧ a.Lang u ∧ b.Lang v
  | .alt a b, w | .ifGroup _ a b, w => a.Lang w ∨ b.Lang w
  | .group _ a, w | .atomic a, w => a.Lang w
  | .recall .., _ => True
  | .rep a least most _, w =>
    ∃ us : List (List Char), w = us.flatten ∧ (∀ u ∈ us, a.Lang u) ∧ (1 ≤ least → us ≠ []) ∧
      ∀ m ∈ most, us.length ≤ m

theorem exists_words_of_iter (text : Array Char) {R : Point → Point → Prop} {L : List Char → Prop}
    (hle : ∀ p q, R p q → p.pos ≤ q.pos) (hL : ∀ p q, R p q → L (between text p.pos q.pos)) :
    ∀ {n : Nat} {p q : Point}, Iter R n p q →
      p.pos ≤ q.pos ∧ ∃ us : List (List Char), us.length = n ∧ (∀ u ∈ us, L u) ∧
        between text p.pos q.pos = us.flatten := by
  intro n p q h
  induction h with
  | zero p => exact ⟨le_rfl, [], rfl, by simp, by simp⟩
  | @succ n p q r hpq _ ih =>
    obtain ⟨h1, us, h2, h3, h4⟩ := ih
    have hle := hle _ _ hpq
    refine ⟨hle.trans h1, between text p.pos q.pos :: us, by simp [h2], ?_, ?_⟩
    · simpa using ⟨hL _ _ hpq, h3⟩
    · rw [List.flatten_cons, ← h4, between_append text hle h1]

/-- What a match consumes is a text of the pattern. -/
theorem Reach.lang {scene : Scene} {n : Node} :
    ∀ {p q : Point}, n.Reach scene false p q → n.Lang (between scene.text p.pos q.pos) := by
  induction n with
  | empty => rintro p q rfl; simp [Lang]
  | fail => rintro p q ⟨⟩
  | one cs =>
    intro p q h
    obtain ⟨c, hc, hs, rfl⟩ := Scene.stepOver_forward.1 h
    exact ⟨c, between_succ hc, hs⟩
  | anchor a => rintro p q ⟨-, rfl⟩; simp [Lang]
  | seq a b iha ihb =>
    rintro p q ⟨m, h1, h2⟩
    exact ⟨_, _, (between_append scene.text (h1.moves.forward rfl) (h2.moves.forward rfl)).symm,
      iha h1, ihb h2⟩
  | alt a b iha ihb => rintro p q (h | h); exacts [.inl (iha h), .inr (ihb h)]
  | group i a ih => rintro p q ⟨m, h, rfl⟩; exact (ih h :)
  | «recall» i folding => intro p q _; trivial
  | rep a least most reluctant ih =>
    rintro p q ⟨n, h1, h2, h⟩
    obtain ⟨-, us, h3, h4, h5⟩ := exists_words_of_iter scene.text (L := a.Lang)
      (fun p q h => h.moves.forward rfl) (fun p q h => ih h) h
    refine ⟨us, h5, h4, ?_, fun m hm => by rw [h3]; exact h2 m hm⟩
    intro hl e
    have := h1 hl
    simp [e] at h3
    omega
  | look behind positive a ih =>
    intro p q h
    cases positive with
    | true => obtain ⟨m, -, rfl⟩ := h; simp [Lang]
    | false => obtain ⟨-, rfl⟩ := h; simp [Lang]
  | atomic a ih => intro p q h; exact ih h
  | keep => rintro p q rfl; simp [Lang]
  | ifGroup i yes no ihy ihn =>
    intro p q h
    rw [Reach] at h
    split at h
    · exact .inl (ihy h)
    · exact .inr (ihn h)

end Node

end TemplateTidy
