import TemplateTidy.Proofs.Pattern.Search

/-! # Line feeds put into a text

`Fed a b` says that `b` is `a` with line feeds put in, at any places and in any number.  `Spread o c
a b` says where they stand: each right before the sign `o` or right after the sign `c`.  So what
holds no such sign inside stays in one piece (`Spread.keeps_piece`).  A replacement that spreads
each match spreads the text (`Pattern.replaceAll_spread`). -/

namespace TemplateTidy

namespace Text

/-- The second text is the first with line feeds put in. -/
inductive Fed : List Char → List Char → Prop
  | nil : Fed [] []
  | keep (x : Char) {a b : List Char} (h : Fed a b) : Fed (x :: a) (x :: b)
  | feed {a b : List Char} (h : Fed a b) : Fed a ('\n' :: b)

/-- The second text is the first with line feeds before some `o` and after some `c`. -/
inductive Spread (o c : Char) : List Char → List Char → Prop
  | nil : Spread o c [] []
  | keep (x : Char) {a b : List Char} (h : Spread o c a b) : Spread o c (x :: a) (x :: b)
  | before {a b : List Char} (h : Spread o c a b) : Spread o c (o :: a) ('\n' :: o :: b)
  | after {a b : List Char} (h : Spread o c a b) : Spread o c (c :: a) (c :: '\n' :: b)

namespace Fed

variable {a b d : List Char}

theorem trans (h : Fed a b) (h' : Fed b d) : Fed a d := by
  induction h' generalizing a with
  | nil => exact h
  | keep x _ ih =>
    cases h with
    | keep _ h => exact .keep x (ih h)
    | feed h => exact .feed (ih h)
  | feed _ ih => exact .feed (ih h)

/-- No other characters come in. -/
theorem mem_iff (h : Fed a b) {x : Char} (hx : x ≠ '\n') : x ∈ b ↔ x ∈ a := by
  induction h with
  | nil => rfl
  | keep y _ ih => rw [List.mem_cons, List.mem_cons, ih]
  | feed _ ih => rw [List.mem_cons, ih, or_iff_right hx]

end Fed

namespace Spread

variable {o c : Char} {a b a' b' u v w : List Char}

theorem refl : ∀ a : List Char, Spread o c a a
  | [] => .nil
  | x :: a => .keep x (refl a)

theorem append (h : Spread o c a b) (h' : Spread o c a' b') : Spread o c (a ++ a') (b ++ b') := by
  induction h with
  | nil => exact h'
  | keep x _ ih => exact .keep x ih
  | before _ ih => exact .before ih
  | after _ ih => exact .after ih

theorem fed (h : Spread o c a b) : Fed a b := by
  induction h with
  | nil => exact .nil
  | keep x _ ih => exact .keep x ih
  | before _ ih => exact .feed (.keep _ ih)
  | after _ ih => exact .keep _ (.feed ih)

/-- What holds neither of the signs is copied, if more follows it. -/
theorem exists_of_append (ho : o ∉ u) (hc : c ∉ u) (h : Spread o c (u ++ v) b) :
    ∃ b', b = u ++ b' ∧ Spread o c v b' := by
  induction u generalizing b with
  | nil => exact ⟨b, rfl, h⟩
  | cons x u ih =>
    rw [List.mem_cons, not_or] at ho hc
    cases h with
    | keep _ h =>
      obtain ⟨b', rfl, hb⟩ := ih ho.2 hc.2 h
      exact ⟨b', rfl, hb⟩
    | before h => exact absurd rfl ho.1
    | after h => exact absurd rfl hc.1

/-- A text with no `o` behind its first character and no `c` before its last one stays in one
piece. -/
theorem exists_of_append_of_ends (ho : o ∉ w.tail) (hc : c ∉ w.dropLast)
    (h : Spread o c (w ++ v) b) : ∃ u' v', b = u' ++ (w ++ v') := by
  obtain _ | ⟨x, w⟩ := w
  · exact ⟨[], b, rfl⟩
  · obtain rfl | ⟨w, y, rfl⟩ := w.eq_nil_or_concat'
    · cases h with
      | keep _ h => exact ⟨[], _, rfl⟩
      | before h => exact ⟨['\n'], _, rfl⟩
      | after h => exact ⟨[], _, rfl⟩
    · have hdrop : (x :: (w ++ [y])).dropLast = x :: w := by
        rw [← List.cons_append, List.dropLast_concat]
      rw [hdrop, List.mem_cons, not_or] at hc
      rw [List.tail_cons, List.mem_append, not_or] at ho
      -- the middle is copied, and so is the last character, with a line feed after it or without
      have hrest : ∀ {d}, Spread o c (w ++ [y] ++ v) d → ∃ v', d = w ++ [y] ++ v' := by
        intro d hd
        rw [List.append_assoc] at hd
        obtain ⟨d', rfl, hd'⟩ := exists_of_append ho.1 hc.2 hd
        cases hd' with
        | keep _ h => exact ⟨_, (List.append_assoc w [y] _).symm⟩
        | before h => simp at ho
        | after h => exact ⟨_, (List.append_assoc w [c] _).symm⟩
      cases h with
      | keep _ h =>
        obtain ⟨v', rfl⟩ := hrest h
        exact ⟨[], v', rfl⟩
      | before h =>
        obtain ⟨v', rfl⟩ := hrest h
        exact ⟨['\n'], v', rfl⟩
      | after h => exact absurd rfl hc.1

theorem keeps_piece (h : Spread o c a b) (hw : w <:+: a) (ho : o ∉ w.tail) (hc : c ∉ w.dropLast) :
    w <:+: b := by
  obtain ⟨u, v, rfl⟩ := hw
  rw [List.append_assoc] at h
  induction u generalizing b with
  | nil =>
    obtain ⟨u', v', rfl⟩ := h.exists_of_append_of_ends ho hc
    exact ⟨u', v', by simp⟩
  | cons x u ih =>
    cases h with
    | keep _ h => exact (ih h).trans (List.suffix_cons _ _).isInfix
    | before h | after h =>
      exact (ih h).trans ((List.suffix_cons _ _).trans (List.suffix_cons _ _)).isInfix

end Spread

end Text

open Text

variable {text : Array Char} {o c : Char}

theorem splice_spread : ∀ {pos : Nat} {images : List (Match × List Char)},
    Ordered text pos (images.map Prod.fst) → (∀ x ∈ images, Spread o c (x.1.text text) x.2) →
      Spread o c (text.toList.drop pos) (splice text pos images)
  | pos, [], _, _ => by
      rw [splice_nil]
      exact .refl _
  | pos, (m, image) :: images, ho, hf => by
      obtain ⟨h₁, h₂, h₃⟩ := ho
      rw [drop_eq_parts h₁ h₂, splice_cons]
      exact (Spread.refl _).append ((hf (m, image) (by simp)).append
        (splice_spread h₃ fun x hx => hf x (by simp [hx])))

namespace Pattern

variable {p : Pattern} {f : Match → List Char}

theorem rewriteFrom_spread {pos : Nat} {advance : Bool} (hpos : pos ≤ text.size)
    (hf : ∀ m ∈ p.found text pos advance, Spread o c (m.text text) (f m)) :
    Spread o c (text.toList.drop pos) (p.rewriteFrom f text pos advance) := by
  have hfst : ((p.found text pos advance).map fun m => (m, f m)).map Prod.fst =
      p.found text pos advance := by
    simp [List.map_map, Function.comp_def]
  exact splice_spread (by rw [hfst]; exact p.found_ordered text pos advance hpos)
    (by simpa using hf)

/-- A replacement that spreads each match spreads the text. -/
theorem replaceAll_spread (hf : ∀ m ∈ p.findAll text, Spread o c (m.text text) (f m)) :
    Spread o c text.toList (p.replaceAll f text) :=
  rewriteFrom_spread (Nat.zero_le _) hf

end Pattern

end TemplateTidy
