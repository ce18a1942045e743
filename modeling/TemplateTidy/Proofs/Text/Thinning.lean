import Mathlib.Data.List.Basic
import TemplateTidy.Text.Blank

/-! # Blanks left out of a text

`Thinned behind ahead before text result` says that `result` is `text` with blanks left out.
Wherever some are left out, what stands right before them is `behind`, or what stands right after
them is `ahead`.  Leaving blanks out twice is leaving them out once (`Thinned.trans`), if the first
time does not break the signs that the second time looks for. -/

namespace TemplateTidy.Text

/-- The second text is the first, which follows `before`, with blanks left out.  Before each
character that stays there may be a gap, whose place is told by the text on either side of it. -/
inductive Thinned (behind ahead : List Char → Prop) : (before text result : List Char) → Prop
  | nil (before : List Char) : Thinned behind ahead before [] []
  | cons {before gap rest result : List Char} {c : Char} (hblank : ∀ d ∈ gap, isSpace d = true)
      (hplace : gap ≠ [] → behind before ∨ ahead (c :: rest))
      (h : Thinned behind ahead (before ++ (gap ++ [c])) rest result) :
      Thinned behind ahead before (gap ++ c :: rest) (c :: result)

namespace Thinned

section laws

variable {behind ahead : List Char → Prop} {before gap text a b a' b' : List Char}

theorem refl : ∀ before text : List Char, Thinned behind ahead before text text
  | before, [] => .nil before
  | _, _ :: text => @cons _ _ _ [] _ _ _ (by simp) (by simp) (refl _ text)

theorem append (hahead : ∀ {v : List Char} (w : List Char), ahead v → ahead (v ++ w))
    (h : Thinned behind ahead before a a') (h' : Thinned behind ahead (before ++ a) b b') :
    Thinned behind ahead before (a ++ b) (a' ++ b') := by
  induction h with
  | nil before => simpa using h'
  | cons hblank hplace _ ih =>
    rw [List.append_assoc, List.cons_append, List.cons_append]
    exact cons hblank (fun hne => (hplace hne).imp_right (hahead b)) (ih (by simpa using h'))

/-- One gap, with text behind it. -/
theorem cut (hblank : ∀ d ∈ gap, isSpace d = true) (hne : text ≠ [])
    (hplace : behind before ∨ ahead text) : Thinned behind ahead before (gap ++ text) text := by
  obtain ⟨c, rest, rfl⟩ := List.exists_cons_of_ne_nil hne
  exact cons hblank (fun _ => hplace) (refl _ rest)

end laws

/-! ### Twice -/

section twice

-- the first time looks for `e` behind and for `s t` ahead, the second time for `a b` behind and for
-- `a' b'` ahead
variable {e s t a b a' b' : Char} {u u' gap rest : List Char} {c : Char}

theorem getLast?_of_suffix (h : [e] <:+ u) : u.getLast? = some e := by
  obtain ⟨v, rfl⟩ := h
  exact List.getLast?_concat ..

/-- A gap of the first kind does not part two other signs. -/
theorem gap_eq_nil (ha : a ≠ e) (hb : b ≠ s) (hu : u.getLast? = some a)
    (hplace : gap ≠ [] → [e] <:+ u ∨ [s, t] <+: b :: rest) : gap = [] := by
  by_contra hne
  obtain h | h := hplace hne
  · exact ha (by simpa [hu] using getLast?_of_suffix h)
  · exact hb (List.cons_prefix_cons.1 h).1.symm

theorem suffix_step (ha : a ≠ e) (hb : b ≠ s) (hlast : u.getLast? = u'.getLast?)
    (hplace : gap ≠ [] → [e] <:+ u ∨ [s, t] <+: c :: rest) (h : [a, b] <:+ u' ++ [c]) :
    [a, b] <:+ u ++ (gap ++ [c]) := by
  obtain ⟨v, hv⟩ := h
  obtain ⟨rfl, hbc⟩ := List.append_inj' (show (v ++ [a]) ++ [b] = u' ++ [c] by simpa using hv) rfl
  obtain rfl : b = c := by simpa using hbc
  obtain ⟨w, rfl⟩ := List.getLast?_eq_some_iff.1 (hlast.trans (List.getLast?_concat ..))
  obtain rfl := gap_eq_nil ha hb (List.getLast?_concat ..) hplace
  exact ⟨w, by simp⟩

theorem prefix_step (ha' : a' ≠ e) (hb' : b' ≠ s) {x y : List Char}
    (h : Thinned ([e] <:+ ·) ([s, t] <+: ·) (u ++ [c]) x y) (hy : [a', b'] <+: c :: y) :
    [a', b'] <+: c :: x := by
  obtain ⟨rfl, y, rfl⟩ := List.cons_prefix_cons.1 hy
  cases h with
  | @cons _ gap rest _ _ _ hplace _ =>
    obtain rfl := gap_eq_nil ha' hb' (List.getLast?_concat ..) hplace
    exact ⟨rest, rfl⟩

/-- What is left out before a character of the result. -/
theorem exists_of_append (ha : a ≠ e) (hb : b ≠ s) {x g y : List Char}
    (h : Thinned ([e] <:+ ·) ([s, t] <+: ·) u x (g ++ c :: y)) (hlast : u.getLast? = u'.getLast?)
    (hend : [a, b] <:+ u' → [a, b] <:+ u) :
    ∃ g' x', x = g' ++ c :: x' ∧ Thinned ([e] <:+ ·) ([s, t] <+: ·) (u ++ (g' ++ [c])) x' y ∧
      (∀ d ∈ g', d ∈ g ∨ isSpace d = true) ∧ (g = [] → g' ≠ [] → [e] <:+ u ∨ [s, t] <+: c :: x') ∧
      ([a, b] <:+ u' ++ (g ++ [c]) → [a, b] <:+ u ++ (g' ++ [c])) := by
  induction g generalizing u u' x with
  | nil =>
    cases h with
    | cons hblank hplace h =>
      exact ⟨_, _, rfl, h, fun d hd => .inr (hblank d hd), fun _ => hplace,
        suffix_step ha hb hlast hplace⟩
  | cons d g ih =>
    cases h with
    | @cons _ gap rest _ _ hblank hplace h =>
      have hlast' : (u ++ (gap ++ [d])).getLast? = (u' ++ [d]).getLast? := by simp
      obtain ⟨g', x', rfl, h', hg, -, hend'⟩ := ih h hlast' (suffix_step ha hb hlast hplace)
      refine ⟨gap ++ d :: g', x', by simp, by simpa using h', ?_, by simp, by simpa using hend'⟩
      intro x hx
      simp only [List.mem_append, List.mem_cons] at hx ⊢
      obtain hx | rfl | hx := hx
      · exact .inr (hblank x hx)
      · exact .inl (.inl rfl)
      · exact (hg x hx).imp_left .inr

/-- Leaving blanks out twice is leaving them out once. -/
theorem trans (ha : a ≠ e) (hb : b ≠ s) (ha' : a' ≠ e) (hb' : b' ≠ s) {x y z : List Char}
    (h : Thinned ([e] <:+ ·) ([s, t] <+: ·) u x y)
    (h' : Thinned ([a, b] <:+ ·) ([a', b'] <+: ·) u' y z)
    (hlast : u.getLast? = u'.getLast?) (hend : [a, b] <:+ u' → [a, b] <:+ u) :
    Thinned (fun v => [e] <:+ v ∨ [a, b] <:+ v) (fun v => [s, t] <+: v ∨ [a', b'] <+: v) u x z := by
  induction h' generalizing u x with
  | nil u' =>
    cases h
    exact .nil u
  | @cons u' gap rest result c hblank hplace _ ih =>
    obtain ⟨g, x, rfl, h, hg, hnone, hend'⟩ := exists_of_append ha hb h hlast hend
    refine cons (fun d hd => (hg d hd).elim (hblank d) id) (fun hne => ?_) (ih h (by simp) hend')
    by_cases hgap : gap = []
    · exact (hnone hgap hne).imp .inl .inl
    · refine (hplace hgap).imp (fun hu => .inr (hend hu)) fun hv => .inr ?_
      rw [← List.append_assoc] at h
      exact prefix_step ha' hb' h hv

end twice

end Thinned

end TemplateTidy.Text
