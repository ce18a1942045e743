import TemplateTidy.Proofs.Layout.Inversion

/-! # Outcomes

What holds of all that a computation may answer, and what a list of computations answers, element by
element. -/

namespace TemplateTidy.Outcome

/-- All that a computation may answer is such. -/
def Gives {α : Type} (P : α → Prop) (x : Outcome α) : Prop :=
  ∀ a, x = .ok a → P a

namespace Gives

variable {α β : Type} {P : β → Prop}

theorem ok {b : β} (h : P b) : Gives P (.ok b) := by
  rintro _ ⟨⟩
  exact h

theorem bind {x : Outcome α} {f : α → Outcome β} (h : ∀ a, Gives P (f a)) : Gives P (x >>= f) := by
  intro b hb
  obtain ⟨a, -, hb⟩ := exists_of_bind hb
  exact h a b hb

theorem ite {c : Prop} [Decidable c] {x y : Outcome β} (hx : c → Gives P x) (hy : Gives P y) :
    Gives P (if c then x else y) := by
  split
  next hc => exact hx hc
  next hc => exact hy

end Gives

variable {α β : Type} {f : α → Outcome β}

/-- Answers for all elements of a list: one for the first and some for the others. -/
theorem of_mapM_cons {a : α} {as : List α} {bs : List β} (h : (a :: as).mapM f = .ok bs) :
    ∃ b rest, f a = .ok b ∧ as.mapM f = .ok rest ∧ bs = b :: rest := by
  rw [List.mapM_cons] at h
  obtain ⟨b, hb, h⟩ := exists_of_bind h
  obtain ⟨rest, hrest, h⟩ := exists_of_bind h
  exact ⟨b, rest, hb, hrest, (Except.ok.inj h).symm⟩

theorem mapM_cons_of_ok {a : α} {as : List α} {b : β} {bs : List β} (ha : f a = .ok b)
    (has : as.mapM f = .ok bs) : (a :: as).mapM f = .ok (b :: bs) := by
  rw [List.mapM_cons, ha, ok_bind, has, ok_bind]
  rfl

/-- Where each element has a known answer, so has the list. -/
theorem mapM_eq_map {g : α → β} :
    ∀ {as : List α}, (∀ a ∈ as, f a = .ok (g a)) → as.mapM f = .ok (as.map g)
  | [], _ => rfl
  | a :: _, h =>
      mapM_cons_of_ok (h a List.mem_cons_self) (mapM_eq_map fun a' ha' =>
        h a' (List.mem_cons_of_mem a ha'))

theorem exists_of_mem_mapM : ∀ {as : List α} {bs : List β}, as.mapM f = .ok bs →
    ∀ b ∈ bs, ∃ a ∈ as, f a = .ok b
  | [], bs, h => by
      cases h
      exact fun b hb => absurd hb List.not_mem_nil
  | a :: as, bs, h => by
      obtain ⟨b, rest, hb, hrest, rfl⟩ := of_mapM_cons h
      intro c hc
      obtain rfl | hc := List.mem_cons.1 hc
      · exact ⟨a, List.mem_cons_self, hb⟩
      · obtain ⟨a', ha', hc⟩ := exists_of_mem_mapM hrest c hc
        exact ⟨a', List.mem_cons_of_mem a ha', hc⟩

/-- What a function takes back from the answers. -/
theorem map_of_mapM {g : β → α} (hg : ∀ a b, f a = .ok b → g b = a) : ∀ {as : List α} {bs : List β},
    as.mapM f = .ok bs → bs.map g = as
  | [], bs, h => by
      cases h
      rfl
  | a :: as, bs, h => by
      obtain ⟨b, rest, hb, hrest, rfl⟩ := of_mapM_cons h
      rw [List.map_cons, hg a b hb, map_of_mapM hg hrest]

theorem exists_mapM : ∀ {as : List α}, (∀ a ∈ as, ∃ b, f a = .ok b) → ∃ bs, as.mapM f = .ok bs
  | [], _ => ⟨[], rfl⟩
  | a :: as, h => by
      obtain ⟨b, hb⟩ := h a List.mem_cons_self
      obtain ⟨bs, hbs⟩ := exists_mapM fun a' ha' => h a' (List.mem_cons_of_mem a ha')
      exact ⟨b :: bs, mapM_cons_of_ok hb hbs⟩

theorem exists_filterAuxM {p : α → Outcome Bool} :
    ∀ {as acc : List α}, (∀ a ∈ as, ∃ b, p a = .ok b) →
    ∃ kept, as.filterAuxM p acc = .ok kept ∧ ∀ a ∈ kept, a ∈ as ∨ a ∈ acc
  | [], acc, _ => ⟨acc, rfl, fun a => .inr⟩
  | a :: as, acc, h => by
      obtain ⟨b, hb⟩ := h a List.mem_cons_self
      have htail : ∃ kept, as.filterAuxM p (cond b (a :: acc) acc) = .ok kept ∧
          ∀ a' ∈ kept, a' ∈ as ∨ a' ∈ cond b (a :: acc) acc :=
        exists_filterAuxM fun a' ha' => h a' (List.mem_cons_of_mem a ha')
      obtain ⟨kept, hkept, hmem⟩ := htail
      refine ⟨kept, by rw [List.filterAuxM, hb, ok_bind, hkept], fun a' ha' => ?_⟩
      obtain ha' | ha' := hmem a' ha'
      · exact .inl (List.mem_cons_of_mem a ha')
      · cases b with
        | false => exact .inr ha'
        | true =>
          obtain rfl | ha' := List.mem_cons.1 ha'
          · exact .inl List.mem_cons_self
          · exact .inr ha'

/-- A choice of elements answers if the question does for each of them. -/
theorem exists_filterM {p : α → Outcome Bool} {as : List α} (h : ∀ a ∈ as, ∃ b, p a = .ok b) :
    ∃ kept, as.filterM p = .ok kept ∧ ∀ a ∈ kept, a ∈ as := by
  have hall : ∃ kept, as.filterAuxM p [] = .ok kept ∧ ∀ a ∈ kept, a ∈ as ∨ a ∈ [] :=
    exists_filterAuxM h
  obtain ⟨kept, hkept, hmem⟩ := hall
  refine ⟨kept.reverse, by rw [List.filterM, hkept, ok_bind]; rfl, fun a ha => ?_⟩
  exact (hmem a (List.mem_reverse.1 ha)).resolve_right List.not_mem_nil

theorem mem_filterAuxM_iff {p : α → Outcome Bool} {b : α} : ∀ {as acc kept : List α},
    as.filterAuxM p acc = .ok kept → (b ∈ kept ↔ (b ∈ as ∧ p b = .ok true) ∨ b ∈ acc)
  | [], acc, kept, h => by
      obtain rfl := Except.ok.inj h
      simp
  | a :: as, acc, kept, h => by
      rw [List.filterAuxM] at h
      obtain ⟨on, ha, h⟩ := exists_of_bind h
      rw [mem_filterAuxM_iff h]
      by_cases hb : b = a
      · subst hb
        cases on <;> simp [ha]
      · cases on <;> simp [hb]

/-- A choice of elements holds those for which the question is answered with yes. -/
theorem mem_filterM_iff {p : α → Outcome Bool} {as kept : List α}
    (h : as.filterM p = .ok kept) {b : α} : b ∈ kept ↔ b ∈ as ∧ p b = .ok true := by
  obtain ⟨turned, hturned, h⟩ := exists_of_bind h
  obtain rfl := Except.ok.inj h
  rw [List.mem_reverse, mem_filterAuxM_iff hturned]
  simp

end TemplateTidy.Outcome
