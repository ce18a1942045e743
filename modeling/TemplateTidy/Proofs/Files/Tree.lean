import TemplateTidy.Files.Tree

/-! # Writing to a file tree

A path that is written leads to what was written, and all other paths keep what they lead to
(`entry?_put`).  A text that is written is read back as it was (`decode_toUTF8`). -/

namespace TemplateTidy.Files.Tree

variable {t : Tree} {p q : Path} {e : Entry}

@[simp] theorem current_put : (t.put p e).current = t.current := by
  unfold put
  dsimp only
  split <;> rfl

@[simp] theorem resolve_put : (t.put p e).resolve q = t.resolve q := by
  rw [resolve, current_put, resolve]

theorem lookup_cons_eq_ite (x y : Path) (entries : List (Path × Entry)) :
    ((y, e) :: entries).lookup x = if x = y then some e else entries.lookup x := by
  by_cases h : x = y
  · rw [h, List.lookup_cons_self, if_pos rfl]
  · rw [List.lookup_cons, beq_eq_false_iff_ne.2 h, if_neg h]

theorem lookup_replace (full x : Path) : ∀ entries : List (Path × Entry),
    (entries.map fun y => if y.1 = full then (full, e) else y).lookup x =
      if x = full then (entries.lookup x).map fun _ => e else entries.lookup x
  | [] => by simp
  | (y, d) :: entries => by
      rw [List.map_cons, lookup_cons_eq_ite]
      by_cases hy : y = full
      · subst hy
        rw [if_pos rfl, lookup_cons_eq_ite, lookup_replace y x entries]
        by_cases hx : x = y <;> simp [hx]
      · rw [if_neg hy, lookup_cons_eq_ite, lookup_replace full x entries]
        by_cases hx : x = y
        · subst hx
          simp [hy]
        · simp [hx]

theorem lookup_entries_put (x : Path) : (t.put p e).entries.lookup x =
    if x = t.resolve p then some e else t.entries.lookup x := by
  unfold put
  dsimp only
  split
  next h =>
    obtain ⟨⟨y, d⟩, hmem, hy⟩ := List.any_eq_true.1 h
    rw [lookup_replace]
    split
    next hx =>
      have hsome : (t.entries.lookup x).isSome := by
        rw [List.lookup_isSome_iff]
        exact ⟨⟨y, d⟩, hmem, by simpa [hx] using (of_decide_eq_true hy).symm⟩
      obtain ⟨d', hd'⟩ := Option.isSome_iff_exists.1 hsome
      rw [hd', Option.map_some]
    next => rfl
  next h =>
    rw [List.lookup_append, lookup_cons_eq_ite]
    split
    next hx =>
      have hnone : t.entries.lookup x = none := by
        rw [List.lookup_eq_none_iff]
        intro y hy
        simp only [List.any_eq_true, decide_eq_true_eq, not_exists, not_and] at h
        simpa [hx] using fun heq => h y hy heq.symm
      rw [hnone, Option.none_or]
    next => rw [List.lookup_nil, Option.or_none]

/-- What stands under a path after a write: the root of all cannot be written. -/
theorem entry?_put : entry? (t.put p e) q =
    if t.resolve q = t.resolve p ∧ (t.resolve q).parts ≠ [] then some e else t.entry? q := by
  unfold entry?
  dsimp only
  rw [resolve_put, lookup_entries_put]
  by_cases hq : (t.resolve q).parts = []
  · simp [hq]
  · by_cases hp : t.resolve q = t.resolve p
    · rw [hp] at hq
      simp [hq, hp]
    · simp [hq, hp]

theorem entry?_congr (h : t.resolve q = t.resolve p) : t.entry? q = t.entry? p := by
  unfold entry?
  rw [h]

/-- A path that leads to a file is not the root of all. -/
theorem parts_ne_nil {bytes : ByteArray} (h : t.entry? p = some (.file bytes)) :
    (t.resolve p).parts ≠ [] := by
  intro hp
  unfold entry? at h
  simp [hp] at h

theorem exists_of_readExactly {text : List Char} (h : t.readExactly p = .ok text) :
    ∃ bytes, t.entry? p = some (.file bytes) ∧ decode bytes = .ok text := by
  unfold readExactly readBytes at h
  split at h
  next bytes hp => exact ⟨bytes, hp, h⟩
  next => cases h
  next => split at h <;> cases h

theorem readExactly_eq_ok_iff {text : List Char} : t.readExactly p = .ok text ↔
    ∃ bytes, t.entry? p = some (.file bytes) ∧ decode bytes = .ok text := by
  refine ⟨exists_of_readExactly, ?_⟩
  rintro ⟨bytes, hp, hdecode⟩
  unfold readExactly readBytes
  rw [hp]
  exact hdecode

theorem decode_toUTF8 (text : List Char) : decode (String.ofList text).toUTF8 = .ok text := by
  have h : String.fromUTF8? (String.ofList text).toUTF8 = some (String.ofList text) :=
    dif_pos (String.ofList text).isValidUTF8
  rw [decode, h]
  exact congrArg Except.ok String.toList_ofList

end TemplateTidy.Files.Tree
