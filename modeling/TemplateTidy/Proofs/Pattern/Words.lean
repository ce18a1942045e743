import TemplateTidy.Proofs.Pattern.Occurs

/-! # Names in a pattern

A name of small letters and digits, which a pattern asks for in any letter case, is found only where
it stands (`prefix_of_fits`), and where a word edge has to follow it, only where the whole word is
that name (`edge_after_name`).  So a choice of names before an edge picks the one name that the text
has (`eq_of_reach_names`). -/

namespace TemplateTidy

open Text

/-! ### Small letters -/

/-- A small letter or a digit. -/
def isSmall (c : Char) : Bool :=
  c.isLower || c.isDigit

/-- A character below 128 that is no capital letter. -/
def isUncapped (c : Char) : Bool :=
  decide (c.toNat < 128) && !c.isUpper

theorem isUncapped_of_isSmall {c : Char} (h : isSmall c = true) : isUncapped c = true := by
  simp only [isSmall, Char.isLower, Char.isDigit, Bool.or_eq_true, Bool.and_eq_true,
    decide_eq_true_eq, ge_iff_le, UInt32.le_iff_toNat_le] at h
  simp only [isUncapped, Char.isUpper, Bool.and_eq_true, decide_eq_true_eq, Bool.not_eq_true',
    decide_eq_false_iff_not, ge_iff_le, UInt32.le_iff_toNat_le, Char.toNat]
  simp only [show 'a'.val.toNat = 97 from rfl, show 'z'.val.toNat = 122 from rfl,
    show '0'.val.toNat = 48 from rfl,
    show '9'.val.toNat = 57 from rfl, show 'A'.val.toNat = 65 from rfl, show 'Z'.val.toNat =
      90 from rfl] at h ⊢
  omega

theorem isUpper_eq_false_of_isSmall {c : Char} (h : isSmall c = true) : c.isUpper = false := by
  have := isUncapped_of_isSmall h
  simp only [isUncapped, Bool.and_eq_true, Bool.not_eq_true'] at this
  exact this.2

theorem isWord_of_isSmall {c : Char} (h : isSmall c = true) : isWord c = true := by
  have hlt := isUncapped_of_isSmall h
  simp only [isUncapped, Bool.and_eq_true, decide_eq_true_eq] at hlt
  simp only [isSmall, Bool.or_eq_true] at h
  rw [isWord, if_pos hlt.1]
  obtain h | h := h <;> simp [Char.isAlphanum, Char.isAlpha, h]

/-- Among characters that are no capitals, a small one is a variant of itself only. -/
theorem mem_variants_small {c d : Char} (hc : isSmall c = true) (hd : isUncapped d = true) :
    c ∈ variants d ↔ c = d := by
  have hcup := isUpper_eq_false_of_isSmall hc
  have hclt := isUncapped_of_isSmall hc
  simp only [isUncapped, Bool.and_eq_true, decide_eq_true_eq, Bool.not_eq_true'] at hd hclt
  have hne : ∀ b : Char, b.isUpper = true ∨ 128 ≤ b.toNat → c ≠ b := by
    rintro b (hb | hb) rfl
    · simp [hb] at hcup
    · omega
  unfold variants
  split_ifs with h₁ h₂ h₃ h₄ h₅ h₆ h₇ h₈
  · obtain rfl := beq_iff_eq.1 h₁
    simp at hd
  · obtain rfl := beq_iff_eq.1 h₂
    simp [hne 'I' (.inl rfl), hne 'İ' (.inr (by decide))]
  · obtain rfl := beq_iff_eq.1 h₃
    exact absurd hd.1 (by decide)
  · obtain rfl := beq_iff_eq.1 h₄
    exact absurd hd.1 (by decide)
  · have hk : d = 'k' := by
      obtain h | h := Bool.or_eq_true_iff.1 h₆
      · exact beq_iff_eq.1 h
      · rw [beq_iff_eq.1 h] at hd
        simp at hd
    simp [hk, hne 'K' (.inl rfl), hne 'K' (.inr (by decide))]
  · have hs : d = 's' := by
      obtain h | h := Bool.or_eq_true_iff.1 h₇
      · exact beq_iff_eq.1 h
      · rw [beq_iff_eq.1 h] at hd
        simp at hd
    simp [hs, hne 'S' (.inl rfl), hne 'ſ' (.inr (by decide))]
  · simp [hne d.toUpper (.inl (by simp [Char.isUpper_toUpper_eq_isAlpha, Char.isAlpha, h₈]))]
  · rename_i h
    simp [h] at hd
  · simp
  · exact absurd hd.1 h₅

theorem holds_single_small {c d : Char} (hc : isSmall c = true) (hd : isUncapped d = true) :
    (CharSet.single c .simple).holds d = true ↔ c = d := by
  rw [← mem_variants_small hc hd]
  simp only [CharSet.holds, CharSet.single, Folding.images, reduceCtorEq, if_false, Bool.bne_false,
    List.any_eq_true, List.any_cons, List.any_nil, Bool.or_false, CharItem.holds, Bool.and_eq_true,
    decide_eq_true_eq]
  constructor
  · rintro ⟨e, he, h₁, h₂⟩
    rwa [le_antisymm h₁ h₂]
  · exact fun h => ⟨c, h, le_rfl, le_rfl⟩

namespace Node

variable {scene : Scene} {p q : Point}

/-! ### Choices and words -/

theorem reach_choice : ∀ {ns : List Node},
    (choice ns).Reach scene false p q ↔ ∃ n ∈ ns, n.Reach scene false p q
  | [] => by simp [choice, Reach]
  | [n] => by simp [choice]
  | n :: n' :: ns => by
      rw [choice, Reach, reach_choice]
      simp

theorem reach_one {cs : CharSet} :
    (Node.one cs).Reach scene false p q ↔
      ∃ c r, scene.rest p = c :: r ∧ cs.holds c = true ∧ q = p.move 1 := by
  rw [Reach, Scene.stepOver_forward, scene.getElem?_pos]
  constructor
  · rintro ⟨c, hc, hs, rfl⟩
    obtain ⟨r, hr⟩ := List.head?_eq_some_iff.1 hc
    exact ⟨c, r, hr, hs, rfl⟩
  · rintro ⟨c, r, hr, hs, rfl⟩
    exact ⟨c, by rw [hr]; rfl, hs, rfl⟩

theorem reach_word : ∀ {w : List CharSet} {p : Point},
    (word w).Reach scene false p q ↔ fits w (scene.rest p) = true ∧ q = p.move w.length
  | [], p => by simp [word, ofList, Reach, fits]
  | [cs], p => by
      rw [show word [cs] = .one cs from rfl, reach_one]
      cases scene.rest p with
      | nil => simp [fits]
      | cons c r => simp [fits]
  | cs :: cs' :: w, p => by
      rw [show word (cs :: cs' :: w) = .seq (.one cs) (word (cs' :: w)) from rfl]
      simp only [Reach]
      cases hr : scene.rest p with
      | nil =>
        simp [fits, Scene.stepOver, scene.getElem?_pos, hr]
      | cons c r =>
        by_cases hc : cs.holds c = true
        · have hstep : scene.stepOver false cs p = some (p.move 1) := by
            simp [Scene.stepOver, scene.getElem?_pos, hr, hc, Point.move]
          simp only [hstep, Option.some.injEq, exists_eq_left', reach_word, scene.rest_move, hr,
            List.drop_one, List.tail_cons, Point.move_move, fits, hc, Bool.true_and,
            List.length_cons,
            Nat.add_comm 1]
        · simp [fits, hc, Scene.stepOver, scene.getElem?_pos, hr]

/-! ### Names -/

/-- The pattern of a name in any letter case. -/
def named (n : List Char) : Node :=
  word (n.map (CharSet.single · .simple))

theorem prefix_of_fits {c : Char} {r : List Char} (hc : isUncapped c = true)
    (hsmall : isSmall c = false) :
    ∀ {n t : List Char}, (∀ a ∈ n, isSmall a = true) → (∀ a ∈ t, isSmall a = true) →
      fits (n.map (CharSet.single · .simple)) (t ++ c :: r) = true → n <+: t
  | [], t, _, _, _ => List.nil_prefix
  | a :: n, [], hn, _, h => by
      simp only [List.map_cons, List.nil_append, fits, Bool.and_eq_true] at h
      have ha := hn a (by simp)
      rw [(holds_single_small ha hc).1 h.1, hsmall] at ha
      cases ha
  | a :: n, b :: t, hn, ht, h => by
      simp only [List.map_cons, List.cons_append, fits, Bool.and_eq_true] at h
      obtain rfl := (holds_single_small (hn a (by simp))
        (isUncapped_of_isSmall (ht b (by simp)))).1 h.1
      rw [List.cons_prefix_cons]
      exact ⟨rfl, prefix_of_fits hc hsmall (fun a ha => hn a (by simp [ha]))
        (fun a ha => ht a (by simp [ha])) h.2⟩

theorem fits_self {r : List Char} : ∀ {n : List Char}, (∀ a ∈ n, isSmall a = true) →
    fits (n.map (CharSet.single · .simple)) (n ++ r) = true
  | [], _ => rfl
  | a :: n, hn => by
      have ha := hn a (by simp)
      simp only [List.map_cons, List.cons_append, fits, Bool.and_eq_true]
      exact ⟨(holds_single_small ha (isUncapped_of_isSmall ha)).2 rfl,
        fits_self fun a ha => hn a (by simp [ha])⟩

/-- An edge after a part of a word is an edge after all of it. -/
theorem edge_after_name {n t r : List Char} {c : Char} (hrest : scene.rest p = t ++ c :: r)
    (hbegins : n <+: t) (hne : n ≠ []) (ht : ∀ a ∈ t, isSmall a = true) (hc : isWord c = false) :
    scene.holdsAt (.wordEdge false true) (p.pos + n.length) = true ↔ n = t := by
  obtain ⟨u, rfl⟩ := hbegins
  have hlen : 0 < n.length := List.length_pos_iff.2 hne
  have hbefore : scene.wordBefore false (p.pos + n.length) = true := by
    have hlast : scene.text[p.pos + (n.length - 1)]? = some (n.getLast hne) := by
      rw [scene.getElem?_add, hrest, List.append_assoc, List.getElem?_append_left (by omega),
        List.getLast_eq_getElem]
      simp
    simp only [Scene.wordBefore, Scene.wordAt, show p.pos + n.length - 1 = p.pos +
      (n.length - 1) by omega, hlast, Bool.and_eq_true, decide_eq_true_eq]
    exact ⟨by omega, isWord_of_isSmall (ht _ (by simp))⟩
  have hat : scene.text[p.pos + n.length]? = (u ++ c :: r).head? := by
    rw [scene.getElem?_add, hrest, List.append_assoc, List.getElem?_append_right le_rfl,
      Nat.sub_self, List.head?_eq_getElem?]
  simp only [Scene.holdsAt, hbefore, Scene.wordAt, hat]
  cases u with
  | nil => simp [CharClass.holds, hc]
  | cons b u =>
    have hb := isWord_of_isSmall (ht b (by simp))
    simp [CharClass.holds, hb]

section names

variable {names : List (List Char)} (hnames : ∀ n ∈ names, n ≠ [] ∧ ∀ a ∈ n, isSmall a = true)
  {t r : List Char} {c : Char} (ht : ∀ a ∈ t, isSmall a = true) (hc : isUncapped c = true)
  (hword : isWord c = false) (hrest : scene.rest p = t ++ c :: r)
include hnames ht hc hword hrest

/-- A choice of names before an edge picks the name that stands there. -/
theorem eq_of_reach_names (h : (choice (names.map named)).Reach scene false p q)
    (hedge : scene.holdsAt (.wordEdge false true) q.pos = true) :
    t ∈ names ∧ q = p.move t.length := by
  rw [reach_choice] at h
  obtain ⟨_, hmem, h⟩ := h
  obtain ⟨n, hn, rfl⟩ := List.mem_map.1 hmem
  obtain ⟨hfits, rfl⟩ := reach_word.1 h
  obtain ⟨hne, hsmall⟩ := hnames n hn
  have hcs : isSmall c = false := by
    by_contra hs
    rw [isWord_of_isSmall (by simpa using hs)] at hword
    cases hword
  rw [hrest] at hfits
  have hbegins := prefix_of_fits hc hcs hsmall ht hfits
  rw [List.length_map] at hedge ⊢
  obtain rfl := (edge_after_name hrest hbegins hne ht hword).1 hedge
  exact ⟨hn, rfl⟩

omit hc in
theorem mem_points_names (hmem : t ∈ names) :
    p.move t.length ∈ (choice (names.map named)).points scene false p ∧
      scene.holdsAt (.wordEdge false true) (p.move t.length).pos = true := by
  obtain ⟨hne, hsmall⟩ := hnames t hmem
  constructor
  · rw [show names.map named = (names.map fun n => n.map (CharSet.single · .simple)).map word by
      rw [List.map_map]; rfl, mem_points_words]
    refine ⟨t.map (CharSet.single · .simple), List.mem_map_of_mem hmem, ?_, by simp⟩
    rw [hrest]
    exact fits_self hsmall
  · exact (edge_after_name hrest List.prefix_rfl hne ht hword).2 rfl

end names

end Node

end TemplateTidy
