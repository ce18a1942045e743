import TemplateTidy.Proofs.Pattern.Shape
import TemplateTidy.Proofs.Pattern.Words

/-! # How a match begins

Where a pattern has to take a character (`Node.solid`), and that character is one of a kind
(`Node.begins`), it matches only where such a character stands (`not_reach_of_begins`).  If it also
reports its matches where they begin, it has no match at the end of a text (`start_lt_size`).  To
run this check on a written pattern, its source is turned into characters first
(`ofSource_eq_ofChars`). -/

namespace TemplateTidy

namespace Node

variable {scene : Scene} {p q : Point} {n : Node}

/-- Whether each match takes a character. -/
def solid : Node → Bool
  | .one _ | .fail => true
  | .seq a b => a.solid || b.solid
  | .alt a b | .ifGroup _ a b => a.solid && b.solid
  | .group _ a | .atomic a => a.solid
  | .rep a least _ _ => 1 ≤ least && a.solid
  | _ => false

/-- Whether each match that takes a character begins with a `good` one. -/
def begins (good : Char → Bool) : Node → Bool
  | .one cs => cs.onlyOf good
  | .seq a b => a.begins good && (a.solid || b.begins good)
  | .alt a b | .ifGroup _ a b => a.begins good && b.begins good
  | .group _ a | .atomic a | .rep a .. => a.begins good
  | .recall .. => false
  | _ => true

theorem lt_of_solid : ∀ {p q : Point}, n.solid = true → n.Reach scene false p q →
    p.pos < q.pos := by
  induction n with
  | fail => rintro p q - ⟨⟩
  | one cs =>
    intro p q _ h
    obtain ⟨c, -, -, rfl⟩ := Scene.stepOver_forward.1 h
    exact Nat.lt_succ_self _
  | seq a b iha ihb =>
    rintro p q hn ⟨m, h₁, h₂⟩
    have hle₁ := h₁.moves.forward rfl
    have hle₂ := h₂.moves.forward rfl
    obtain hn | hn := Bool.or_eq_true_iff.1 hn
    · exact (iha hn h₁).trans_le hle₂
    · exact hle₁.trans_lt (ihb hn h₂)
  | alt a b iha ihb =>
    intro p q hn h
    obtain ⟨ha, hb⟩ := Bool.and_eq_true_iff.1 hn
    exact h.elim (iha ha) (ihb hb)
  | ifGroup i a b iha ihb =>
    intro p q hn h
    obtain ⟨ha, hb⟩ := Bool.and_eq_true_iff.1 hn
    rw [Reach] at h
    split at h
    · exact iha ha h
    · exact ihb hb h
  | group i a ih => rintro p q hn ⟨m, h, rfl⟩; exact (ih hn h :)
  | atomic a ih => intro p q hn h; exact ih hn h
  | rep a least most reluctant ih =>
    rintro p q hn ⟨n, hleast, -, h⟩
    obtain ⟨hone, ha⟩ : 1 ≤ least ∧ a.solid = true := by simpa [solid] using hn
    obtain ⟨k, rfl⟩ : ∃ k, n = k + 1 := ⟨n - 1, by have := hleast hone; omega⟩
    obtain ⟨m, hm, h⟩ := Iter.succ_iff.1 h
    have hle : m.pos ≤ q.pos :=
      h.preorder (S := fun p q => p.pos ≤ q.pos) (fun _ => le_rfl) (fun _ _ _ => Nat.le_trans)
        fun _ _ h => h.moves.forward rfl
    exact (ih ha hm).trans_le hle
  | _ => intro p q hn; simp [solid] at hn

/-- What begins with `good` characters finds one where it begins. -/
theorem exists_good_of_begins {good : Char → Bool} :
    ∀ {p q : Point}, n.begins good = true → n.Reach scene false p q →
    p.pos < q.pos → ∃ c r, scene.rest p = c :: r ∧ good c = true := by
  induction n with
  | one cs =>
    intro p q hn h _
    obtain ⟨c, r, hr, hc, -⟩ := reach_one.1 h
    exact ⟨c, r, hr, CharSet.holds_onlyOf hn hc⟩
  | seq a b iha ihb =>
    rintro p q hn ⟨m, h₁, h₂⟩ hlt
    obtain ⟨ha, hb⟩ := Bool.and_eq_true_iff.1 hn
    have hle : p.pos ≤ m.pos := h₁.moves.forward rfl
    by_cases hpm : p.pos < m.pos
    · exact iha ha h₁ hpm
    · obtain hb | hb := Bool.or_eq_true_iff.1 hb
      · exact absurd (lt_of_solid hb h₁) hpm
      · have hpos : m.pos = p.pos := by omega
        rw [← scene.rest_eq_of_pos p hpos]
        exact ihb hb h₂ (by omega)
  | alt a b iha ihb =>
    intro p q hn h hlt
    obtain ⟨ha, hb⟩ := Bool.and_eq_true_iff.1 hn
    exact h.elim (iha ha · hlt) (ihb hb · hlt)
  | ifGroup i a b iha ihb =>
    intro p q hn h hlt
    obtain ⟨ha, hb⟩ := Bool.and_eq_true_iff.1 hn
    rw [Reach] at h
    split at h
    · exact iha ha h hlt
    · exact ihb hb h hlt
  | group i a ih => rintro p q hn ⟨m, h, rfl⟩ hlt; exact ih hn h hlt
  | atomic a ih => intro p q hn h hlt; exact ih hn h hlt
  | rep a least most reluctant ih =>
    rintro p q hn ⟨n, -, -, h⟩ hlt
    induction h with
    | zero p => exact absurd hlt (lt_irrefl _)
    | @succ n p m q hpm _ ihn =>
      have hle : p.pos ≤ m.pos := hpm.moves.forward rfl
      by_cases hlt' : p.pos < m.pos
      · exact ih hn hpm hlt'
      · have hpos : m.pos = p.pos := by omega
        rw [← scene.rest_eq_of_pos p hpos]
        exact ihn (by omega)
  | «recall» i folding => intro p q hn; cases hn
  | empty | keep => rintro p q - rfl hlt; exact absurd hlt (lt_irrefl _)
  | fail => rintro p q - ⟨⟩
  | anchor k => rintro p q - ⟨-, rfl⟩ hlt; exact absurd hlt (lt_irrefl _)
  | look behind positive a ih =>
    intro p q _ h hlt
    have hpos : q.pos = p.pos := by
      cases positive with
      | true => obtain ⟨m, -, rfl⟩ := h; rfl
      | false => obtain ⟨-, rfl⟩ := h; rfl
    omega

theorem not_reach_of_begins (good : Char → Bool) (hsolid : n.solid = true)
    (hn : n.begins good = true)
    (hrest : ∀ c, (scene.rest p).head? = some c → good c = false) : ¬n.Reach scene false p q := by
  intro h
  obtain ⟨c, r, hr, hc⟩ := exists_good_of_begins hn h (lt_of_solid hsolid h)
  rw [hrest c (by rw [hr]; rfl)] at hc
  cases hc

theorem points_eq_nil {n : Node} (h : ∀ q, ¬n.Reach scene false p q) :
    n.points scene false p = [] :=
  List.eq_nil_iff_forall_not_mem.2 fun q hq => h q (reach_of_mem_points hq)

end Node

/-! ### Matches at the end of a text -/

namespace Pattern

/-- The pattern that is written with the given characters. -/
def ofChars (flags : Flags) (source : List Char) : Pattern :=
  match read flags source with
  | .ok p => p
  | .error _ => never

theorem ofSource_eq_ofChars (flags : Flags) (source : String) :
    ofSource flags source = ofChars flags source.toList :=
  rfl

/-- Whether a pattern is well written and every match that it reports has a character. -/
def takes (p : Pattern) : Bool :=
  p != never && p.node.keepless && p.node.solid

variable {p : Pattern} {text : Array Char} {m : Match}

theorem start_lt_size {scene : Scene} {i : Nat} {q : Point} (hp : p.takes = true)
    (hi : i ≤ scene.text.size)
    (h : p.node.Reach scene false (.at i) q) : q.start < scene.text.size := by
  simp only [takes, Bool.and_eq_true] at hp
  obtain ⟨⟨-, hkeep⟩, hsolid⟩ := hp
  have hstart : q.start = i := h.start_eq hkeep
  have hlt : i < q.pos := Node.lt_of_solid hsolid h
  have hle : q.pos ≤ scene.text.size := h.moves.bound hi
  omega

theorem start_lt_size_of_mem_findAll (hp : p.takes = true) (h : m ∈ p.findAll text) :
    m.start < text.size := by
  obtain ⟨origin, i, q, hi, hq, rfl⟩ := exists_reach_of_mem_findAll h
  exact start_lt_size hp hi hq

theorem start_lt_size_of_matchAt? {pos : Nat} (hp : p.takes = true) (hpos : pos ≤ text.size)
    (h : p.matchAt? text pos = some m) : m.start < text.size := by
  obtain ⟨q, hq, -, rfl⟩ := exists_reach_of_matchFrom? h
  exact start_lt_size hp hpos hq

end Pattern

end TemplateTidy
