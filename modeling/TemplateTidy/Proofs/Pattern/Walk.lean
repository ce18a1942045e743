import TemplateTidy.Proofs.Pattern.Language

/-! # Walking over a known beginning

`Node.walk` runs a pattern over the known beginning of a text and lists what may be left of it.
Where nothing is listed, the pattern matches no text with that beginning (`not_reach_of_walk`).  A
pattern that asks for something that the text does not hold is `hopeless` wherever it begins
(`not_reach_of_hopeless`).  Both are computed, so that the question is decided by evaluation. -/

namespace TemplateTidy

/-- Whether a word edge lies before the end `u` of the known beginning `w` of a text, where that is
known. -/
def edgeIn (ascii : Bool) (w u : List Char) : Option Bool :=
  let word := (if ascii then CharClass.asciiWord else CharClass.word).holds
  match (w.take (w.length - u.length)).getLast?, u.head? with
  | some b, some c => some (word b != word c)
  | _, _ => none

namespace Node

/-! ### Hopeless patterns -/

/-- Whether the pattern asks for a character of a `dead` set, or for a sequence that is `barred`. -/
def hopeless (dead : CharSet → Bool) (barred : Node → Bool) : Node → Bool
  | .fail => true
  | .one cs => dead cs
  | .seq a b => barred (.seq a b) || a.hopeless dead barred || b.hopeless dead barred
  | .alt a b | .ifGroup _ a b => a.hopeless dead barred && b.hopeless dead barred
  | .group _ a | .atomic a => a.hopeless dead barred
  | .rep a least _ _ => 1 ≤ least && a.hopeless dead barred
  | _ => false

/-- What is hopeless matches nowhere. -/
theorem not_reach_of_hopeless {dead : CharSet → Bool} {barred : Node → Bool} {scene : Scene}
    (hd : ∀ c ∈ scene.text.toList, ∀ cs : CharSet, cs.holds c = true → dead cs = false)
    (hbar : ∀ n, barred n = true → ∀ p q, ¬n.Reach scene false p q) {n : Node} :
    ∀ {p q : Point}, n.hopeless dead barred = true → ¬n.Reach scene false p q := by
  induction n with
  | fail => rintro p q - ⟨⟩
  | one cs =>
    intro p q hn h
    obtain ⟨c, hc, hs, -⟩ := Scene.stepOver_forward.1 h
    have hmem : c ∈ scene.text.toList := by
      rw [← Array.getElem?_toList] at hc
      exact List.mem_of_getElem? hc
    rw [hopeless, hd c hmem cs hs] at hn
    cases hn
  | seq a b iha ihb =>
    rintro p q hn ⟨m, h₁, h₂⟩
    simp only [hopeless, Bool.or_eq_true] at hn
    obtain (hn | hn) | hn := hn
    · exact hbar _ hn p q ⟨m, h₁, h₂⟩
    · exact iha hn h₁
    · exact ihb hn h₂
  | alt a b iha ihb =>
    intro p q hn h
    obtain ⟨ha, hb⟩ := Bool.and_eq_true_iff.1 hn
    exact h.elim (iha ha) (ihb hb)
  | ifGroup i a b iha ihb =>
    intro p q hn h
    obtain ⟨ha, hb⟩ := Bool.and_eq_true_iff.1 hn
    rw [Reach] at h
    split at h
    · exact iha ha h
    · exact ihb hb h
  | group i a ih => rintro p q hn ⟨m, h, -⟩; exact ih hn h
  | atomic a ih => intro p q hn h; exact ih hn h
  | rep a least most reluctant ih =>
    rintro p q hn ⟨n, hleast, -, h⟩
    obtain ⟨hone, ha⟩ : 1 ≤ least ∧ a.hopeless dead barred = true := by simpa [hopeless] using hn
    obtain ⟨k, rfl⟩ : ∃ k, n = k + 1 := ⟨n - 1, by have := hleast hone; omega⟩
    obtain ⟨m, hm, -⟩ := Iter.succ_iff.1 h
    exact ih ha hm
  | _ => intro p q hn; simp [hopeless] at hn

/-! ### Walks -/

/-- Rounds of a walk, for as long as they take something off. -/
def walkRounds (f : List Char → List (List Char)) : (fuel : Nat) → List Char → List (List Char)
  | 0, u => [u]
  | fuel + 1, u => u :: ((f u).filter fun r => r.length < u.length).flatMap (walkRounds f fuel)

/-- What may be left of the end `u` of the known beginning `w` of a text after a match of the
pattern.  Behind the known beginning no character stands that one of the `dead` sets holds, and no
sequence that is `barred` matches anywhere. -/
def walk (dead : CharSet → Bool) (barred : Node → Bool) (w : List Char) :
    Node → List Char → List (List Char)
  | .empty, u | .keep, u => [u]
  | .fail, _ => []
  | .one cs, c :: u => if cs.holds c then [u] else []
  | .one cs, [] => if dead cs then [] else [[]]
  | .anchor (.wordEdge ascii positive), u => if edgeIn ascii w u = some !positive then [] else [u]
  | .anchor _, u => [u]
  | .look false true a, u => if (a.walk dead barred w u).isEmpty then [] else [u]
  | .look .., u => [u]
  | .seq a b, u =>
    if barred (.seq a b) then [] else (a.walk dead barred w u).flatMap (b.walk dead barred w)
  | .alt a b, u | .ifGroup _ a b, u => (a.walk dead barred w u ++ b.walk dead barred w u).eraseDups
  | .group _ a, u | .atomic a, u => a.walk dead barred w u
  | .recall .., u => u.tails
  | .rep a least _ _, u =>
    if least = 0 then walkRounds (a.walk dead barred w) u.length u
    else (a.walk dead barred w u).flatMap fun r => walkRounds (a.walk dead barred w) r.length r

section walking

variable {w beyond : List Char} {scene : Scene} {base : Nat}

/-- What is left of the known beginning, which stands at `base`, at a point. -/
def left (w : List Char) (base : Nat) (p : Point) : List Char :=
  w.drop (p.pos - base)

theorem left_suffix {p q : Point} (h : p.pos ≤ q.pos) : left w base q <:+ left w base p := by
  unfold left
  rw [show q.pos - base = p.pos - base + (q.pos - base - (p.pos - base)) by omega, ← List.drop_drop]
  exact List.drop_suffix _ _

theorem left_mem_walkRounds {f : List Char → List (List Char)} {R : Point → Point → Prop}
    (hR : ∀ p q, R p q → p.pos ≤ q.pos)
    (hf : ∀ p q, R p q → base ≤ p.pos → left w base q ∈ f (left w base p)) :
    ∀ {n fuel : Nat} {p q : Point}, Iter R n p q → base ≤ p.pos → (left w base p).length ≤ fuel →
      left w base q ∈ walkRounds f fuel (left w base p) := by
  intro n fuel p q h
  induction h generalizing fuel with
  | zero p =>
    intro _ _
    cases fuel <;> simp [walkRounds]
  | @succ n p m q hpm _ ih =>
    intro hp hfuel
    have hm : base ≤ m.pos := hp.trans (hR p m hpm)
    by_cases hlt : (left w base m).length < (left w base p).length
    · obtain ⟨g, rfl⟩ : ∃ g, fuel = g + 1 := ⟨fuel - 1, by omega⟩
      rw [walkRounds, List.mem_cons, List.mem_flatMap]
      exact .inr ⟨_, List.mem_filter.2 ⟨hf p m hpm hp, by simpa using hlt⟩, ih hm (by omega)⟩
    · -- a round that takes nothing off leaves the same beginning
      have he : left w base m = left w base p :=
        (left_suffix (hR p m hpm)).eq_of_length_le (by omega)
      rw [← he] at hfuel ⊢
      exact ih hm hfuel

variable (htext : scene.text.toList.drop base = w ++ beyond)
include htext

theorem getElem?_of_le {i : Nat} (hi : base ≤ i) : scene.text[i]? = (w ++ beyond)[i - base]? := by
  rw [← htext, List.getElem?_drop, Nat.add_sub_cancel' hi, Array.getElem?_toList]

/-- Where both neighbours are known, the edge is there or not. -/
theorem holdsAt_of_edgeIn {ascii positive e : Bool} {p : Point} (hp : base ≤ p.pos)
    (he : edgeIn ascii w (left w base p) = some e) :
    scene.holdsAt (.wordEdge ascii positive) p.pos = (e == positive) := by
  have hlen : (left w base p).length = w.length - (p.pos - base) := List.length_drop
  cases hb : (w.take (w.length - (left w base p).length)).getLast? with
  | none => simp [edgeIn, hb] at he
  | some b =>
    cases hc : (left w base p).head? with
    | none => simp [edgeIn, hc] at he
    | some c =>
      simp only [edgeIn, hb, hc, Option.some.injEq] at he
      rw [left, List.head?_drop] at hc
      obtain ⟨hlt, -⟩ := List.getElem?_eq_some_iff.1 hc
      rw [hlen, show w.length - (w.length - (p.pos - base)) = p.pos - base by omega,
        List.getLast?_eq_getElem?, List.length_take, Nat.min_eq_left (by omega),
        List.getElem?_take] at hb
      have hpos : 0 < p.pos - base := by
        by_contra hzero
        simp [show p.pos - base = 0 by omega] at hb
      rw [if_pos (by omega)] at hb
      have hbefore : scene.text[p.pos - 1]? = some b := by
        rw [getElem?_of_le htext (by omega), List.getElem?_append_left (by omega), ← hb]
        congr 1
        omega
      have hat : scene.text[p.pos]? = some c := by
        rw [getElem?_of_le htext hp, List.getElem?_append_left hlt, hc]
      simp [Scene.holdsAt, Scene.wordBefore, Scene.wordAt, hbefore, hat,
        show 0 < p.pos by omega, ← he]

variable {dead : CharSet → Bool} {barred : Node → Bool}
  (hd : ∀ c ∈ beyond, ∀ cs : CharSet, cs.holds c = true → dead cs = false)
  (hbar : ∀ n, barred n = true → ∀ p q, ¬n.Reach scene false p q)
include hd hbar

/-- A match leaves one of the listed beginnings. -/
theorem left_mem_walk {n : Node} : ∀ {p q : Point}, n.Reach scene false p q → base ≤ p.pos →
    left w base q ∈ n.walk dead barred w (left w base p) := by
  induction n with
  | empty | keep => rintro p q rfl _; exact List.mem_singleton_self _
  | fail => rintro p q ⟨⟩
  | one cs =>
    intro p q h hp
    obtain ⟨c, hc, hs, rfl⟩ := Scene.stepOver_forward.1 h
    rw [getElem?_of_le htext hp] at hc
    have hnext : left w base { p with pos := p.pos + 1 } = (left w base p).drop 1 := by
      rw [left, left, List.drop_drop]
      congr 1
      dsimp only
      omega
    rw [hnext]
    cases hu : left w base p with
    | nil =>
      -- the character stands behind the known beginning
      have hle : w.length ≤ p.pos - base := List.drop_eq_nil_iff.1 hu
      rw [List.getElem?_append_right hle] at hc
      have halive := hd c (List.mem_of_getElem? hc) cs hs
      simp [walk, halive]
    | cons d u =>
      have hd : w[p.pos - base]? = some d := by
        rw [← List.head?_drop, show w.drop (p.pos - base) = d :: u from hu]
        rfl
      rw [List.getElem?_append_left (List.getElem?_eq_some_iff.1 hd).1, hd] at hc
      obtain rfl := Option.some.inj hc
      simp [walk, hs]
  | anchor a =>
    rintro p q ⟨ha, rfl⟩ hp
    cases a with
    | wordEdge ascii positive =>
      have hopen : edgeIn ascii w (left w base q) ≠ some !positive := by
        intro he
        rw [holdsAt_of_edgeIn htext hp he] at ha
        cases positive <;> simp at ha
      simp [walk, hopen]
    | _ => exact List.mem_singleton_self _
  | seq a b iha ihb =>
    rintro p q ⟨m, h₁, h₂⟩ hp
    have hopen : ¬barred (.seq a b) = true := fun h => hbar _ h p q ⟨m, h₁, h₂⟩
    rw [walk, if_neg hopen, List.mem_flatMap]
    exact ⟨_, iha h₁ hp, ihb h₂ (hp.trans (h₁.moves.forward rfl))⟩
  | alt a b iha ihb =>
    intro p q h hp
    rw [walk, List.mem_eraseDups, List.mem_append]
    exact h.imp (iha · hp) (ihb · hp)
  | group i a ih => rintro p q ⟨m, h, rfl⟩ hp; exact (ih h hp :)
  | «recall» i folding =>
    intro p q h _
    rw [walk, List.mem_tails]
    exact left_suffix (h.moves.forward rfl)
  | rep a least most reluctant ih =>
    rintro p q ⟨n, hleast, -, h⟩ hp
    have hmoves : ∀ p q, a.Reach scene false p q → p.pos ≤ q.pos := fun p q h => h.moves.forward rfl
    have hrounds : ∀ {n : Nat} {p : Point}, Iter (a.Reach scene false) n p q → base ≤ p.pos →
        left w base q ∈ walkRounds (a.walk dead barred w) (left w base p).length (left w base p) :=
      fun h hp => left_mem_walkRounds hmoves (fun p q h hp => ih h hp) h hp le_rfl
    rw [walk]
    split
    · exact hrounds h hp
    · obtain ⟨k, rfl⟩ : ∃ k, n = k + 1 := ⟨n - 1, by have := hleast (by omega); omega⟩
      obtain ⟨m, hm, h⟩ := Iter.succ_iff.1 h
      exact List.mem_flatMap.2 ⟨_, ih hm hp, hrounds h (hp.trans (hmoves p m hm))⟩
  | look behind positive a ih =>
    intro p q h hp
    have hq : left w base q = left w base p := by
      cases positive with
      | true => obtain ⟨m, -, rfl⟩ := h; rfl
      | false => obtain ⟨-, rfl⟩ := h; rfl
    rw [hq]
    cases behind with
    | true => exact List.mem_singleton_self _
    | false =>
      cases positive with
      | false => exact List.mem_singleton_self _
      | true =>
        obtain ⟨m, hm, -⟩ := h
        have hne := List.ne_nil_of_mem (ih hm hp)
        simp [walk, hne]
  | atomic a ih => intro p q h hp; exact ih h hp
  | ifGroup i yes no ihy ihn =>
    intro p q h hp
    rw [walk, List.mem_eraseDups, List.mem_append]
    rw [Reach] at h
    split at h
    · exact .inl (ihy h hp)
    · exact .inr (ihn h hp)

end walking

/-- Where a walk lists nothing there is no match. -/
theorem not_reach_of_walk {dead : CharSet → Bool} {barred : Node → Bool}
    {beyond u : List Char} {n : Node}
    {scene : Scene} {p q : Point} (hd : ∀ c ∈ beyond, ∀ cs : CharSet, cs.holds c = true →
      dead cs = false)
    (hbar : ∀ n, barred n = true → ∀ p q, ¬n.Reach scene false p q)
    (hu : scene.text.toList.drop p.pos = u ++ beyond) (hw : n.walk dead barred u u = []) :
    ¬n.Reach scene false p q := by
  intro h
  have hmem := left_mem_walk hu hd hbar h le_rfl
  rw [show left u p.pos p = u by simp [left], hw] at hmem
  cases hmem

/-- A walk over the known beginning, where nothing else is known. -/
abbrev walkOver (n : Node) (u : List Char) : List (List Char) :=
  n.walk (fun _ => false) (fun _ => false) u u

theorem not_reach_of_walkOver {n : Node} {scene : Scene} {p q : Point} (u beyond : List Char)
    (hu : scene.text.toList.drop p.pos = u ++ beyond) (hw : n.walkOver u = []) :
    ¬n.Reach scene false p q :=
  not_reach_of_walk (fun _ _ _ _ => rfl) (fun _ h => by cases h) hu hw

end Node

end TemplateTidy
