import TemplateTidy.Lint.Orphan
import TemplateTidy.Proofs.Pattern.Beginnings

/-! # Names that need no partner

The pattern of the names that need no partner is a choice between all of them, and what it asks for
before the first name and behind the last one does not hold for the others.  So a name needs no
partner if it begins with the first void name, holds one of those between, or ends with the last
one, in any letter case (`occurs_voidPattern_iff`). -/

namespace TemplateTidy

/-- A pattern occurs if it has a match somewhere. -/
theorem Pattern.occurs_iff_points {p : Pattern} (hp : p.node.originFree = true)
    {text : Array Char} : p.occurs text = true ↔ ∃ i ≤ text.size, ∃ q, q ∈ p.pointsAt text i := by
  constructor
  · intro h
    obtain ⟨m, hm⟩ := Option.isSome_iff_exists.1 h
    obtain ⟨i, -, hi, hm⟩ := exists_of_scan hm
    rw [matchFrom?_eq_pointsAt hp, Option.map_eq_some_iff] at hm
    obtain ⟨q, hq, -⟩ := hm
    exact ⟨i, by omega, q, List.mem_of_find?_eq_some hq⟩
  · rintro ⟨i, hi, q, hq⟩
    exact occurs_of_mem_points hi hq

/-- The points of a word with something behind it. -/
theorem Node.points_word_then {scene : Scene} (n : Node) : ∀ (w : List CharSet) (p : Point),
    (Node.ofList (w.map .one ++ [n])).points scene false p =
      if fits w (scene.rest p) then n.points scene false (p.move w.length) else []
  | [], p => by simp [ofList, fits]
  | cs :: w, p => by
      obtain ⟨n', ns, hns⟩ : ∃ n' ns, w.map Node.one ++ [n] = n' :: ns := by
        cases w <;> simp
      rw [List.map_cons, List.cons_append, hns, ofList, ← hns, points_seq, points_one]
      cases hr : scene.rest p with
      | nil => simp [fits]
      | cons c r =>
        by_cases h : cs.holds c = true
        · simp only [h, if_true, List.flatMap_cons, List.flatMap_nil, List.append_nil]
          rw [points_word_then n w (p.move 1), scene.rest_move, hr]
          simp [fits, h, Nat.add_comm]
        · simp [fits, h]

namespace Lint

open Text

/-- Two words that differ in letter case only. -/
def Alike (v u : List Char) : Prop :=
  List.Forall₂ (fun a c => Folding.simple.same c a = true) v u

theorem fits_iff_alike : ∀ {v r : List Char},
    Node.fits (v.map (CharSet.single · .simple)) r = true ↔ ∃ u, u <+: r ∧ Alike v u
  | [], r => by simp [Node.fits, Alike]
  | a :: v, [] => by simp [Node.fits, Alike]
  | a :: v, c :: r => by
      have hsame : (CharSet.single a .simple).holds c = Folding.simple.same c a := by
        rw [Bool.eq_iff_iff]
        simp [CharSet.holds, CharSet.single, CharItem.holds_range_self, Folding.same]
      rw [List.map_cons, Node.fits, Bool.and_eq_true, hsame, fits_iff_alike]
      constructor
      · rintro ⟨hc, u, hu, h⟩
        exact ⟨c :: u, List.cons_prefix_cons.2 ⟨rfl, hu⟩, .cons hc h⟩
      · rintro ⟨u, hu, h⟩
        cases h with
        | cons hc h =>
          obtain ⟨rfl, hu'⟩ := List.cons_prefix_cons.1 hu
          exact ⟨hc, _, hu', h⟩

theorem alike_self {v : List Char} (hv : ∀ a ∈ v, isSmall a = true) : Alike v v := by
  obtain ⟨u, hu, h⟩ := fits_iff_alike.1 (Node.fits_self (r := []) hv)
  rw [List.append_nil] at hu
  rwa [hu.eq_of_length h.length_eq.symm] at h

/-- The void names between the first and the last. -/
def innerNames : List (List Char) :=
  ((Markup.voidElements.drop 1).dropLast).map String.toList

theorem voidPattern_node : voidPattern.node = .choice
    (.ofList [.anchor .textStart, .rep (.one (.single '/' .simple)) 0 (some 1) false,
      .named ['a', 'r', 'e', 'a']] ::
      innerNames.map .named ++
      [.ofList (['w', 'b', 'r'].map (Node.one <| .single · .simple) ++
        [.anchor (.wordEdge false true)])]) := by
  unfold voidPattern Markup.voidSource
  rw [Pattern.ofSource_eq_ofChars]
  decide +kernel

section

variable {n : List Char} {i : Nat}

/-- The scene of a search for the pattern in a name. -/
abbrev nameScene (n : List Char) : Scene :=
  voidPattern.scene n.toArray 0

theorem rest_nameScene : (nameScene n).rest (.at i) = n.drop i := rfl

theorem exists_points_named {v : List Char} :
    (∃ q, q ∈ (Node.named v).points (nameScene n) false (.at i)) ↔ ∃ u, u <+: n.drop i ∧
    Alike v u := by
  rw [Node.named, Node.points_word, rest_nameScene, ← fits_iff_alike]
  split <;> simp_all

/-- The first name has to stand at the beginning. -/
theorem exists_points_first (hword : ∀ c ∈ n, isWord c = true) {v : List Char} :
    (∃ q, q ∈ (Node.ofList [.anchor .textStart, .rep (.one (.single '/' .simple)) 0 (some 1) false,
      .named v]).points
      (nameScene n) false (.at i)) ↔ i = 0 ∧ ∃ u, u <+: n ∧ Alike v u := by
  rw [Node.ofList, Node.ofList, Node.ofList]
  by_cases hi : i = 0
  · subst hi
    have hslash : ((nameScene n).rest (.at 0)).head?.any (CharSet.single '/' .simple).holds =
        false := by
      rw [rest_nameScene, List.drop_zero]
      cases n with
      | nil => rfl
      | cons c n =>
        have hne : c ≠ '/' := by
          rintro rfl
          exact absurd (hword _ List.mem_cons_self) (by decide)
        have hvariants : ∀ x ∈ variants c, ¬ '/' = x := by
          rintro x hx rfl
          exact hne ((mem_variants_iff (by decide)).1 hx)
        simpa [CharSet.holds, CharSet.single, CharItem.holds_range_self,
          Folding.images] using hvariants
    rw [Node.points_seq_singleton (Node.points_anchor_of_holds rfl),
      Node.points_seq_singleton (by rw [Node.points_optional, hslash]; rfl), exists_points_named,
      List.drop_zero]
    simp
  · rw [Node.points_seq_nil_left (Node.points_anchor_of_not
      (by simpa [Scene.holdsAt, Point.at] using hi))]
    simp [hi]

theorem wordAt_nameScene (hword : ∀ c ∈ n, isWord c = true) (j : Nat) :
    (nameScene n).wordAt false j = decide (j < n.length) := by
  have hget : (nameScene n).text[j]? = n[j]? := List.getElem?_toArray
  rw [Scene.wordAt, hget]
  by_cases hj : j < n.length
  · rw [List.getElem?_eq_getElem hj, decide_eq_true hj]
    exact hword _ (List.getElem_mem hj)
  · rw [List.getElem?_eq_none (Nat.le_of_not_lt hj), decide_eq_false hj]

/-- The last name has to stand at the end. -/
theorem exists_points_last (hword : ∀ c ∈ n, isWord c = true) {v : List Char} (hv : v ≠ []) :
    (∃ q, q ∈ (Node.ofList (v.map (Node.one <| .single · .simple) ++
      [.anchor (.wordEdge false true)])).points
      (nameScene n) false (.at i)) ↔ i + v.length = n.length ∧ ∃ u, u <+: n.drop i ∧ Alike v u := by
  have hmap : v.map (Node.one <| .single · .simple) =
      (v.map (CharSet.single · .simple)).map Node.one := by
    rw [List.map_map]
    rfl
  rw [hmap, Node.points_word_then, rest_nameScene, List.length_map, ← fits_iff_alike]
  by_cases hfits : Node.fits (v.map (CharSet.single · .simple)) (n.drop i) = true
  · obtain ⟨u, hu, halike⟩ := fits_iff_alike.1 hfits
    have hpos := List.length_pos_iff.2 hv
    have hlen : i + v.length ≤ n.length := by
      have := hu.length_le
      rw [← halike.length_eq, List.length_drop] at this
      omega
    have hedge : (nameScene n).holdsAt (.wordEdge false true) (i + v.length) = true ↔
        i + v.length = n.length := by
      have hbefore : decide (i + v.length - 1 < n.length) = true := decide_eq_true (by omega)
      rw [Scene.holdsAt, Scene.wordBefore, wordAt_nameScene hword, wordAt_nameScene hword, hbefore,
        decide_eq_true (show 0 < i + v.length by omega)]
      simp
      omega
    have hplace : ((Point.at i).move v.length).pos = i + v.length := rfl
    rw [if_pos hfits, Node.points, hplace]
    by_cases hend : i + v.length = n.length
    · rw [if_pos (hedge.2 hend)]
      simp [hend, hfits]
    · rw [if_neg fun h => hend (hedge.1 h)]
      simp [hend]
  · rw [if_neg hfits]
    simp [hfits]

end

/-- A name needs no partner if and only if, in any letter case, it begins with the first void name,
holds one of those between, or ends with the last one. -/
theorem occurs_voidPattern_iff {n : List Char} (hword : ∀ c ∈ n, isWord c = true) :
    voidPattern.occurs n.toArray = true ↔ (∃ u, u <+: n ∧ Alike ['a', 'r', 'e', 'a'] u) ∨
      (∃ v ∈ innerNames, ∃ u, u <:+: n ∧ Alike v u) ∨ ∃ u, u <:+ n ∧ Alike ['w', 'b', 'r'] u := by
  have hfree : voidPattern.node.originFree = true := by
    rw [voidPattern_node]
    decide +kernel
  have hpoints : ∀ i, (∃ q, q ∈ voidPattern.pointsAt n.toArray i) ↔
      (i = 0 ∧ ∃ u, u <+: n ∧ Alike ['a', 'r', 'e', 'a'] u) ∨
        (∃ v ∈ innerNames, ∃ u, u <+: n.drop i ∧ Alike v u) ∨
        (i + 3 = n.length ∧ ∃ u, u <+: n.drop i ∧ Alike ['w', 'b', 'r'] u) := by
    intro i
    have hlast := exists_points_last (i := i) hword (v := ['w', 'b', 'r']) (List.cons_ne_nil _ _)
    rw [Pattern.pointsAt, voidPattern_node, Node.points_choice, ← exists_points_first hword,
      show i + 3 = i + ['w', 'b', 'r'].length from rfl, ← hlast]
    simp only [← exists_points_named, List.mem_flatMap, List.cons_append, List.mem_cons,
      List.mem_append, List.mem_map, List.not_mem_nil, or_false]
    constructor
    · rintro ⟨q, node, rfl | ⟨v, hv, rfl⟩ | rfl, hq⟩
      · exact .inl ⟨q, hq⟩
      · exact .inr (.inl ⟨v, hv, q, hq⟩)
      · exact .inr (.inr ⟨q, hq⟩)
    · rintro (⟨q, hq⟩ | ⟨v, hv, q, hq⟩ | ⟨q, hq⟩)
      · exact ⟨q, _, .inl rfl, hq⟩
      · exact ⟨q, _, .inr (.inl ⟨v, hv, rfl⟩), hq⟩
      · exact ⟨q, _, .inr (.inr rfl), hq⟩
  rw [Pattern.occurs_iff_points hfree]
  simp only [hpoints]
  constructor
  · rintro ⟨i, hi, ⟨-, h⟩ | ⟨v, hv, u, hu, h⟩ | ⟨hlen, u, hu, h⟩⟩
    · exact .inl h
    · exact .inr (.inl ⟨v, hv, u, hu.isInfix.trans (List.drop_suffix i n).isInfix, h⟩)
    · have hdrop : u = n.drop i := hu.eq_of_length
        (by rw [← h.length_eq, List.length_drop]; simp; omega)
      exact .inr (.inr ⟨u, hdrop ▸ List.drop_suffix i n, h⟩)
  · rintro (h | ⟨v, hv, u, ⟨s, t, rfl⟩, h⟩ | ⟨u, ⟨s, rfl⟩, h⟩)
    · exact ⟨0, Nat.zero_le _, .inl ⟨rfl, h⟩⟩
    · refine ⟨s.length, by simp, .inr (.inl ⟨v, hv, u, ?_, h⟩)⟩
      simp
    · refine ⟨s.length, by simp, .inr (.inr ⟨?_, u, ?_, h⟩)⟩
      · simp [← h.length_eq]
      · simp

-- An element that is not void, with a void name in its own.
example : "abbr" ∉ Markup.voidElements ∧
    voidPattern.occurs ['a', 'b', 'b', 'r'].toArray = true := by
  have hsmall : ∀ c ∈ ['a', 'b', 'b', 'r'], isSmall c = true := by simp [isSmall]
  have hbr : Alike ['b', 'r'] ['b', 'r'] := alike_self (by simp [isSmall])
  have hinner : ['b', 'r'] ∈ innerNames := by decide +kernel
  refine ⟨by decide, (occurs_voidPattern_iff fun c hc => isWord_of_isSmall (hsmall c hc)).2 (.inr (.inl ?_))⟩
  exact ⟨['b', 'r'], hinner, ['b', 'r'], ⟨['a', 'b'], [], rfl⟩, hbr⟩

end Lint

end TemplateTidy
