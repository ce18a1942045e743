import TemplateTidy.Proofs.Pattern.Shape
import TemplateTidy.Proofs.Text.Case

/-! # The parts of a match

A match of a sequence falls into one part for each pattern of the sequence, and a group of the
sequence remembers its part (`Reach.parts`).  So the text of a match is put together from its
captures and from what stands between them. -/

namespace TemplateTidy

namespace Node

theorem indices_ofList : ∀ ns : List Node, (ofList ns).indices = ns.flatMap indices
  | [] => rfl
  | [n] => by simp [ofList]
  | n :: n' :: ns => by
      rw [ofList, indices, indices_ofList (n' :: ns)]
      rfl

theorem indices_choice : ∀ ns : List Node, (choice ns).indices = ns.flatMap indices
  | [] => rfl
  | [n] => by simp [choice]
  | n :: n' :: ns => by
      rw [choice, indices, indices_choice (n' :: ns)]
      rfl

theorem reach_ofList_cons {scene : Scene} {n : Node} {ns : List Node} {p q : Point} :
    (ofList (n :: ns)).Reach scene false p q ↔
      ∃ m, n.Reach scene false p m ∧ (ofList ns).Reach scene false m q := by
  cases ns with
  | nil =>
    constructor
    · exact fun h => ⟨q, h, rfl⟩
    · rintro ⟨m, h, rfl⟩
      exact h
  | cons n' ns => rfl

theorem lang_ofList : ∀ {ns : List Node} {w : List Char},
    (ofList ns).Lang w ↔ ∃ ws : List (List Char), w = ws.flatten ∧ List.Forall₂ Lang ns ws
  | [], w => by simp [ofList, Lang]
  | [n], w => by simp [ofList, List.forall₂_cons_left_iff]
  | n :: n' :: ns, w => by
      rw [exists_congr fun ws => and_congr_right' List.forall₂_cons_left_iff, ofList, Lang]
      simp only [@lang_ofList (n' :: ns)]
      constructor
      · rintro ⟨u, v, rfl, hu, ws, rfl, hws⟩
        exact ⟨u :: ws, by simp, u, ws, hu, hws, rfl⟩
      · rintro ⟨ws, rfl, u, us, hu, hus, rfl⟩
        exact ⟨u, us.flatten, by simp, hu, us, rfl, hus⟩

/-- An optional group remembers its part; if it is left out, the part is empty. -/
theorem Reach.group?_optional {scene : Scene} {i : Nat} {a : Node} {reluctant : Bool} {p q : Point}
    (hp : p.group? i = none)
    (h : (Node.rep (.group i a) 0 (some 1) reluctant).Reach scene false p q) :
    ((q.group? i).map (·.of scene.text)).getD [] = between scene.text p.pos q.pos := by
  obtain ⟨k, -, hk, hiter⟩ := h
  match k, hk 1 rfl with
  | 0, _ =>
    obtain rfl := Iter.zero_iff.1 hiter
    simp [hp]
  | 1, _ =>
    obtain ⟨r, ⟨r', hr, rfl⟩, hrest⟩ := Iter.succ_iff.1 hiter
    obtain rfl := Iter.zero_iff.1 hrest
    simp only [Point.group?, List.lookup_cons, beq_self_eq_true, Option.map_some, Option.getD_some]
    rfl

/-- A match of a sequence falls into parts, which the groups of the sequence remember. -/
theorem Reach.parts {scene : Scene} : ∀ {ns : List Node} {p q : Point},
    (ofList ns).Reach scene false p q →
      ∃ ws : List (List Char), between scene.text p.pos q.pos = ws.flatten ∧
        List.Forall₂ Lang ns ws ∧
        (∀ k i a, ns[k]? = some (.group i a) → (∀ n ∈ ns.drop (k + 1), i ∉ n.indices) →
          (q.group? i).map (·.of scene.text) = ws[k]?) ∧
        ∀ k i a reluctant, ns[k]? = some (.rep (.group i a) 0 (some 1) reluctant) →
          p.group? i = none → (∀ n ∈ ns.take k ++ ns.drop (k + 1), i ∉ n.indices) →
          some (((q.group? i).map (·.of scene.text)).getD []) = ws[k]?
  | [], p, q, h => by
      obtain rfl : q = p := h
      exact ⟨[], by simp, .nil, by simp, by simp⟩
  | n :: ns, p, q, h => by
      obtain ⟨m, hn, hns⟩ := reach_ofList_cons.1 h
      obtain ⟨ws, htext, hlang, hcap, hopt⟩ := hns.parts
      have hlater : ∀ {i : Nat}, (∀ n ∈ ns, i ∉ n.indices) → q.group? i = m.group? i := by
        intro i hi
        refine hns.group?_eq ?_
        rw [indices_ofList, List.mem_flatMap]
        rintro ⟨n, hn, hmem⟩
        exact hi n hn hmem
      refine ⟨between scene.text p.pos m.pos :: ws, ?_, .cons hn.lang hlang, ?_, ?_⟩
      · rw [List.flatten_cons, ← htext,
          between_append _ (hn.moves.forward rfl) (hns.moves.forward rfl)]
      · intro k i a hk hfree
        cases k with
        | zero =>
          obtain rfl : n = .group i a := by simpa using hk
          obtain ⟨r, hr, rfl⟩ := hn
          rw [hlater (by simpa using hfree)]
          simp only [Point.group?, List.lookup_cons, beq_self_eq_true, Option.map_some,
            List.getElem?_cons_zero]
          rfl
        | succ k => exact hcap k i a (by simpa using hk) (by simpa using hfree)
      · intro k i a reluctant hk hp hfree
        cases k with
        | zero =>
          obtain rfl : n = .rep (.group i a) 0 (some 1) reluctant := by simpa using hk
          rw [hlater (by simpa using hfree), hn.group?_optional hp, List.getElem?_cons_zero]
        | succ k =>
          have hfirst : i ∉ n.indices := hfree n (by simp)
          refine hopt k i a reluctant (by simpa using hk)
            (by rw [hn.group?_eq hfirst, hp]) fun n hn => ?_
          refine hfree n ?_
          simp only [List.take_succ_cons, List.drop_succ_cons, List.cons_append, List.mem_cons]
          exact .inr hn

end Node

/-- The text of a match falls into parts, which the groups of the sequence remember. -/
theorem Pattern.parts_of_mem_findAll {p : Pattern} {ns : List Node} (hp : p.node = .ofList ns)
    (hk : p.node.keepless = true) {text : Array Char} {m : Match} (h : m ∈ p.findAll text) :
    ∃ ws : List (List Char), m.text text = ws.flatten ∧ List.Forall₂ Node.Lang ns ws ∧
      (∀ k i a, ns[k]? = some (.group i a) → (∀ n ∈ ns.drop (k + 1), i ∉ n.indices) →
        m.capture? text i = ws[k]?) ∧
      ∀ k i a reluctant, ns[k]? = some (.rep (.group i a) 0 (some 1) reluctant) →
        (∀ n ∈ ns.take k ++ ns.drop (k + 1), i ∉ n.indices) → some (m.capture text i) = ws[k]? := by
  obtain ⟨origin, i, q, -, hq, rfl⟩ := exists_reach_of_mem_findAll h
  have hstart : q.start = i := hq.start_eq hk
  rw [hp] at hq
  obtain ⟨ws, htext, hlang, hcap, hopt⟩ := hq.parts
  refine ⟨ws, ?_, hlang, hcap, fun k i a r hk hfree => hopt k i a r hk rfl hfree⟩
  rw [← htext]
  show between text q.start q.pos = between text i q.pos
  rw [hstart]

/-! ### Single characters -/

/-- A set of one character without case holds that character only. -/
theorem CharSet.eq_of_holds {cs : CharSet} {a c : Char} (h : cs.onlyOf (· == a) = true)
    (hc : cs.holds c = true) : c = a := by
  simpa using CharSet.holds_onlyOf h hc

theorem Node.Lang.eq_singleton {cs : CharSet} {a : Char} {w : List Char} (hw : (Node.one cs).Lang w)
    (h : cs.onlyOf (· == a) = true) : w = [a] := by
  obtain ⟨c, rfl, hc⟩ := hw
  rw [CharSet.eq_of_holds h hc]

theorem Node.Lang.forall_of_rep {cs : CharSet} {least : Nat} {most : Option Nat} {reluctant : Bool}
    {w : List Char} (hw : (Node.rep (.one cs) least most reluctant).Lang w) :
    ∀ c ∈ w, cs.holds c = true := by
  obtain ⟨us, rfl, hus, -, -⟩ := hw
  intro c hc
  obtain ⟨u, hu, hcu⟩ := List.mem_flatten.1 hc
  obtain ⟨d, rfl, hd⟩ := hus u hu
  rw [List.mem_singleton.1 hcu]
  exact hd

/-- A sequence with a single character in it matches no empty text. -/
theorem Node.Lang.ne_nil {ns : List Node} {cs : CharSet} {w : List Char} (hw : (ofList ns).Lang w)
    (h : .one cs ∈ ns) : w ≠ [] := by
  obtain ⟨ws, rfl, hws⟩ := lang_ofList.1 hw
  clear hw
  induction hws with
  | nil => cases h
  | cons hu _ ih =>
    obtain rfl | h := List.mem_cons.1 h
    · obtain ⟨c, rfl, -⟩ := hu
      simp
    · simp only [List.flatten_cons, ne_eq, List.append_eq_nil_iff, not_and]
      exact fun _ => ih h

/-- A sequence that ends with a single character matches texts that end with it. -/
theorem Node.Lang.getLast? {ns : List Node} {cs : CharSet} {w : List Char}
    (hw : (ofList ns).Lang w) (h : ns.getLast? = some (.one cs)) :
    ∃ c, w.getLast? = some c ∧ cs.holds c = true := by
  obtain ⟨ws, rfl, hws⟩ := lang_ofList.1 hw
  obtain ⟨front, rfl⟩ := List.getLast?_eq_some_iff.1 h
  rw [← List.forall₂_reverse_iff, List.reverse_append, List.reverse_singleton,
    List.singleton_append, List.forall₂_cons_left_iff] at hws
  obtain ⟨v, us, ⟨c, rfl, hc⟩, -, hrev⟩ := hws
  obtain rfl : ws = us.reverse ++ [[c]] := by
    rw [← List.reverse_reverse ws, hrev, List.reverse_cons]
  exact ⟨c, by simp, hc⟩

end TemplateTidy
