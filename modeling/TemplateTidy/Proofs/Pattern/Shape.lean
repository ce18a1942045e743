import TemplateTidy.Proofs.Pattern.Names
import TemplateTidy.Proofs.Pattern.Search

/-! # What the pattern of a tree may do

The pattern of a tree never asks where the search began (`Choice.originFree_node`), and the reported
match begins elsewhere only if the tree says so (`Choice.keepless_nodes`).  `parts` lists the groups
that make up each match of a pattern but for blanks (`squeeze_of_mem_findAll`). -/

namespace TemplateTidy

namespace Node

theorem originFree_ofList : ∀ ns : List Node, (ofList ns).originFree = ns.all originFree
  | [] => rfl
  | [n] => by simp [ofList]
  | n :: n' :: ns => by
      rw [ofList, originFree, originFree_ofList (n' :: ns)]
      rfl

theorem originFree_choice : ∀ ns : List Node, (choice ns).originFree = ns.all originFree
  | [] => rfl
  | [n] => by simp [choice]
  | n :: n' :: ns => by
      rw [choice, originFree, originFree_choice (n' :: ns)]
      rfl

/-- Whether the pattern leaves the beginning of the reported match alone. -/
def keepless : Node → Bool
  | .keep => false
  | .seq a b | .alt a b | .ifGroup _ a b => a.keepless && b.keepless
  | .group _ a | .rep a .. | .atomic a => a.keepless
  | _ => true

theorem keepless_ofList : ∀ ns : List Node, (ofList ns).keepless = ns.all keepless
  | [] => rfl
  | [n] => by simp [ofList]
  | n :: n' :: ns => by
      rw [ofList, keepless, keepless_ofList (n' :: ns)]
      rfl

theorem keepless_choice : ∀ ns : List Node, (choice ns).keepless = ns.all keepless
  | [] => rfl
  | [n] => by simp [choice]
  | n :: n' :: ns => by
      rw [choice, keepless, keepless_choice (n' :: ns)]
      rfl

theorem Reach.start_eq {scene : Scene} {n : Node} (hn : n.keepless = true) :
    ∀ {p q : Point}, n.Reach scene false p q → q.start = p.start := by
  induction n with
  | empty => rintro p q rfl; rfl
  | fail => rintro p q ⟨⟩
  | one cs =>
    intro p q h
    obtain ⟨c, -, -, rfl⟩ := Scene.stepOver_forward.1 h
    rfl
  | anchor a => rintro p q ⟨-, rfl⟩; rfl
  | seq a b iha ihb =>
    simp only [keepless, Bool.and_eq_true] at hn
    rintro p q ⟨m, h1, h2⟩
    rw [ihb hn.2 h2, iha hn.1 h1]
  | alt a b iha ihb =>
    simp only [keepless, Bool.and_eq_true] at hn
    rintro p q (h | h)
    · exact iha hn.1 h
    · exact ihb hn.2 h
  | group i a ih =>
    rintro p q ⟨m, h, rfl⟩
    exact (ih hn h :)
  | «recall» i folding =>
    rintro p q ⟨held, -, h⟩
    simp only [Scene.stepOverSpan, Bool.false_eq_true, if_false] at h
    split at h
    · obtain rfl := Option.some.inj h
      rfl
    · simp at h
  | rep a least most reluctant ih =>
    rintro p q ⟨n, -, -, h⟩
    exact h.preorder (S := fun p q => q.start = p.start) (fun p => rfl) (fun p q r h h' =>
      h'.trans h)
      fun p q h => ih hn h
  | look behind positive a ih =>
    intro p q h
    cases positive with
    | true => obtain ⟨m, -, rfl⟩ := h; rfl
    | false => obtain ⟨-, rfl⟩ := h; rfl
  | atomic a ih => intro p q h; exact ih hn h
  | keep => simp [keepless] at hn
  | ifGroup i yes no ihy ihn =>
    simp only [keepless, Bool.and_eq_true] at hn
    intro p q h
    rw [Reach] at h
    split at h
    · exact ihy hn.1 h
    · exact ihn hn.2 h

end Node

namespace Pattern

mutual

theorem Choice.originFree_nodes (flags : Flags) : ∀ (e : Choice) (k : Nat),
    (e.nodes flags k).all Node.originFree = true
  | .last e, k => by simp [Choice.nodes, Node.originFree_ofList, e.originFree_nodes]
  | .more e rest, k => by
      simp [Choice.nodes, Node.originFree_ofList, e.originFree_nodes, rest.originFree_nodes]

theorem Items.originFree_nodes (flags : Flags) : ∀ (e : Items) (k : Nat),
    (e.nodes flags k).all Node.originFree = true
  | .done _, _ | .back _, _ => rfl
  | .atom a rest, k | .rep a m r rest, k => by
      rw [Items.nodes, List.all_cons, rest.originFree_nodes, Bool.and_true]
      exact a.originFree_node flags k

theorem Atom.originFree_node (flags : Flags) : ∀ (a : Atom) (k : Nat),
    (a.node flags k).originFree = true
  | .sign _, _ | .set .., _ | .dot, _ | .edge, _ | .keep, _ => rfl
  | .head, _ | .tail, _ => by simp only [Atom.node]; split <;> rfl
  | .paren p c, k => by
      have h : (Node.choice (c.nodes flags (k + p.groups))).originFree = true := by
        rw [Node.originFree_choice, c.originFree_nodes]
      cases p <;> exact h

end

theorem Choice.originFree_node (flags : Flags) (e : Choice) : (e.node flags).originFree = true := by
  rw [Choice.node, Node.originFree_choice, e.originFree_nodes]

mutual

theorem Choice.keepless_nodes (flags : Flags) : ∀ {e : Choice}, e.keepless = true → ∀ k : Nat,
    (e.nodes flags k).all Node.keepless = true
  | .last e, h, k => by simp [Choice.nodes, Node.keepless_ofList, e.keepless_nodes flags h]
  | .more e rest, h, k => by
      obtain ⟨he, hrest⟩ := Bool.and_eq_true_iff.1 h
      simp [Choice.nodes, Node.keepless_ofList, e.keepless_nodes flags he,
        rest.keepless_nodes flags hrest]

theorem Items.keepless_nodes (flags : Flags) : ∀ {e : Items}, e.keepless = true → ∀ k : Nat,
    (e.nodes flags k).all Node.keepless = true
  | .done _, _, _ | .back _, _, _ => rfl
  | .atom a rest, h, k | .rep a m r rest, h, k => by
      obtain ⟨ha, hrest⟩ := Bool.and_eq_true_iff.1 h
      rw [Items.nodes, List.all_cons, rest.keepless_nodes flags hrest, Bool.and_true]
      exact a.keepless_node flags ha k

theorem Atom.keepless_node (flags : Flags) : ∀ {a : Atom}, a.keepless = true → ∀ k : Nat,
    (a.node flags k).keepless = true
  | .sign _, _, _ | .set .., _, _ | .dot, _, _ | .edge, _, _ | .head, _, _ | .tail, _, _ => rfl
  | .paren p c, h, k => by
      have hc : (Node.choice (c.nodes flags (k + p.groups))).keepless = true := by
        rw [Node.keepless_choice, c.keepless_nodes flags h]
      cases p with
      | look behind positive => rfl
      | capture | plain => exact hc

end

end Pattern

end TemplateTidy
