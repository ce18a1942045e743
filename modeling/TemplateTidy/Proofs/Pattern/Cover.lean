import TemplateTidy.Proofs.Pattern.Images
import TemplateTidy.Proofs.Pattern.Parts
import TemplateTidy.Proofs.Text.Squeeze

/-! # Groups that cover a match

Where a written sequence is made of groups and of blanks between them, its groups hold all of a
match but blanks (`Pattern.solid_text`).  The groups of a written tree are numbered in the order of
their parentheses (`indices_nodes`), so no group overwrites another. -/

namespace TemplateTidy

open Text

namespace Pattern

/-! ### Numbers of groups -/

mutual

theorem Choice.indices_nodes (flags : Flags) : ∀ (e : Choice) (k : Nat),
    (e.nodes flags k).flatMap Node.indices = List.range' (k + 1) e.groups
  | .last e, k => by
      simp [Choice.nodes, Choice.groups, Node.indices_ofList, e.indices_nodes flags k]
  | .more e rest, k => by
      rw [Choice.nodes, Choice.groups, List.flatMap_cons, Node.indices_ofList,
        e.indices_nodes flags k,
        rest.indices_nodes flags (k + e.groups), ← List.range'_append_1, Nat.add_right_comm]

theorem Items.indices_nodes (flags : Flags) : ∀ (e : Items) (k : Nat),
    (e.nodes flags k).flatMap Node.indices = List.range' (k + 1) e.groups
  | .done _, k => rfl
  | .atom a rest, k => by
      rw [Items.nodes, Items.groups, List.flatMap_cons, a.indices_node flags k,
        rest.indices_nodes flags (k + a.groups), ← List.range'_append_1, Nat.add_right_comm]
  | .rep a m reluctant rest, k => by
      rw [Items.nodes, Items.groups, List.flatMap_cons, Node.indices, a.indices_node flags k,
        rest.indices_nodes flags (k + a.groups), ← List.range'_append_1, Nat.add_right_comm]
  | .back i, k => rfl

theorem Atom.indices_node (flags : Flags) : ∀ (a : Atom) (k : Nat),
    (a.node flags k).indices = List.range' (k + 1) a.groups
  | .sign s, k => rfl
  | .set .., k => rfl
  | .dot, k => rfl
  | .head, k => rfl
  | .tail, k => rfl
  | .edge, k => rfl
  | .keep, k => rfl
  | .paren p c, k => by
      have hc := c.indices_nodes flags (k + p.groups)
      rw [← Node.indices_choice] at hc
      cases p with
      | capture =>
        rw [Atom.node, Paren.wrap, Node.indices, hc, Atom.groups, Paren.groups, Nat.add_comm 1,
          List.range'_succ]
      | plain => simpa [Atom.node, Paren.wrap, Atom.groups, Paren.groups] using hc
      | look behind positive =>
        simpa [Atom.node, Paren.wrap, Node.indices, Atom.groups, Paren.groups] using hc

end

theorem Choice.nodup_indices (flags : Flags) (e : Choice) :
    (e.pattern flags).node.indices.Nodup := by
  rw [Choice.pattern, Choice.node, Node.indices_choice, e.indices_nodes flags 0]
  exact List.nodup_range'

end Pattern

/-! ### Blanks -/

/-- Whether a set holds blanks only. -/
def CharSet.isBlanks (cs : CharSet) : Bool :=
  cs.onlyOf isBlank || cs == { items := [.named .space true] }

theorem CharSet.isBlank_of_isBlanks {cs : CharSet} (h : cs.isBlanks = true) {c : Char}
    (hc : cs.holds c = true) : isBlank c = true := by
  obtain h | h := Bool.or_eq_true_iff.1 h
  · exact holds_onlyOf h hc
  · rw [beq_iff_eq] at h
    subst h
    exact isBlank_of_isSpace (by simpa [holds, CharItem.holds, CharClass.holds] using hc)

namespace Node

/-- Whether a pattern matches blanks only. -/
def isBlanks : Node → Bool
  | .one cs | .rep (.one cs) .. => cs.isBlanks
  | .empty | .anchor _ | .look .. => true
  | _ => false

theorem Lang.isBlank {n : Node} (h : n.isBlanks = true) {w : List Char} (hw : n.Lang w) :
    ∀ c ∈ w, Text.isBlank c = true := by
  intro c hc
  match n, h with
  | .one cs, h =>
    obtain ⟨d, rfl, hd⟩ := hw
    rw [List.mem_singleton.1 hc]
    exact CharSet.isBlank_of_isBlanks h hd
  | .rep (.one cs) .., h => exact CharSet.isBlank_of_isBlanks h (Lang.forall_of_rep hw c hc)
  | .empty, _ | .anchor _, _ | .look .., _ =>
    obtain rfl : w = [] := hw
    cases hc

/-- The group that a pattern is, or that it makes optional. -/
def held? : Node → Option Nat
  | .group i _ | .rep (.group i _) 0 (some 1) _ => some i
  | _ => none

@[simp] theorem held?_group (i : Nat) (a : Node) : (Node.group i a).held? = some i := rfl

theorem held?_of_isBlanks {n : Node} (h : n.isBlanks = true) : n.held? = none := by
  unfold held?
  split
  · cases h
  · cases h
  · rfl

theorem mem_indices_of_held? {n : Node} {i : Nat} (h : n.held? = some i) : i ∈ n.indices := by
  unfold held? at h
  split at h
  · simp_all [indices]
  · simp_all [indices]
  · cases h

end Node

/-- Where no number is used twice, each group of a sequence remembers its part of a match. -/
theorem Pattern.parts_held {p : Pattern} {ns : List Node} (hp : p.node = .ofList ns)
    (hk : p.node.keepless = true) (hd : p.node.indices.Nodup) {text : Array Char} {m : Match}
    (h : m ∈ p.findAll text) :
    ∃ ws : List (List Char), m.text text = ws.flatten ∧ List.Forall₂ Node.Lang ns ws ∧
      ∀ (k i : Nat) (n : Node), ns[k]? = some n → n.held? = some i →
        ws[k]? = some (m.capture text i) := by
  obtain ⟨ws, htext, hlang, hcap, hopt⟩ := parts_of_mem_findAll hp hk h
  refine ⟨ws, htext, hlang, fun k i n hn hheld => ?_⟩
  have hi := Node.mem_indices_of_held? hheld
  have hfree : ∀ a ∈ ns.take k ++ ns.drop (k + 1), i ∉ a.indices := by
    have hsplit : ns = ns.take k ++ n :: ns.drop (k + 1) := by
      rw [← (List.getElem?_eq_some_iff.1 hn).2, List.getElem_cons_drop, List.take_append_drop]
    intro a ha hmem
    rw [hp, Node.indices_ofList, hsplit, List.flatMap_append, List.flatMap_cons, List.nodup_append,
      List.nodup_append] at hd
    obtain ⟨-, ⟨-, -, hright⟩, hleft⟩ := hd
    obtain ha | ha := List.mem_append.1 ha
    · exact hleft i (List.mem_flatMap.2 ⟨a, ha, hmem⟩) i (List.mem_append_left _ hi) rfl
    · exact hright i hi i (List.mem_flatMap.2 ⟨a, ha, hmem⟩) rfl
  obtain ⟨w, hw⟩ : ∃ w, ws[k]? = some w :=
    ⟨_, List.getElem?_eq_getElem (hlang.length_eq ▸ (List.getElem?_eq_some_iff.1 hn).1)⟩
  unfold Node.held? at hheld
  split at hheld
  · obtain rfl := Option.some.inj hheld
    rw [Match.capture, hcap k _ _ hn fun a ha => hfree a (List.mem_append_right _ ha), hw]
    rfl
  · obtain rfl := Option.some.inj hheld
    exact (hopt k _ _ _ hn hfree).symm
  · cases hheld

/-- The same part by part. -/
theorem Pattern.parts_forall₂ {p : Pattern} {ns : List Node} (hp : p.node = .ofList ns)
    (hk : p.node.keepless = true) (hd : p.node.indices.Nodup) {text : Array Char} {m : Match}
    (h : m ∈ p.findAll text) :
    ∃ ws : List (List Char), m.text text = ws.flatten ∧
      List.Forall₂ (fun n w => n.Lang w ∧ ∀ i, n.held? = some i → w = m.capture text i) ns ws := by
  obtain ⟨ws, htext, hlang, hheld⟩ := parts_held hp hk hd h
  refine ⟨ws, htext, List.forall₂_iff_get.2 ⟨hlang.length_eq, fun k hn hw =>
    ⟨hlang.get hn hw, fun i hi => ?_⟩⟩⟩
  have hpart := hheld k i _ (List.getElem?_eq_getElem hn) hi
  rw [List.getElem?_eq_getElem hw] at hpart
  exact Option.some.inj hpart

/-- Where groups and blanks make up a sequence, the groups hold all of a match but blanks. -/
theorem Pattern.solid_text {p : Pattern} {ns : List Node} (hp : p.node = .ofList ns)
    (hk : p.node.keepless = true) (hd : p.node.indices.Nodup)
    (hns : ∀ n ∈ ns, n.isBlanks = true ∨ n.held?.isSome = true) {text : Array Char} {m : Match}
    (h : m ∈ p.findAll text) :
    solid (m.text text) = solid ((ns.filterMap Node.held?).flatMap (m.capture text)) := by
  obtain ⟨ws, htext, hparts⟩ := parts_forall₂ hp hk hd h
  rw [htext]
  clear hp hk hd htext
  induction hparts with
  | nil => rfl
  | @cons n w ns ws hw _ ih =>
    obtain ⟨hlang, hheld⟩ := hw
    rw [List.flatten_cons, solid_append, ih fun n hn => hns n (List.mem_cons_of_mem _ hn),
      List.filterMap_cons]
    -- a part is what the group of its pattern holds, or blanks
    cases hi : n.held? with
    | none =>
      have hblank := (hns n List.mem_cons_self).resolve_right (by simp [hi])
      rw [solid_eq_nil (hlang.isBlank hblank)]
      rfl
    | some i => rw [hheld i hi, List.flatMap_cons, solid_append]

/-- What the groups of a sequence hold stands in the match, in their order. -/
theorem Pattern.captures_sublist {p : Pattern} {ns : List Node} (hp : p.node = .ofList ns)
    (hk : p.node.keepless = true) (hd : p.node.indices.Nodup) {text : Array Char} {m : Match}
    (h : m ∈ p.findAll text) :
    ((ns.filterMap Node.held?).flatMap (m.capture text)).Sublist (m.text text) := by
  obtain ⟨ws, htext, hparts⟩ := parts_forall₂ hp hk hd h
  rw [htext]
  clear hp hk hd htext
  induction hparts with
  | nil => exact .slnil
  | @cons n w ns ws hw _ ih =>
    rw [List.flatten_cons, List.filterMap_cons]
    cases hi : n.held? with
    | none => exact ih.trans (List.sublist_append_right w _)
    | some i =>
      rw [hw.2 i hi, List.flatMap_cons]
      exact (List.Sublist.refl _).append ih

theorem Pattern.squeeze_text {p : Pattern} {ns : List Node} (hp : p.node = .ofList ns)
    (hk : p.node.keepless = true) (hd : p.node.indices.Nodup)
    (hns : ∀ n ∈ ns, n.isBlanks = true ∨ n.held?.isSome = true) {text : Array Char} {m : Match}
    (h : m ∈ p.findAll text) :
    squeeze (m.text text) = squeeze ((ns.filterMap Node.held?).flatMap (m.capture text)) := by
  rw [squeeze_eq_solid, solid_text hp hk hd hns h, squeeze_eq_solid]

theorem Pattern.keepless_written {flags : Flags} {e : Items} (hk : e.keepless = true) :
    ((Choice.last e).pattern flags).node.keepless = true := by
  have := Choice.keepless_nodes flags (e := .last e) hk 0
  rwa [← Node.keepless_choice] at this

/-- The same for a written sequence, whose groups are numbered in order. -/
theorem Pattern.solid_written {flags : Flags} {e : Items} (hk : e.keepless = true)
    (hns : ((e.nodes flags 0).all fun n => n.isBlanks || n.held?.isSome) = true) {text : Array Char}
    {m : Match} (h : m ∈ ((Choice.last e).pattern flags).findAll text) :
    solid (m.text text) =
      solid (((e.nodes flags 0).filterMap Node.held?).flatMap (m.capture text)) := by
  refine solid_text rfl (keepless_written hk) (Choice.nodup_indices flags (.last e))
    (fun n hn => ?_) h
  simpa using List.all_eq_true.1 hns n hn

theorem Pattern.captures_written {flags : Flags} {e : Items} (hk : e.keepless = true)
    {text : Array Char} {m : Match} (h : m ∈ ((Choice.last e).pattern flags).findAll text) :
    (((e.nodes flags 0).filterMap Node.held?).flatMap (m.capture text)).Sublist (m.text text) :=
  captures_sublist rfl (keepless_written hk) (Choice.nodup_indices flags (.last e)) h

theorem Pattern.squeeze_written {flags : Flags} {e : Items} (hk : e.keepless = true)
    (hns : ((e.nodes flags 0).all fun n => n.isBlanks || n.held?.isSome) = true) {text : Array Char}
    {m : Match} (h : m ∈ ((Choice.last e).pattern flags).findAll text) :
    squeeze (m.text text) =
      squeeze (((e.nodes flags 0).filterMap Node.held?).flatMap (m.capture text)) := by
  rw [squeeze_eq_solid, solid_written hk hns h, squeeze_eq_solid]

/-! ### What a match must hold -/

namespace Node

/-- Whether each match of a pattern holds a character. -/
def needs (c : Char) : Node → Bool
  | .one cs => cs.onlyOf (· == c)
  | .seq a b => a.needs c || b.needs c
  | .alt a b => a.needs c && b.needs c
  | .group _ a | .atomic a => a.needs c
  | .rep a least _ _ => 1 ≤ least && a.needs c
  | .fail => true
  | _ => false

theorem needs_ofList (c : Char) : ∀ ns : List Node, (ofList ns).needs c = ns.any (needs c)
  | [] => rfl
  | [n] => by simp [ofList]
  | n :: n' :: ns => by
      rw [ofList, needs, needs_ofList c (n' :: ns)]
      rfl

theorem Lang.mem_of_needs {c : Char} {n : Node} : ∀ {w : List Char}, n.needs c = true → n.Lang w →
    c ∈ w := by
  induction n with
  | one cs =>
    intro w h hw
    rw [hw.eq_singleton h]
    exact List.mem_singleton_self c
  | seq a b iha ihb =>
    rintro w h ⟨u, v, rfl, hu, hv⟩
    obtain h | h := Bool.or_eq_true_iff.1 h
    · exact List.mem_append_left _ (iha h hu)
    · exact List.mem_append_right _ (ihb h hv)
  | alt a b iha ihb =>
    rintro w h (hw | hw)
    · exact iha (Bool.and_eq_true_iff.1 h).1 hw
    · exact ihb (Bool.and_eq_true_iff.1 h).2 hw
  | group i a ih => exact fun h hw => ih h hw
  | atomic a ih => exact fun h hw => ih h hw
  | rep a least most reluctant ih =>
    rintro w h ⟨us, rfl, hus, hne, -⟩
    obtain ⟨hleast, ha⟩ : 1 ≤ least ∧ a.needs c = true := by simpa [needs] using h
    obtain ⟨u, us, rfl⟩ := List.exists_cons_of_ne_nil (hne hleast)
    exact List.mem_append_left _ (ih ha (hus u (by simp)))
  | fail => exact fun _ hw => hw.elim
  | empty | anchor | «recall» | look | keep | ifGroup =>
    intro w h
    simp [needs] at h

end Node

/-- A pattern finds nothing in a text without a character that its matches hold. -/
theorem Pattern.findAll_eq_nil_of_needs {p : Pattern} {c : Char} (hp : p.node.needs c = true)
    {text : Array Char} (h : c ∉ text.toList) : p.findAll text = [] := by
  refine findAll_eq_nil ?_
  rintro scene rfl i q - hq
  exact h (mem_of_mem_between (hq.lang.mem_of_needs hp))

end TemplateTidy
