import TemplateTidy.Proofs.Pattern.Reading

/-! # Choices of names

`words` is the tree of a choice between words, each a list of atoms.  Where the words are well
written and open no group, the choice is (`okIn_words`), and it prints as the words with bars
between them (`print_words`) and stands for the choice of their patterns (`nodes_words`). -/

namespace TemplateTidy

namespace Pattern

open Text

attribute [simp] Sign.print Choice.print Items.print Atom.print Paren.text Mark.char isSpecial
attribute [simp] Choice.groups Items.groups Atom.groups Paren.groups Choice.backs
  Items.backs Atom.backs
attribute [simp] Sign.ok Sign.okInSet Choice.okIn Items.okIn Atom.okIn Paren.opened

/-! ### Building trees -/

/-- The atoms of plain characters. -/
def lits (text : List Char) : List Atom :=
  text.map fun c => .sign (.lit c)

/-- How a character of a text is written: braces by number, other special characters escaped. -/
@[simp] def signOf (c : Char) : Sign :=
  if c = '{' then .brace false
  else if c = '}' then .brace true
  else if isSpecial c || c == '#' then .escaped c
  else .lit c

/-- A sequence of atoms before others. -/
def Items.atoms (atoms : List Atom) (rest : Items) : Items :=
  atoms.foldr .atom rest

namespace Items

/-- A text before other items. -/
def text (s : String) (rest : Items) : Items :=
  .atoms (s.toList.map fun c => .sign (signOf c)) rest

/-- As many of an atom as possible. -/
abbrev many (a : Atom) (rest : Items) : Items := .rep a .any false rest

/-- As few of an atom as possible. -/
abbrev few (a : Atom) (rest : Items) : Items := .rep a .any true rest

/-- An atom that may be left out. -/
abbrev maybe (a : Atom) (rest : Items) : Items := .rep a .optional false rest

abbrev fin : Items := .done false

end Items

namespace Atom

abbrev lit (c : Char) : Atom := .sign (.lit c)

abbrev escaped (c : Char) : Atom := .sign (.escaped c)

/-- One space. -/
abbrev blank : Atom := .set false (.lit ' ') []

/-- One character of white space. -/
abbrev space : Atom := .sign (.space true)

abbrev plain (c : Choice) : Atom := .paren .plain c

abbrev capture (c : Choice) : Atom := .paren .capture c

abbrev ahead (c : Choice) : Atom := .paren (.look false true) c

abbrev notAhead (c : Choice) : Atom := .paren (.look false false) c

/-- A character before which the choice does not stand. -/
abbrev without (c : Choice) : Atom :=
  .plain <| .last <| .atom (.notAhead c) <| .atom .dot .fin

end Atom

/-- A choice between sequences. -/
def Choice.any : List Items → Choice
  | [] => .last .fin
  | [e] => .last e
  | e :: e' :: es => .more e (any (e' :: es))

theorem print_any : ∀ es : List Items,
    (Choice.any es).print = ['|'].intercalate (es.map Items.print)
  | [] => rfl
  | [e] => by simp [Choice.any]
  | e :: e' :: es => by
      rw [Choice.any, Choice.print, print_any (e' :: es)]
      simp [List.intercalate]

theorem print_any_append : ∀ {es es' : List Items}, es ≠ [] → es' ≠ [] →
    (Choice.any (es ++ es')).print = (Choice.any es).print ++ '|' :: (Choice.any es').print
  | [], _, h, _ => absurd rfl h
  | _ :: _, [], _, h => absurd rfl h
  | [e], e' :: es', _, _ => by simp [Choice.any]
  | e :: d :: es, e' :: es', _, h => by
      rw [List.cons_append, List.cons_append, Choice.any, ← List.cons_append, Choice.print,
        print_any_append (by simp) h]
      simp [Choice.any]

theorem groups_any : ∀ es : List Items, (Choice.any es).groups = (es.map Items.groups).sum
  | [] => rfl
  | [e] => by simp [Choice.any]
  | e :: e' :: es => by
      rw [Choice.any, Choice.groups, groups_any (e' :: es)]
      rfl

theorem backs_any : ∀ es : List Items, (Choice.any es).backs = es.flatMap Items.backs
  | [] => rfl
  | [e] => by simp [Choice.any]
  | e :: e' :: es => by
      rw [Choice.any, Choice.backs, backs_any (e' :: es)]
      rfl

theorem okIn_any_append (flags : Flags) (opened : List Nat) : ∀ {es es' : List Items} (k : Nat),
    es ≠ [] → es' ≠ [] → (Choice.any (es ++ es')).okIn flags opened k =
      ((Choice.any es).okIn flags opened k &&
        (Choice.any es').okIn flags opened (k + (Choice.any es).groups))
  | [], _, _, h, _ => absurd rfl h
  | _ :: _, [], _, _, h => absurd rfl h
  | [e], e' :: es', k, _, _ => rfl
  | e :: d :: es, e' :: es', k, _, h => by
      rw [List.cons_append, List.cons_append, Choice.any, ← List.cons_append, Choice.okIn,
        okIn_any_append flags opened (k + e.groups) (by simp) h]
      simp [Choice.any, Bool.and_assoc, Nat.add_assoc]

/-- A choice between words; it ends with a line feed if `blank`. -/
def words (blank : Bool) : List (List Atom) → Choice
  | [] => .last (.done blank)
  | [w] => .last (.atoms w (.done blank))
  | w :: w' :: ws => .more (.atoms w (.done false)) (words blank (w' :: ws))

section atoms

variable {atoms : List Atom} {rest : Items}

theorem print_atoms : (Items.atoms atoms rest).print = atoms.flatMap Atom.print ++ rest.print := by
  induction atoms with
  | nil => rfl
  | cons a atoms ih =>
    rw [Items.atoms, List.foldr_cons, Items.print, ← Items.atoms, ih, List.flatMap_cons,
      List.append_assoc]

@[simp] theorem print_text (s : String) :
    (Items.text s rest).print = (s.toList.flatMap fun c => (signOf c).print) ++ rest.print := by
  rw [Items.text, print_atoms, List.flatMap_map]
  rfl

@[simp] theorem okIn_text (s : String) (flags : Flags) (opened : List Nat) (k : Nat) :
    (Items.text s rest).okIn flags opened k =
      ((s.toList.all fun c => (signOf c).ok flags) && rest.okIn flags opened k) := by
  rw [Items.text]
  induction s.toList with
  | nil => rfl
  | cons c text ih =>
    rw [List.map_cons, Items.atoms, List.foldr_cons, Items.okIn, ← Items.atoms,
      show (Atom.sign (signOf c)).groups = 0 from rfl, Nat.add_zero, ih, List.all_cons,
        Bool.and_assoc]
    rfl

@[simp] theorem clear_paren (p : Paren) (c : Choice) :
    (Items.atom (.paren p c) rest).clear = true :=
  rfl

@[simp] theorem clear_text (s : String) :
    (Items.text s rest).clear =
      match s.toList with
      | c :: _ => (Atom.sign (signOf c)).clear
      | [] => rest.clear := by
  rw [Items.text]
  cases s.toList <;> rfl

@[simp] theorem isEmpty_sign (flags : Flags) (s : Sign) (k : Nat) :
    ((Atom.sign s).node flags k).isEmpty = false :=
  rfl

@[simp] theorem isEmpty_set (flags : Flags) (negated : Bool) (s : Sign)
    (more : List Sign) (k : Nat) : ((Atom.set negated s more).node flags k).isEmpty = false :=
  rfl

@[simp] theorem isEmpty_dot (flags : Flags) (k : Nat) : (Atom.dot.node flags k).isEmpty = false :=
  rfl

@[simp] theorem isEmpty_capture (flags : Flags) (c : Choice) (k : Nat) :
    ((Atom.capture c).node flags k).isEmpty = false :=
  rfl

theorem groups_atoms (h : ∀ a ∈ atoms, a.groups = 0) :
    (Items.atoms atoms rest).groups = rest.groups := by
  induction atoms with
  | nil => rfl
  | cons a atoms ih =>
    rw [Items.atoms, List.foldr_cons, Items.groups, ← Items.atoms, ih fun a ha =>
      h a (by simp [ha]), h a (by simp), Nat.zero_add]

@[simp] theorem groups_text (s : String) : (Items.text s rest).groups = rest.groups :=
  groups_atoms fun a ha => by
    obtain ⟨c, -, rfl⟩ := List.mem_map.1 ha
    rfl

theorem nodes_atoms (h : ∀ a ∈ atoms, a.groups = 0) (flags : Flags) (k : Nat) :
    (Items.atoms atoms rest).nodes flags k = atoms.map (·.node flags k) ++ rest.nodes flags k := by
  induction atoms with
  | nil => rfl
  | cons a atoms ih =>
    rw [Items.atoms, List.foldr_cons, Items.nodes, ← Items.atoms, h a (by simp), Nat.add_zero,
      ih fun a ha => h a (by simp [ha])]
    rfl

theorem okIn_atoms (h : ∀ a ∈ atoms, a.groups = 0) {flags : Flags} {opened : List Nat} {k : Nat}
    (hok : ∀ a ∈ atoms, a.okIn flags opened k = true) (hrest : rest.okIn flags opened k = true) :
    (Items.atoms atoms rest).okIn flags opened k = true := by
  induction atoms with
  | nil => exact hrest
  | cons a atoms ih =>
    rw [Items.atoms, List.foldr_cons, Items.okIn, ← Items.atoms, h a (by simp), Nat.add_zero,
      hok a (by simp), ih (fun a ha => h a (by simp [ha])) fun a ha => hok a (by simp [ha])]
    rfl

end atoms

/-- The words open no group. -/
def Groupless (ws : List (List Atom)) : Prop :=
  ∀ w ∈ ws, ∀ a ∈ w, a.groups = 0

theorem Groupless.head {w : List Atom} {ws : List (List Atom)} (h : Groupless (w :: ws)) :
    ∀ a ∈ w, a.groups = 0 :=
  h w (by simp)

theorem Groupless.tail {w : List Atom} {ws : List (List Atom)} (h : Groupless (w :: ws)) :
    Groupless ws :=
  fun v hv => h v (by simp [hv])

theorem print_words (blank : Bool) : ∀ ws : List (List Atom),
    (words blank ws).print =
      ['|'].intercalate (ws.map (·.flatMap Atom.print)) ++ if blank then ['\n'] else []
  | [] => rfl
  | [w] => by simp [words, Choice.print, print_atoms, Items.print]
  | w :: w' :: ws => by
      rw [words, Choice.print, print_words blank (w' :: ws), print_atoms]
      simp [Items.print, List.intercalate]

theorem groups_words (blank : Bool) : ∀ {ws : List (List Atom)}, Groupless ws →
    (words blank ws).groups = 0
  | [], _ => rfl
  | [_], h => groups_atoms h.head
  | w :: w' :: ws, h => by
      rw [words, Choice.groups, groups_atoms h.head, groups_words blank h.tail]
      rfl

theorem nodes_words (blank : Bool) (flags : Flags) (k : Nat) : ∀ {ws : List (List Atom)},
    Groupless ws → ws ≠ [] →
      (words blank ws).nodes flags k = ws.map fun w => Node.ofList (w.map (·.node flags k))
  | [], _, hne => absurd rfl hne
  | [_], h, _ => by simp [words, Choice.nodes, nodes_atoms h.head, Items.nodes]
  | w :: w' :: ws, h, _ => by
      rw [words, Choice.nodes, nodes_atoms h.head, groups_atoms h.head,
        show (Items.done false).groups = 0 from rfl, Nat.add_zero,
        nodes_words blank flags k h.tail (by simp), Items.nodes, List.append_nil]
      rfl

theorem okIn_words {blank : Bool} {flags : Flags} {opened : List Nat} {k : Nat}
    (hblank : blank = true → flags.verbose = true) : ∀ {ws : List (List Atom)}, Groupless ws →
      (∀ w ∈ ws, ∀ a ∈ w, a.okIn flags opened k = true) →
      (words blank ws).okIn flags opened k = true := by
  have hdone : (Items.done blank).okIn flags opened k = true := by
    cases blank with
    | false => rfl
    | true => simpa [Items.okIn] using hblank rfl
  intro ws
  induction ws with
  | nil => exact fun _ _ => hdone
  | cons w ws ih =>
    intro h hok
    cases ws with
    | nil => exact okIn_atoms h.head (hok w (by simp)) hdone
    | cons w' ws =>
      rw [words, Choice.okIn, okIn_atoms h.head (hok w (by simp)) rfl, groups_atoms h.head,
        show (Items.done false).groups = 0 from rfl, Nat.add_zero,
        ih h.tail fun v hv => hok v (by simp [hv])]
      rfl

theorem backs_atoms {atoms : List Atom} {rest : Items} (h : ∀ a ∈ atoms, a.backs = []) :
    (Items.atoms atoms rest).backs = rest.backs := by
  induction atoms with
  | nil => rfl
  | cons a atoms ih =>
    rw [Items.atoms, List.foldr_cons, Items.backs, ← Items.atoms, h a (by simp),
      ih fun a ha => h a (by simp [ha])]
    rfl

@[simp] theorem backs_text (s : String) (rest : Items) : (Items.text s rest).backs = rest.backs :=
  backs_atoms fun a ha => by
    obtain ⟨c, -, rfl⟩ := List.mem_map.1 ha
    rfl

theorem backs_words (blank : Bool) : ∀ {ws : List (List Atom)},
    (∀ w ∈ ws, ∀ a ∈ w, a.backs = []) → (words blank ws).backs = []
  | [], _ => rfl
  | [_], h => backs_atoms (h _ (by simp))
  | w :: w' :: ws, h => by
      rw [words, Choice.backs, backs_atoms (h w (by simp)),
        backs_words blank fun v hv => h v (by simp [hv])]
      rfl

theorem keepless_atoms {atoms : List Atom} {rest : Items} (h : ∀ a ∈ atoms, a.keepless = true) :
    (Items.atoms atoms rest).keepless = rest.keepless := by
  induction atoms with
  | nil => rfl
  | cons a atoms ih =>
    rw [Items.atoms, List.foldr_cons, Items.keepless, ← Items.atoms, h a (by simp),
      ih fun a ha => h a (by simp [ha])]
    rfl

@[simp] theorem keepless_text (s : String) (rest : Items) :
    (Items.text s rest).keepless = rest.keepless :=
  keepless_atoms fun a ha => by
    obtain ⟨c, -, rfl⟩ := List.mem_map.1 ha
    rfl

theorem keepless_words (blank : Bool) : ∀ {ws : List (List Atom)},
    (∀ w ∈ ws, ∀ a ∈ w, a.keepless = true) → (words blank ws).keepless = true
  | [], _ => rfl
  | [_], h => keepless_atoms (h _ (by simp))
  | w :: w' :: ws, h => by
      rw [words, Choice.keepless, keepless_atoms (h w (by simp)),
        keepless_words blank fun v hv => h v (by simp [hv])]
      rfl

/-! ### Lists of names -/

/-- An atom that opens no group, reads none and is well written wherever it stands. -/
structure Atom.Simple (flags : Flags) (a : Atom) : Prop where
  groups : a.groups = 0
  ok : ∀ opened k, a.okIn flags opened k = true
  backs : a.backs = []
  keepless : a.keepless = true

mutual

theorem Choice.nodes_shift (flags : Flags) : ∀ {e : Choice}, e.groups = 0 → ∀ k : Nat,
    e.nodes flags k = e.nodes flags 0
  | .last e, h, k => by rw [Choice.nodes, Choice.nodes, Items.nodes_shift flags h k]
  | .more e rest, h, k => by
      obtain ⟨he, hrest⟩ := Nat.add_eq_zero_iff.1 h
      rw [Choice.nodes, Choice.nodes, Items.nodes_shift flags he k,
        Choice.nodes_shift flags hrest (k + _), Choice.nodes_shift flags hrest (0 + _)]

theorem Items.nodes_shift (flags : Flags) : ∀ {e : Items}, e.groups = 0 → ∀ k : Nat,
    e.nodes flags k = e.nodes flags 0
  | .done _, _, _ | .back _, _, _ => rfl
  | .atom a rest, h, k | .rep a _ _ rest, h, k => by
      obtain ⟨ha, hrest⟩ := Nat.add_eq_zero_iff.1 h
      rw [Items.nodes, Items.nodes, Atom.node_shift flags ha k,
        Items.nodes_shift flags hrest (k + _), Items.nodes_shift flags hrest (0 + _)]

theorem Atom.node_shift (flags : Flags) : ∀ {a : Atom}, a.groups = 0 → ∀ k : Nat,
    a.node flags k = a.node flags 0
  | .sign _, _, _ | .set .., _, _ | .dot, _, _ | .head, _, _ | .tail, _, _ | .edge, _, _
  | .keep, _, _ => rfl
  | .paren p c, h, k => by
      obtain ⟨hp, hc⟩ := Nat.add_eq_zero_iff.1 h
      rw [Atom.node, Atom.node, Choice.nodes_shift flags hc (k + _),
        Choice.nodes_shift flags hc (0 + _)]
      cases p with
      | capture => simp at hp
      | plain => rfl
      | look behind positive => rfl

end

mutual

theorem Choice.okIn_shift (flags : Flags) : ∀ {e : Choice}, e.groups = 0 → e.backs = [] →
    ∀ (opened : List Nat) (k : Nat), e.okIn flags opened k = e.okIn flags [] 0
  | .last e, h, hb, opened, k => Items.okIn_shift flags h hb opened k
  | .more e rest, h, hb, opened, k => by
      obtain ⟨he, hrest⟩ := Nat.add_eq_zero_iff.1 h
      obtain ⟨hbe, hbrest⟩ := List.append_eq_nil_iff.1 hb
      rw [Choice.okIn, Choice.okIn, Items.okIn_shift flags he hbe opened k,
        Choice.okIn_shift flags hrest hbrest opened (k + _),
        Choice.okIn_shift flags hrest hbrest [] (0 + _)]

theorem Items.okIn_shift (flags : Flags) : ∀ {e : Items}, e.groups = 0 → e.backs = [] →
    ∀ (opened : List Nat) (k : Nat), e.okIn flags opened k = e.okIn flags [] 0
  | .done _, _, _, _, _ => rfl
  | .back _, _, hb, _, _ => by simp at hb
  | .atom a rest, h, hb, opened, k | .rep a _ _ rest, h, hb, opened, k => by
      obtain ⟨ha, hrest⟩ := Nat.add_eq_zero_iff.1 h
      obtain ⟨hba, hbrest⟩ := List.append_eq_nil_iff.1 hb
      simp only [Items.okIn, Atom.okIn_shift flags ha hba opened k, Atom.node_shift flags ha k,
        Items.okIn_shift flags hrest hbrest opened (k + _),
        Items.okIn_shift flags hrest hbrest [] (0 + _)]

theorem Atom.okIn_shift (flags : Flags) : ∀ {a : Atom}, a.groups = 0 → a.backs = [] →
    ∀ (opened : List Nat) (k : Nat), a.okIn flags opened k = a.okIn flags [] 0
  | .sign _, _, _, _, _ | .set .., _, _, _, _ | .dot, _, _, _, _ | .head, _, _, _, _
  | .tail, _, _, _, _ | .edge, _, _, _, _ | .keep, _, _, _, _ => rfl
  | .paren p c, h, hb, opened, k => by
      have hc := (Nat.add_eq_zero_iff.1 h).2
      rw [Atom.okIn, Atom.okIn, Choice.okIn_shift flags hc hb _ (k + _),
        Choice.okIn_shift flags hc hb _ (0 + _)]

end

/-- An atom without groups and references that is well written at the beginning is simple. -/
theorem Atom.simple_of_check {flags : Flags} {a : Atom}
    (h : (a.groups == 0 && a.backs.isEmpty && a.keepless && a.okIn flags [] 0) = true) :
    a.Simple flags := by
  simp only [Bool.and_eq_true, beq_iff_eq, List.isEmpty_iff] at h
  obtain ⟨⟨⟨hg, hb⟩, hk⟩, hok⟩ := h
  exact ⟨hg, fun opened k => (a.okIn_shift flags hg hb opened k).trans hok, hb, hk⟩

theorem Atom.simple_sign {flags : Flags} {s : Sign} (h : s.ok flags = true) :
    (Atom.sign s).Simple flags :=
  ⟨rfl, fun _ _ => h, rfl, rfl⟩

theorem Atom.simple_edge (flags : Flags) : Atom.edge.Simple flags :=
  ⟨rfl, fun _ _ => rfl, rfl, rfl⟩

/-- Words of simple atoms, the first of which begins with a sign. -/
structure Names (flags : Flags) (ws : List (List Atom)) : Prop where
  simple : ∀ w ∈ ws, ∀ a ∈ w, a.Simple flags
  starts : ∃ s w ws', ws = (.sign s :: w) :: ws'

namespace Names

variable {flags : Flags} {ws : List (List Atom)} (h : Names flags ws)
include h

theorem append {ws' : List (List Atom)} (h' : ∀ w ∈ ws', ∀ a ∈ w, a.Simple flags) :
    Names flags (ws ++ ws') := by
  obtain ⟨s, w, rest, e⟩ := h.starts
  refine ⟨fun v hv => ?_, s, w, rest ++ ws', by rw [e, List.cons_append]⟩
  obtain hv | hv := List.mem_append.1 hv
  · exact h.simple v hv
  · exact h' v hv

theorem groupless : Groupless ws :=
  fun w hw a ha => (h.simple w hw a ha).groups

theorem print_head (blank : Bool) : (words blank ws).print.head?.any (· != '?') = true := by
  obtain ⟨s, w, ws', rfl⟩ := h.starts
  have hok : s.ok flags = true := 
    (h.simple (.sign s :: w) (by simp) (.sign s) (by simp)).ok [] 0
  have hs : ∃ c t, s.print = c :: t ∧ c ≠ '?' := by
    cases s with
    | lit c =>
      refine ⟨c, [], rfl, ?_⟩
      rintro rfl
      simp [Sign.ok] at hok
    | _ => exact ⟨'\\', _, rfl, by decide⟩
  obtain ⟨c, t, hp, hc⟩ := hs
  have hprint : ∃ tail, (words blank ((.sign s :: w) :: ws')).print = s.print ++ tail := by
    cases ws' with
    | nil => exact ⟨(Items.atoms w (.done blank)).print, rfl⟩
    | cons v ws' =>
      exact ⟨(Items.atoms w .fin).print ++ '|' :: (words blank (v :: ws')).print, by
        rw [← List.append_assoc]; rfl⟩
  obtain ⟨tail, e⟩ := hprint
  rw [e, hp]
  simpa using hc

theorem groups_words (blank : Bool) : (words blank ws).groups = 0 :=
  Pattern.groups_words blank h.groupless

theorem okIn_words {blank : Bool} (hblank : blank = true → flags.verbose = true) (opened : List Nat)
    (k : Nat) : (words blank ws).okIn flags opened k = true :=
  Pattern.okIn_words hblank h.groupless fun w hw a ha => (h.simple w hw a ha).ok _ _

theorem backs_words (blank : Bool) : (words blank ws).backs = [] :=
  Pattern.backs_words blank fun w hw a ha => (h.simple w hw a ha).backs

theorem keepless_words (blank : Bool) : (words blank ws).keepless = true :=
  Pattern.keepless_words blank fun w hw a ha => (h.simple w hw a ha).keepless

end Names

end Pattern

end TemplateTidy
