import TemplateTidy.Proofs.Pattern.Reader

/-! # Reading written patterns

The reader undoes `print`: a tree that passes its check is read as its pattern (`read_print`).  The
proof is one induction over choices, sequences and atoms; the fuel that a tree needs is at most
twice its written length. -/

namespace TemplateTidy

namespace Node

theorem recalled_ofList : ∀ ns : List Node, (ofList ns).recalled = ns.flatMap recalled
  | [] => rfl
  | [n] => by simp [ofList]
  | n :: n' :: ns => by
      rw [ofList, recalled, recalled_ofList (n' :: ns)]
      rfl

theorem recalled_choice : ∀ ns : List Node, (choice ns).recalled = ns.flatMap recalled
  | [] => rfl
  | [n] => by simp [choice]
  | n :: n' :: ns => by
      rw [choice, recalled, recalled_choice (n' :: ns)]
      rfl

end Node

end TemplateTidy

namespace TemplateTidy.Pattern

open Text

/-! ### Atoms -/

/-- An atom is read in one step. -/
theorem Sign.reads {flags : Flags} (hp : Plain flags) {s : Sign}
    (ok : s.ok flags = true) {fuel : Nat} (before : List Node) (last : Option Node) {c : Cursor}
    {tail : List Char} (hf : c.flags = flags)
    (hk : c.skipping = flags.verbose) (hr : c.rest = s.print ++ tail) :
    (sequence (fuel + 1) before last).run c =
      (sequence fuel (last.toList ++ before) (some (.one (s.set flags.folding)))).run
        { c with rest := tail, pristine := false } := by
  subst hf
  have hesc : ∀ {text : List Char}, s.print = '\\' :: text → c.ahead = '\\' :: (text ++ tail) := by
    intro text ht
    rw [ahead_eq, hr, ht]
    exact aheadOf_cons (fun _ => ⟨rfl, by decide⟩)
  cases s with
  | lit ch =>
    simp only [Sign.ok, Bool.and_eq_true, Bool.not_eq_true', Bool.or_eq_true, bne_iff_ne] at ok
    refine sequence_literal ?_ ok.1
    rw [ahead_eq, hr, hk]
    refine aheadOf_cons (fun hv => ?_)
    simpa [hv] using ok.2
  | escaped ch =>
    simp only [Sign.ok, Bool.and_eq_true, Bool.not_eq_true'] at ok
    exact sequence_escape (hesc rfl) (run_escape_punctuation rfl ok.1 ok.2)
  | brace closing =>
    rw [sequence_escape (hesc rfl) (run_escape_brace closing rfl)]
    cases closing <;> rfl
  | control tab =>
    refine sequence_escape (hesc rfl) (run_escape_letter _ rfl ?_ ?_ ?_
      (.inr ⟨?_, .inr ⟨?_, _, ?_, rfl⟩⟩))
    all_goals cases tab <;> rfl
  | zero => exact sequence_escape (hesc rfl) (run_escape_zero rfl)
  | word positive | digit positive | space positive =>
    refine sequence_escape (hesc rfl) (run_escape_letter _ rfl ?_ ?_ ?_
      (.inr ⟨?_, .inl ⟨_, ?_, rfl⟩⟩))
    · cases positive <;> rfl
    · cases positive <;> rfl
    · cases positive <;> rfl
    · cases positive <;> rfl
    · cases positive <;> simp [namedClass, hp.ascii, hp.strict, Sign.item]

/-! ### Trees -/

mutual

/-- How much fuel the reader needs. -/
def Choice.cost : Choice → Nat
  | .last e => e.cost + 1
  | .more e rest => max e.cost rest.cost + 1

def Items.cost : Items → Nat
  | .done _ => 1
  | .back _ => 2
  | .atom a rest => max a.cost rest.cost + 1
  | .rep a _ _ rest => max a.cost (rest.cost + 1) + 1

def Atom.cost : Atom → Nat
  | .paren _ c => c.cost + 1
  | _ => 0

end

theorem Atom.print_length_pos (a : Atom) : 0 < a.print.length := by
  cases a with
  | sign s => cases s <;> simp [Atom.print, Sign.print]
  | _ => simp [Atom.print]

mutual

theorem Choice.cost_le : ∀ e : Choice, e.cost ≤ 2 * e.print.length + 2
  | .last e => by
      have := e.cost_le
      simp only [Choice.cost, Choice.print]
      omega
  | .more e rest => by
      have := e.cost_le
      have := rest.cost_le
      simp only [Choice.cost, Choice.print, List.length_append, List.length_cons]
      omega

theorem Items.cost_le : ∀ e : Items, e.cost ≤ 2 * e.print.length + 1
  | .done _ => by simp [Items.cost]
  | .back _ => by simp [Items.cost, Items.print]
  | .atom a rest => by
      have := a.cost_le
      have := rest.cost_le
      have := a.print_length_pos
      simp only [Items.cost, Items.print, List.length_append]
      omega
  | .rep a m reluctant rest => by
      have := a.cost_le
      have := rest.cost_le
      simp only [Items.cost, Items.print, List.length_append, List.length_cons]
      omega

theorem Atom.cost_le : ∀ a : Atom, a.cost ≤ 2 * a.print.length
  | .paren k e => by
      have := e.cost_le
      simp only [Atom.cost, Atom.print, List.length_append, List.length_cons, List.length_nil]
      omega
  | .sign _ | .set .. | .dot | .head | .tail | .edge | .keep => by simp [Atom.cost]

end

theorem Atom.head?_of_clear {a : Atom} (h : a.clear = true) (b : Bool) (r : List Char) {x : Char}
    (hx : x = '?' ∨ x = '+') : (aheadOf b (a.print ++ r)).head? ≠ some x := by
  obtain ⟨ch, text, ht, hb, hh, hne⟩ : ∃ ch text, a.print = ch :: text ∧ isBlank ch = false ∧
      ch ≠ '#' ∧ ch ≠ x := by
    cases a with
    | sign s =>
      obtain ⟨ch, text, ht⟩ := List.exists_cons_of_length_pos (Atom.sign s).print_length_pos
      simp only [Atom.clear] at h
      rw [show s.print = ch :: text from ht] at h
      simp only [List.head?_cons, Option.all_some, Bool.and_eq_true, bne_iff_ne,
        Bool.not_eq_true'] at h
      refine ⟨ch, text, ht, h.2, h.1.2, ?_⟩
      rcases hx with rfl | rfl
      · exact h.1.1.1
      · exact h.1.1.2
    | _ => exact ⟨_, _, rfl, rfl, by decide, by rcases hx with rfl | rfl <;> decide⟩
  rw [ht, List.cons_append, aheadOf_cons (fun _ => ⟨hb, hh⟩)]
  simpa using hne

theorem Items.head?_of_clear {flags : Flags} {opened : List Nat} {k : Nat} {e : Items}
    (ok : e.okIn flags opened k = true) (h : e.clear = true) {tail : List Char}
    (hs : Stops flags.verbose true tail) {x : Char} (hx : x = '?' ∨ x = '+') :
    (aheadOf flags.verbose (e.print ++ tail)).head? ≠ some x := by
  cases e with
  | done blank =>
    have hstop : (aheadOf flags.verbose tail).head? ≠ some x :=
      hs.head? (by rcases hx with rfl | rfl <;> decide)
    cases blank with
    | false => exact hstop
    | true =>
      have hv : flags.verbose = true := by simpa [Items.okIn] using ok
      rw [hv] at hstop ⊢
      exact hstop
  | back i =>
    rw [Items.print, List.cons_append, aheadOf_cons (fun _ => ⟨rfl, by decide⟩)]
    rcases hx with rfl | rfl <;> simp
  | atom a rest | rep a m reluctant rest =>
    rw [Items.print, List.append_assoc]
    exact Atom.head?_of_clear h _ _ hx

mutual

/-- The reader reads a choice as its pattern. -/
theorem Choice.reads {flags : Flags} (hp : Plain flags) {opened : List Nat} :
    ∀ (e : Choice) {k fuel : Nat} (before : List Node) {c : Cursor} {tail : List Char},
      e.okIn flags opened k = true → e.cost ≤ fuel → c.On flags opened k →
      c.rest = e.print ++ tail →
      Stops flags.verbose false tail →
      ∃ rest b, aheadOf flags.verbose rest = aheadOf flags.verbose tail ∧
        (alternatives fuel before).run c =
          .ok (.choice (before.reverse ++ e.nodes flags k), c.moved rest e.groups b)
  | .last e, k, fuel, before, c, tail, ok, hf, hc, hr, hs => by
      obtain ⟨f, rfl⟩ : ∃ f, fuel = f + 1 := ⟨fuel - 1, by simp only [Choice.cost] at hf; omega⟩
      obtain ⟨rest, b, ha, h⟩ := e.reads hp [] none ok
        (show e.cost ≤ f by simp only [Choice.cost] at hf; omega) hc hr hs.weaken
      refine ⟨rest, b, ha, ?_⟩
      rw [alternatives, run_bind_ok h]
      have hbar : (accept "|").run (c.moved rest e.groups b) =
          .ok (false, c.moved rest e.groups b) := by
        refine run_accept_other (x := '|') (l := []) (by simp) ?_
        rw [ahead_eq, show (c.moved rest e.groups b).skipping = flags.verbose from hc.skipping_eq,
          show (c.moved rest e.groups b).rest = rest from rfl, ha]
        obtain h | ⟨ch, r, h, hch⟩ := hs
        · simp [h]
        · have hch : ch = ')' := by simpa using hch
          simp [h, hch]
      rw [run_bind_ok hbar]
      simp only [Bool.false_eq_true, if_false, List.reverse_cons]
      rfl
  | .more e more, k, fuel, before, c, tail, ok, hf, hc, hr, hs => by
      simp only [Choice.okIn, Bool.and_eq_true] at ok
      obtain ⟨f, rfl⟩ : ∃ f, fuel = f + 1 := ⟨fuel - 1, by simp only [Choice.cost] at hf; omega⟩
      simp only [Choice.cost] at hf
      obtain ⟨rest, b, ha, h⟩ := e.reads hp [] none ok.1 (show e.cost ≤ f by omega) hc
        (show c.rest = e.print ++ ('|' :: (more.print ++ tail)) by
          rw [hr, Choice.print]
          simp)
        (Stops.bar _ _)
      have hbar : (accept "|").run (c.moved rest e.groups b) =
          .ok (true, c.moved (more.print ++ tail) e.groups b) := by
        rw [run_accept_char "|" '|' (d := '|') (r := more.print ++ tail) ?_ (by simp)]
        · rfl
        · rw [ahead_eq, show (c.moved rest e.groups b).skipping = flags.verbose from hc.skipping_eq,
            show (c.moved rest e.groups b).rest = rest from rfl, ha]
          exact aheadOf_cons (fun _ => ⟨rfl, by decide⟩)
      obtain ⟨rest', b', ha', h'⟩ := more.reads hp (.ofList (e.nodes flags k) :: before) ok.2
        (show more.cost ≤ f by omega) (hc.moved (more.print ++ tail) e.groups b) rfl hs
      refine ⟨rest', b', ha', ?_⟩
      rw [alternatives, run_bind_ok h, run_bind_ok hbar]
      simp only [if_true]
      rw [show Option.toList (none : Option Node) ++ ([] : List Node) = [] from rfl,
        List.reverse_nil, List.nil_append, h', moved_moved, Choice.nodes, Choice.groups,
        List.reverse_cons, List.append_assoc]
      rfl

/-- The reader reads a sequence as its pattern. -/
theorem Items.reads {flags : Flags} (hp : Plain flags) {opened : List Nat} :
    ∀ (e : Items) {k fuel : Nat} (before : List Node) (last : Option Node) {c : Cursor}
      {tail : List Char},
      e.okIn flags opened k = true → e.cost ≤ fuel → c.On flags opened k →
      c.rest = e.print ++ tail →
      Stops flags.verbose true tail →
      ∃ rest b, aheadOf flags.verbose rest = aheadOf flags.verbose tail ∧
        (sequence fuel before last).run c =
          .ok (.ofList ((last.toList ++ before).reverse ++ e.nodes flags k),
            c.moved rest e.groups b)
  | .done blank, k, fuel, before, last, c, tail, ok, hf, hc, hr, hs => by
      obtain ⟨f, rfl⟩ : ∃ f, fuel = f + 1 := ⟨fuel - 1, by simp only [Items.cost] at hf; omega⟩
      have ha : aheadOf c.skipping c.rest = aheadOf c.skipping tail := by
        rw [hr, hc.skipping_eq]
        cases blank with
        | false => rfl
        | true =>
          have hv : flags.verbose = true := by simpa [Items.okIn] using ok
          rw [hv]
          rfl
      obtain ⟨rest, b, h1, h2⟩ := sequence_done f before last ha
        (by rw [hc.skipping_eq]; exact hs)
      refine ⟨rest, b, by rw [hc.skipping_eq] at h1; exact h1, ?_⟩
      rw [h2, Items.nodes, List.append_nil]
      rfl
  | .back i, k, fuel, before, last, c, tail, ok, hf, hc, hr, hs => by
      simp only [Items.okIn, Bool.and_eq_true, decide_eq_true_eq, Bool.not_eq_true'] at ok
      obtain ⟨f, rfl⟩ : ∃ f, fuel = f + 2 := ⟨fuel - 2, by simp only [Items.cost] at hf; omega⟩
      have hd : c.ahead = '\\' :: Nat.digitChar i :: tail := by
        rw [ahead_eq, hr]
        exact aheadOf_cons (fun _ => ⟨rfl, by decide⟩)
      have hon : Cursor.On { c with rest := Nat.digitChar i :: tail, pristine := false }
          flags opened k :=
        ⟨hc.1, hc.2, hc.3, hc.4⟩
      rw [sequence_escape hd (run_recall hp hon ok.1.1 ok.1.2 ok.2
        rfl (by rw [hon.skipping_eq]; exact hs))]
      obtain ⟨rest, b, h1, h2⟩ := sequence_done f (last.toList ++ before)
        (some (.recall i flags.folding))
        (c := { c with rest := tail, pristine := false }) rfl
        (by rw [show Cursor.skipping { c with rest := tail, pristine := false } = flags.verbose from hc.skipping_eq]; exact hs)
      refine ⟨rest, b, ?_, ?_⟩
      · rw [show Cursor.skipping { c with rest := tail, pristine := false } =
          flags.verbose from hc.skipping_eq] at h1
        exact h1
      · rw [h2]
        simp [Items.nodes, Items.groups, Cursor.moved]
  | .atom a more, k, fuel, before, last, c, tail, ok, hf, hc, hr, hs => by
      simp only [Items.okIn, Bool.and_eq_true] at ok
      simp only [Items.cost] at hf
      obtain ⟨f, rfl⟩ : ∃ f, fuel = f + 1 := ⟨fuel - 1, by omega⟩
      obtain ⟨b, h⟩ := a.reads hp before last ok.1 (show a.cost ≤ f by omega) hc
        (show c.rest = a.print ++ (more.print ++ tail) by rw [hr, Items.print, List.append_assoc])
      obtain ⟨rest', b', ha', h'⟩ := more.reads hp (last.toList ++ before)
        (some (a.node flags k)) ok.2 (show more.cost ≤ f by omega)
        (hc.moved (more.print ++ tail) a.groups b) rfl hs
      refine ⟨rest', b', ha', ?_⟩
      rw [h, h', moved_moved]
      simp [Items.nodes, Items.groups]
  | .rep a m reluctant more, k, fuel, before, last, c, tail, ok, hf, hc, hr, hs => by
      simp only [Items.okIn, Bool.and_eq_true, Bool.or_eq_true, Bool.not_eq_true'] at ok
      obtain ⟨⟨⟨oka, hne⟩, hclear⟩, okmore⟩ := ok
      simp only [Items.cost] at hf
      obtain ⟨f, rfl⟩ : ∃ f, fuel = f + 2 := ⟨fuel - 2, by omega⟩
      have hmark : ∀ r, aheadOf c.skipping (m.char :: r) = m.char :: r := by
        intro r
        refine aheadOf_cons (fun _ => ?_)
        cases m <;> exact ⟨rfl, by decide⟩
      obtain ⟨b, h⟩ := a.reads hp before last oka (show a.cost ≤ f + 1 by omega) hc
        (show c.rest = a.print ++ (m.char :: ((if reluctant then ['?'] else []) ++ more.print ++
            tail)) by
          rw [hr, Items.print]
          simp)
      obtain ⟨r', h1, h2, h3⟩ := sequence_mark f (last.toList ++ before)
        (n := a.node flags k) m reluctant
        (show (c.moved (m.char :: ((if reluctant then ['?'] else []) ++ more.print ++ tail))
          a.groups b).ahead = _
          from hmark _)
        (by rw [show (c.moved _ a.groups b).flags = flags from hc.flags_eq]; exact hp.strict)
        hne
        (fun h => ⟨more.print ++ tail, by
          rw [h]
          exact aheadOf_cons (fun _ => ⟨rfl, by decide⟩)⟩)
        (fun h => by
          rw [h, show (c.moved _ a.groups b).skipping = flags.verbose from hc.skipping_eq]
          simp only [Bool.false_eq_true, if_false, List.nil_append]
          have hc : more.clear = true := by simpa [h] using hclear
          exact ⟨Items.head?_of_clear okmore hc hs (.inl rfl),
            Items.head?_of_clear okmore hc hs (.inr rfl)⟩)
      have hr' : r' = more.print ++ tail := by
        cases reluctant with
        | false => simpa using h1 rfl
        | true =>
          have h2 := h2 rfl
          simp only [if_true, List.cons_append, List.nil_append] at h2
          rw [aheadOf_cons (fun _ => ⟨rfl, by decide⟩)] at h2
          exact (List.cons.inj h2).2.symm
      obtain ⟨rest', b', ha', h'⟩ := more.reads hp
        (.rep (a.node flags k) m.least m.most reluctant :: (last.toList ++ before)) none
        okmore (show more.cost ≤ f by omega) (hc.moved (more.print ++ tail) a.groups false) rfl hs
      refine ⟨rest', b', ha', ?_⟩
      rw [h, h3, hr']
      refine Eq.trans h' ?_
      rw [moved_moved]
      simp [Items.nodes, Items.groups]

/-- The reader reads an atom as its pattern. -/
theorem Atom.reads {flags : Flags} (hp : Plain flags) {opened : List Nat} :
    ∀ (a : Atom) {k fuel : Nat} (before : List Node) (last : Option Node) {c : Cursor}
      {tail : List Char},
      a.okIn flags opened k = true → a.cost ≤ fuel → c.On flags opened k →
      c.rest = a.print ++ tail →
      ∃ b, (sequence (fuel + 1) before last).run c =
        (sequence fuel (last.toList ++ before) (some (a.node flags k))).run
          (c.moved tail a.groups b)
  | .sign s, k, fuel, before, last, c, tail, ok, hf, hc, hr =>
      ⟨false, s.reads hp ok before last hc.flags_eq hc.skipping_eq hr⟩
  | .set negated first more, k, fuel, before, last, c, tail, ok, hf, hc, hr => by
      obtain rfl := hc.flags_eq
      refine ⟨false, sequence_set (r := (if negated then ['^'] else []) ++
        ((first :: more).flatMap Sign.print ++ ']' :: tail)) ?_ (run_charSet negated first more
          hp.ascii hp.strict ok rfl)⟩
      · rw [ahead_eq, hr, Atom.print]
        simp only [List.cons_append, List.append_assoc, List.nil_append]
        exact aheadOf_cons (fun _ => ⟨rfl, by decide⟩)
  | .dot, k, fuel, before, last, c, tail, ok, hf, hc, hr => by
      obtain rfl := hc.flags_eq
      refine ⟨false, sequence_dot (r := tail) ?_⟩
      · rw [ahead_eq, hr]
        exact aheadOf_cons (fun _ => ⟨rfl, by decide⟩)
  | .head, k, fuel, before, last, c, tail, ok, hf, hc, hr => by
      obtain rfl := hc.flags_eq
      refine ⟨false, sequence_anchor (d := '^') (r := tail) ?_ (.inl rfl)⟩
      · rw [ahead_eq, hr]
        exact aheadOf_cons (fun _ => ⟨rfl, by decide⟩)
  | .tail, k, fuel, before, last, c, tail, ok, hf, hc, hr => by
      obtain rfl := hc.flags_eq
      refine ⟨false, sequence_anchor (d := '$') (r := tail) ?_ (.inr rfl)⟩
      · rw [ahead_eq, hr]
        exact aheadOf_cons (fun _ => ⟨rfl, by decide⟩)
  | .edge, k, fuel, before, last, c, tail, ok, hf, hc, hr => by
      refine ⟨false, sequence_escape (r := 'b' :: tail) ?_
        (run_escape_letter _ rfl rfl rfl rfl (.inl ?_))⟩
      · rw [ahead_eq, hr]
        exact aheadOf_cons (fun _ => ⟨rfl, by decide⟩)
      · simp [escapedAnchor, hc.flags_eq, hp.ascii, Atom.node]
  | .keep, k, fuel, before, last, c, tail, ok, hf, hc, hr => by
      refine ⟨false, sequence_escape (r := 'K' :: tail) ?_
        (run_escape_letter _ rfl rfl rfl rfl (.inl ?_))⟩
      · rw [ahead_eq, hr]
        exact aheadOf_cons (fun _ => ⟨rfl, by decide⟩)
      · simp [escapedAnchor, hc.flags_eq, hp.strict, Atom.node]
  | .paren p e, k, fuel, before, last, c, tail, ok, hf, hc, hr => by
      simp only [Atom.okIn, Bool.and_eq_true] at ok
      obtain ⟨hhead, okc⟩ := ok
      simp only [Atom.cost] at hf
      obtain ⟨f, rfl⟩ : ∃ f, fuel = f + 1 := ⟨fuel - 1, by omega⟩
      -- what stands between the parentheses
      have hin : ∀ c' : Cursor, c'.On flags (p.opened k opened) (k + p.groups) →
          c'.rest = e.print ++ (')' :: tail) →
          ∃ b, (inner f).run c' = .ok (.choice (e.nodes flags (k + p.groups)),
            c'.moved tail e.groups b) := by
        intro c' hc' hr'
        obtain ⟨rest, b, ha, h⟩ := e.reads hp [] okc (show e.cost ≤ f by omega) hc' hr'
          (Stops.closing _ _ _)
        refine ⟨b, ?_⟩
        unfold inner
        rw [run_bind_ok h]
        have he : (expect ")").run (c'.moved rest e.groups b) =
            .ok ((), c'.moved tail e.groups b) := by
          rw [run_expect (r := tail)]
          · rfl
          · rw [ahead_eq, show (c'.moved rest e.groups b).skipping =
              flags.verbose from hc'.skipping_eq,
              show (c'.moved rest e.groups b).rest = rest from rfl, ha]
            exact aheadOf_cons (fun _ => ⟨rfl, by decide⟩)
        rw [run_bind_ok he]
        rfl
      have hopen : c.ahead = '(' :: (p.text ++ (e.print ++ (')' :: tail))) := by
        rw [ahead_eq, hr, Atom.print]
        simp only [List.cons_append, List.append_assoc, List.nil_append]
        exact aheadOf_cons (fun _ => ⟨rfl, by decide⟩)
      have hskip : c.skipping = c.flags.verbose := by rw [hc.skipping_eq, hc.flags_eq]
      cases p with
      | capture =>
        obtain ⟨ch, content, hcontent, hne⟩ : ∃ ch content, e.print = ch :: content ∧ ch ≠ '?' := by
          cases hp : e.print with
          | nil => simp [hp] at hhead
          | cons ch content => exact ⟨ch, content, rfl, by simpa [hp] using hhead⟩
        obtain ⟨b, h⟩ := hin
          { c with
            rest := e.print ++ (')' :: tail)
            pristine := false
            count := c.count + 1
            opened := (c.count + 1) :: c.opened }
          ⟨hc.1, hc.2, by simp [Paren.opened, hc.opened_eq, hc.count_eq], by simp [Paren.groups, hc.count_eq]⟩ rfl
        refine ⟨b, ?_⟩
        rw [sequence_paren hopen (paren_capture (d := ch) (w := content ++ (')' :: tail))
          (by simp [Paren.text, hcontent])
          hne h)]
        simp only [Atom.node, Paren.wrap, Atom.groups, Paren.groups, hc.count_eq]
        congr 1
        simp [Cursor.moved, hskip, hc.count_eq, Nat.add_assoc]
      | plain =>
        obtain ⟨b, h⟩ := hin { c with rest := e.print ++ (')' :: tail), pristine := false }
          ⟨hc.1, hc.2, hc.3, hc.4⟩ rfl
        refine ⟨b, ?_⟩
        rw [sequence_paren hopen (paren_plain (w := e.print ++ (')' :: tail)) rfl hskip h)]
        simp [Cursor.moved, hskip, Atom.node, Paren.wrap, Atom.groups, Paren.groups]
      | look behind positive =>
        obtain ⟨b, h⟩ := hin { c with rest := e.print ++ (')' :: tail), pristine := false }
          ⟨hc.1, hc.2, hc.3, hc.4⟩ rfl
        refine ⟨b, ?_⟩
        rw [sequence_paren hopen (paren_look (w := e.print ++ (')' :: tail)) rfl
          (by rw [show Cursor.flags _ = flags from hc.flags_eq]; exact hp.strict) h)]
        simp [Cursor.moved, hskip, Atom.node, Paren.wrap, Atom.groups, Paren.groups]

end

/-! ### References to groups -/

mutual

theorem Choice.recalled_nodes (flags : Flags) : ∀ (e : Choice) (k : Nat),
    (Node.choice (e.nodes flags k)).recalled = e.backs
  | .last e, k => by rw [Choice.nodes, Choice.backs, Node.recalled_choice]; simp [e.recalled_nodes]
  | .more e rest, k => by
      rw [Choice.nodes, Choice.backs, Node.recalled_choice, List.flatMap_cons,
        ← Node.recalled_choice, rest.recalled_nodes, e.recalled_nodes]

theorem Items.recalled_nodes (flags : Flags) : ∀ (e : Items) (k : Nat),
    (Node.ofList (e.nodes flags k)).recalled = e.backs
  | .done _, _ => rfl
  | .back _, _ => rfl
  | .atom a rest, k | .rep a m r rest, k => by
      rw [Items.nodes, Items.backs, Node.recalled_ofList, List.flatMap_cons, ← Node.recalled_ofList,
        rest.recalled_nodes]
      simp [Node.recalled, a.recalled_node]

theorem Atom.recalled_node (flags : Flags) :
    ∀ (a : Atom) (k : Nat), (a.node flags k).recalled = a.backs
  | .sign _, _ | .set .., _ | .dot, _ | .head, _ | .tail, _ | .edge, _ | .keep, _ => rfl
  | .paren p c, k => by
      have := c.recalled_nodes flags (k + p.groups)
      cases p <;> simpa [Atom.node, Paren.wrap, Node.recalled, Atom.backs] using this

end

/-- The reader undoes printing. -/
theorem read_print {flags : Flags} {e : Choice} (h : e.ok flags = true) :
    Pattern.read flags e.print = .ok (e.pattern flags) := by
  simp only [Choice.ok, Bool.and_eq_true, Bool.not_eq_true'] at h
  obtain ⟨⟨⟨hascii, hstrict⟩, hok⟩, hbacks⟩ := h
  have hrecalled : ((e.node flags).recalled.all fun i => 1 ≤ i && i ≤ e.groups) = true := by
    rw [Choice.node, e.recalled_nodes flags]
    exact hbacks
  obtain ⟨rest, b, ha, hrun⟩ := e.reads ⟨hascii, hstrict⟩ []
    (c := { rest := e.print, flags, shared := flags, skipping := flags.verbose }) hok
    (show e.cost ≤ 4 * e.print.length + 16 by have := e.cost_le; omega) ⟨rfl, rfl, rfl, rfl⟩
    (show e.print = e.print ++ [] by simp)
    (.inl (by cases flags.verbose <;> rfl))
  have hwith : readWith flags e.print = .ok (e.pattern flags) := by
    unfold readWith
    simp only [hrun]
    have hahead : aheadOf flags.verbose rest = [] := by
      rw [ha]
      cases flags.verbose <;> rfl
    simp only [bind, Except.bind, Cursor.moved, ahead_eq, hahead, List.isEmpty_nil, if_true,
      List.reverse_nil, List.nil_append, Nat.zero_add]
    rw [show Node.choice (e.nodes flags 0) = e.node flags from rfl, if_pos hrecalled]
    rfl
  unfold Pattern.read
  simp only [hstrict, Bool.false_and, Bool.false_eq_true, if_false]
  rw [readAgain, hwith]

/-- A pattern whose source is a printed tree is the pattern of the tree. -/
theorem ofSource_print {flags : Flags} {source : String} {e : Choice} (hs : source.toList = e.print)
    (h : e.ok flags = true) : ofSource flags source = e.pattern flags := by
  unfold ofSource
  rw [hs, read_print h]

end TemplateTidy.Pattern
