import TemplateTidy.Proofs.Pattern.Written

/-! # Steps of the reader

What each part of the reader does where the beginning of the text is known: escapes
(`run_escape_*`), sets (`run_charSet`), one step of a sequence (`sequence_*`) and parentheses
(`paren_*`). -/

namespace TemplateTidy.Pattern

open Text

/-! ### Cursors -/

/-- The rest of a text from the next character that counts. -/
def aheadOf (skipping : Bool) (text : List Char) : List Char :=
  if skipping then dropIgnored false text else text

@[simp] theorem ahead_eq (c : Cursor) : c.ahead = aheadOf c.skipping c.rest := rfl

theorem aheadOf_cons {b : Bool} {ch : Char} {r : List Char}
    (h : b = true → isBlank ch = false ∧ ch ≠ '#') : aheadOf b (ch :: r) = ch :: r := by
  unfold aheadOf
  cases b with
  | false => rfl
  | true =>
    obtain ⟨h1, h2⟩ := h rfl
    simp [dropIgnored, h1, h2]

/-- A cursor that has moved on: to `rest`, past `g` groups. -/
def Cursor.moved (c : Cursor) (rest : List Char) (g : Nat) (pristine : Bool) : Cursor :=
  { c with rest, count := c.count + g, pristine }

@[simp] theorem moved_moved (c : Cursor) (r r' : List Char) (g g' : Nat) (b b' : Bool) :
    (c.moved r g b).moved r' g' b' = c.moved r' (g + g') b' := by
  simp [Cursor.moved, Nat.add_assoc]

/-- A cursor under the options `flags`, with `k` groups behind it and `opened` around it. -/
structure Cursor.On (c : Cursor) (flags : Flags) (opened : List Nat) (k : Nat) : Prop where
  flags_eq : c.flags = flags
  skipping_eq : c.skipping = flags.verbose
  opened_eq : c.opened = opened
  count_eq : c.count = k

theorem Cursor.On.moved {c : Cursor} {flags : Flags} {opened : List Nat} {k : Nat}
    (h : c.On flags opened k) (r : List Char) (g : Nat) (b : Bool) :
    (c.moved r g b).On flags opened (k + g) :=
  ⟨h.1, h.2, h.3, by rw [← h.4]; rfl⟩

/-- The options are those of the library's patterns. -/
structure Plain (flags : Flags) : Prop where
  ascii : flags.ascii = false
  strict : flags.strict = false

/-- A text at which a sequence ends; `bar` tells whether another one may follow. -/
def Stops (skipping bar : Bool) (tail : List Char) : Prop :=
  aheadOf skipping tail = [] ∨
    ∃ ch r, aheadOf skipping tail = ch :: r ∧ (ch = ')' ∨ (bar = true ∧ ch = '|'))

theorem Stops.closing (skipping bar : Bool) (r : List Char) : Stops skipping bar (')' :: r) :=
  .inr ⟨')', r, aheadOf_cons (fun _ => ⟨rfl, by decide⟩), .inl rfl⟩

theorem Stops.bar (skipping : Bool) (r : List Char) : Stops skipping true ('|' :: r) :=
  .inr ⟨'|', r, aheadOf_cons (fun _ => ⟨rfl, by decide⟩), .inr ⟨rfl, rfl⟩⟩

theorem Stops.weaken {skipping : Bool} {tail : List Char} (h : Stops skipping false tail) :
    Stops skipping true tail := by
  obtain h | ⟨ch, r, h, hc⟩ := h
  · exact .inl h
  · refine .inr ⟨ch, r, h, .inl ?_⟩
    simpa using hc

theorem Stops.head? {skipping bar : Bool} {tail : List Char}
    (h : Stops skipping bar tail) {x : Char}
    (hx : x ≠ ')' ∧ x ≠ '|') : (aheadOf skipping tail).head? ≠ some x := by
  obtain h | ⟨ch, r, h, hc⟩ := h
  · simp [h]
  · rw [h]
    intro e
    simp only [List.head?_cons, Option.some.injEq] at e
    subst e
    rcases hc with rfl | ⟨_, rfl⟩ <;> simp at hx

/-! ### Single readers -/

variable {fuel : Nat} {before : List Node} {last : Option Node} {c c' : Cursor} {ch : Char}
  {r tail : List Char}
  {n : Node}

theorem run_bind_ok {α β : Type} {x : Reader α} {f : α → Reader β} {a : α}
    (h : x.run c = .ok (a, c')) : (x >>= f).run c = (f a).run c' := by
  rw [StateT.run_bind, h]
  rfl

theorem run_get (c : Cursor) : (get : Reader Cursor).run c = .ok (c, c) := rfl
theorem run_set (c c' : Cursor) : (set c' : Reader PUnit).run c = .ok ((), c') := rfl
theorem run_modify (f : Cursor → Cursor) (c : Cursor) :
    (modify f : Reader PUnit).run c = .ok ((), f c) := rfl

theorem run_next? (h : c.ahead = ch :: r) : next?.run c = .ok (some ch, { c with rest := r }) := by
  unfold next?
  rw [run_bind_ok (run_get c), h]
  rfl

theorem run_nextRaw? (h : c.rest = ch :: r) :
    nextRaw?.run c = .ok (some ch, { c with rest := r }) := by
  unfold nextRaw?
  rw [run_bind_ok (run_get c), h]
  rfl

theorem run_next?_end (h : c.ahead = []) : next?.run c = .ok (none, { c with rest := [] }) := by
  unfold next?
  rw [run_bind_ok (run_get c), h]
  rfl

-- Ahead of the other steps of a sequence: the equation of `sequence`, which they all use, is made
-- once here.
theorem sequence_end (h : c.ahead = []) : (sequence (fuel + 1) before last).run c =
      .ok (.ofList (last.toList ++ before).reverse, { c with rest := [] }) := by
  rw [sequence, run_bind_ok (run_get c), run_bind_ok (run_next?_end h)]
  rfl

/-! ### Escapes -/

theorem run_escape_punctuation (h : c.rest = ch :: r) (ha : ch.isAlpha = false)
    (hd : ch.isDigit = false) :
    escape.run c = .ok (.one (.single ch c.flags.folding), { c with rest := r }) := by
  have hx : hexWidth ch = none := by
    unfold hexWidth
    split <;> first | rfl | simp [Char.isAlpha, Char.isUpper, Char.isLower] at ha
  have hg : (ch == 'g') = false := by
    rw [beq_eq_false_iff_ne]
    rintro rfl
    simp [Char.isAlpha, Char.isUpper, Char.isLower] at ha
  unfold escape
  rw [run_bind_ok (run_nextRaw? h)]
  simp only
  rw [run_bind_ok (run_get _), hx]
  simp only [hg, Bool.false_and, Bool.false_eq_true, if_false, ha, hd]
  rfl

theorem run_escape_letter (n : Node) (h : c.rest = ch :: r)
    (hx : hexWidth ch = none) (hg : (ch == 'g') = false) (ha : ch.isAlpha = true)
    (hn : escapedAnchor c.flags ch = some n ∨ escapedAnchor c.flags ch = none ∧
      ((∃ i, namedClass c.flags ch = some i ∧ n = .one { items := [i] }) ∨
        namedClass c.flags ch = none ∧ ∃ d, controlChar ch = some d ∧
    n = .one (.single d .exact))) : escape.run c = .ok (n, { c with rest := r }) := by
  unfold escape
  rw [run_bind_ok (run_nextRaw? h)]
  simp only
  rw [run_bind_ok (run_get _), hx]
  simp only [hg, Bool.false_and, Bool.false_eq_true, if_false, ha, if_true]
  obtain hn | ⟨h0, ⟨i, hi, rfl⟩ | ⟨hi, d, hd, rfl⟩⟩ := hn
  · rw [hn]
    rfl
  · rw [h0, hi]
    rfl
  · rw [h0, hi, hd]
    rfl

theorem run_escape_brace (closing : Bool)
    (h : c.rest = 'x' :: '7' :: (if closing then 'd' else 'b') :: r) :
    escape.run c = .ok (.one (.single (if closing then '}' else '{') c.flags.folding),
      { c with rest := r }) := by
  obtain ⟨rest, flags, shared, skipping, count, names, opened, pristine⟩ := c
  subst h
  cases closing <;> cases skipping <;> cbv

theorem run_escape_zero (h : c.rest = '0' :: '0' :: '0' :: r) :
    escape.run c = .ok (.one (.single '\x00' c.flags.folding), { c with rest := r }) := by
  obtain ⟨rest, flags, shared, skipping, count, names, opened, pristine⟩ := c
  subst h
  cases skipping <;> cbv

/-! ### Sets -/

theorem run_accept_char {d : Char} (text : String) (x : Char) (h : c.ahead = d :: r)
    (hl : text.toList = [x]) :
    (accept text).run c = .ok (x == d, if x == d then { c with rest := r } else c) := by
  unfold accept
  rw [run_bind_ok (run_get c), hl]
  simp only [accept.go, h]
  cases hx : x == d <;> simp <;> rfl

theorem run_accept_other {text : String} {x : Char} {l : List Char}
    (hl : text.toList = x :: l) (h : c.ahead.head? ≠ some x) :
    (accept text).run c = .ok (false, c) := by
  unfold accept
  rw [run_bind_ok (run_get c), hl]
  cases ha : c.ahead with
  | nil =>
    simp only [accept.go, ha]
    rfl
  | cons ch r =>
    have hx : (x == ch) = false := by
      rw [ha] at h
      simpa using fun e => h (by simp [e])
    simp only [accept.go, ha, hx, Bool.false_eq_true, if_false]
    rfl

section sets

variable (hk : c.skipping = false) (ha : c.flags.ascii = false)
  (hs : c.flags.strict = false)
include hk hs

theorem run_bracketClass? (h : c.rest.head? ≠ some '[') : bracketClass?.run c = .ok (none, c) := by
  have hr : (accept "[:").run c = .ok (false, c) :=
    run_accept_other (x := '[') (l := [':']) (by simp) (by simpa [Cursor.ahead, hk] using h)
  unfold bracketClass?
  rw [run_bind_ok (run_get c)]
  simp only [hs, Bool.false_eq_true, if_false]
  rw [run_bind_ok hr]
  rfl

theorem run_setItem_lit (h : c.rest = ch :: tail)
    (hb : ch ≠ '\\') (ho : ch ≠ '[') :
    setItem.run c = .ok (.range ch ch, { c with rest := tail }) := by
  have hr : (accept "\\").run c = .ok (false, c) :=
    run_accept_other (x := '\\') (l := []) (by simp) (by simpa [Cursor.ahead, hk, h] using hb)
  unfold setItem
  rw [run_bind_ok hr]
  simp only [Bool.false_eq_true, if_false]
  rw [run_bind_ok (run_bracketClass? hk hs (by simpa [h] using ho))]
  simp only
  rw [run_bind_ok (run_nextRaw? h)]
  rfl

include ha

theorem run_setItem_escape {s : Sign} (ok : s.okInSet = true) {text tail : List Char}
    (hp : s.print = '\\' :: text) (hl : ∀ ch, s ≠ .lit ch) (h : c.rest = text ++ tail) :
    escapeInSet.run c = .ok (s.item, { c with rest := tail }) := by
  obtain ⟨rest, flags, shared, skipping, count, names, opened, pristine⟩ := c
  obtain ⟨ignoreCase, multiline, dotAll, verbose, ascii, strict⟩ := flags
  simp only at hk hs ha h
  subst hk hs ha h
  cases s with
  | lit ch => exact absurd rfl (hl ch)
  | escaped ch =>
    simp only [Sign.print, List.cons.injEq, true_and] at hp
    subst hp
    simp only [Sign.okInSet, Bool.and_eq_true, Bool.not_eq_true'] at ok
    have hx : hexWidth ch = none := by
      unfold hexWidth
      split <;> first | rfl | simp [Char.isAlpha, Char.isUpper, Char.isLower] at ok
    unfold escapeInSet
    rw [run_bind_ok (run_nextRaw? rfl)]
    simp only [hx, ok, Bool.false_eq_true, if_false]
    rfl
  | brace closing =>
    simp only [Sign.print, List.cons.injEq, true_and] at hp
    subst hp
    cases closing <;> cbv
  | control tab =>
    simp only [Sign.print, List.cons.injEq, true_and] at hp
    subst hp
    cases tab <;> cbv
  | zero =>
    simp only [Sign.print, List.cons.injEq, true_and] at hp
    subst hp
    cbv
  | word positive | digit positive | space positive =>
    simp only [Sign.print, List.cons.injEq, true_and] at hp
    subst hp
    cases positive <;> cbv

theorem run_setItem {s : Sign} (ok : s.okInSet = true)
    (h : c.rest = s.print ++ tail) : setItem.run c = .ok (s.item, { c with rest := tail }) := by
  have hesc : ∀ text, s.print = '\\' :: text → (∀ ch, s ≠ .lit ch) →
      setItem.run c = .ok (s.item, { c with rest := tail }) := by
    intro text hp hl
    have hr : (accept "\\").run c = .ok (true, { c with rest := text ++ tail }) := by
      rw [run_accept_char (d := '\\') (r := text ++ tail) "\\" '\\'
        (by simp [Cursor.ahead, hk, h, hp])
        (by simp)]
      rfl
    unfold setItem
    rw [run_bind_ok hr]
    simp only [if_true]
    exact run_setItem_escape (c := { c with rest := text ++ tail }) hk ha hs ok hp hl rfl
  cases s with
  | lit ch =>
    simp only [Sign.okInSet, Bool.and_eq_true, bne_iff_ne] at ok
    exact run_setItem_lit hk hs h ok.1.1.1.1 ok.1.1.1.2
  | escaped ch => exact hesc _ rfl (by simp)
  | brace closing => exact hesc _ rfl (by simp)
  | control tab => exact hesc _ rfl (by simp)
  | zero => exact hesc _ rfl (by simp)
  | word positive => exact hesc _ rfl (by simp)
  | digit positive => exact hesc _ rfl (by simp)
  | space positive => exact hesc _ rfl (by simp)

theorem run_setMember {s : Sign} (ok : s.okInSet = true) {t : List Char}
    (h : c.rest = s.print ++ t) (ht : t.head? ≠ some '-') :
    setMember.run c = .ok ([s.item], { c with rest := t }) := by
  have hdash : (accept "-").run { c with rest := t } = .ok (false, { c with rest := t }) :=
    run_accept_other (x := '-') (l := []) (by simp) (by simpa [Cursor.ahead, hk] using ht)
  have hinside : dashInside.run { c with rest := t } = .ok (false, { c with rest := t }) := by
    unfold dashInside
    rw [run_bind_ok (run_get _), run_bind_ok hdash]
    rfl
  have hitem : (∃ d, s.item = .range d d) ∨ ∃ k positive, s.item = .named k positive := by
    cases s with
    | lit ch | escaped ch => exact .inl ⟨_, rfl⟩
    | brace b | control b => exact .inl ⟨_, rfl⟩
    | zero => exact .inl ⟨_, rfl⟩
    | word positive | digit positive | space positive => exact .inr ⟨_, _, rfl⟩
  unfold setMember
  rw [run_bind_ok (run_setItem hk ha hs ok h), run_bind_ok (run_get _)]
  obtain ⟨d, hd⟩ | ⟨k, positive, hd⟩ := hitem
  · rw [hd]
    simp only [bne_self_eq_false, Bool.false_eq_true, if_false]
    rw [run_bind_ok (run_get _), run_bind_ok hdash]
    rfl
  · rw [hd]
    simp only
    rw [run_bind_ok hinside]
    simp only [Bool.and_false, Bool.false_eq_true, if_false]
    rfl

end sets

theorem Sign.exists_print_of_okInSet {s : Sign} (ok : s.okInSet = true) :
    ∃ ch r, s.print = ch :: r ∧ ch ≠ ']' ∧ ch ≠ '-' ∧ ch ≠ '^' := by
  cases s with
  | lit ch =>
    simp only [Sign.okInSet, Bool.and_eq_true, bne_iff_ne] at ok
    exact ⟨ch, [], rfl, ok.1.1.2, ok.1.2, ok.2⟩
  | _ => exact ⟨'\\', _, rfl, by decide, by decide, by decide⟩

/-- What comes after a member of a set does not make it the start of a range. -/
theorem head?_signs_ne_dash {signs : List Sign} (ok : signs.all Sign.okInSet = true) :
    (signs.flatMap Sign.print ++ ']' :: tail).head? ≠ some '-' := by
  cases signs with
  | nil => simp
  | cons t signs =>
    simp only [List.all_cons, Bool.and_eq_true] at ok
    obtain ⟨ch, r, hp, _, hne, _⟩ := Sign.exists_print_of_okInSet ok.1
    simpa [hp] using hne

theorem run_setMembers : ∀ (signs : List Sign) {fuel : Nat} {c : Cursor} (items : List CharItem)
    {t : List Char}, c.skipping = false → c.flags.ascii = false → c.flags.strict = false →
    signs.all Sign.okInSet = true → signs.length < fuel →
    c.rest = signs.flatMap Sign.print ++ ']' :: t →
    (setMembers fuel items).run c =
      .ok (items ++ signs.map Sign.item, { c with rest := t })
  | [], 0, c, items, tail, hk, ha, hs, ok, hf, hr => absurd hf (by simp)
  | [], fuel + 1, c, items, tail, hk, ha, hs, ok, hf, hr => by
      have h : (accept "]").run c = .ok (true, { c with rest := tail }) := by
        rw [run_accept_char (d := ']') (r := tail) "]" ']'
          (by simp [Cursor.ahead, hk, hr]) (by simp)]
        rfl
      rw [setMembers, run_bind_ok h, List.map_nil, List.append_nil]
      rfl
  | s :: signs, 0, c, items, tail, hk, ha, hs, ok, hf, hr => absurd hf (by simp)
  | s :: signs, fuel + 1, c, items, tail, hk, ha, hs, ok, hf, hr => by
      simp only [List.all_cons, Bool.and_eq_true] at ok
      rw [List.flatMap_cons, List.append_assoc] at hr
      have h : (accept "]").run c = .ok (false, c) := by
        obtain ⟨ch, r, hp, hne, _⟩ := Sign.exists_print_of_okInSet ok.1
        exact run_accept_other (x := ']') (l := []) (by simp)
          (by simpa [Cursor.ahead, hk, hr, hp] using hne)
      rw [setMembers, run_bind_ok h]
      simp only [Bool.false_eq_true, if_false]
      rw [run_bind_ok (run_setMember hk ha hs ok.1 hr (head?_signs_ne_dash ok.2))]
      rw [run_setMembers signs (c := { c with rest := signs.flatMap Sign.print ++ ']' :: tail })
        (items ++ [s.item]) (t := tail) hk ha hs ok.2 (by simpa using hf) rfl, List.map_cons,
        List.append_assoc]
      rfl

/-- The reader reads a set as the set of its members. -/
theorem run_charSet (negated : Bool) (first : Sign) (more : List Sign)
    (ha : c.flags.ascii = false) (hs : c.flags.strict = false)
    (ok : (first :: more).all Sign.okInSet = true)
    (h : c.rest = (if negated then ['^'] else []) ++ ((first :: more).flatMap Sign.print ++
      ']' :: tail)) :
    charSet.run c =
      .ok ((Atom.set negated first more).node c.flags 0, { c with rest := tail }) := by
  have hneg : (accept "^").run { c with skipping := false } =
      .ok (negated, { c with
        rest := (first :: more).flatMap Sign.print ++ ']' :: tail
        skipping := false }) := by
    cases negated with
    | true =>
      rw [run_accept_char (c := { c with skipping := false }) (d := '^')
        (r := (first :: more).flatMap Sign.print ++ ']' :: tail) "^" '^'
          (by simp [Cursor.ahead, h]) (by simp)]
      rfl
    | false =>
      simp only [Bool.false_eq_true, if_false, List.nil_append] at h
      simp only [List.all_cons, Bool.and_eq_true] at ok
      obtain ⟨ch, r, hp, _, _, hne⟩ := Sign.exists_print_of_okInSet ok.1
      rw [run_accept_other (c := { c with skipping := false }) (x := '^') (l := []) (by simp)
          (by simpa [Cursor.ahead, h, hp] using hne), h]
  simp only [List.all_cons, Bool.and_eq_true] at ok
  have hlen : more.length < (more.flatMap Sign.print ++ ']' :: tail).length + 1 := by
    have : ∀ signs : List Sign, signs.length ≤ (signs.flatMap Sign.print).length := by
      intro signs
      induction signs with
      | nil => simp
      | cons t signs ih =>
        rw [List.flatMap_cons, List.length_append, List.length_cons]
        have : 0 < t.print.length := by cases t <;> simp [Sign.print]
        omega
    have := this more
    simp only [List.length_append, List.length_cons]
    omega
  unfold charSet
  rw [run_bind_ok (run_get c), run_bind_ok (run_modify _ _), run_bind_ok hneg,
    run_bind_ok (run_setMember (c := { c with
        rest := (first :: more).flatMap Sign.print ++ ']' :: tail
        skipping := false }) (s := first) (t := more.flatMap Sign.print ++ ']' :: tail)
          rfl ha hs ok.1 (by simp)
        (head?_signs_ne_dash ok.2)),
    run_bind_ok (run_get _),
    run_bind_ok (run_setMembers more (c := { c with
        rest := more.flatMap Sign.print ++ ']' :: tail
        skipping := false }) [first.item] (t := tail) rfl ha hs ok.2 hlen rfl)]
  rfl

/-! ### Steps of a sequence -/

theorem run_expect (h : c.ahead = ')' :: r) :
    (expect ")").run c = .ok ((), { c with rest := r }) := by
  unfold expect
  rw [run_bind_ok (run_accept_char ")" ')' h (by simp))]
  rfl

theorem sequence_stop (h : c.ahead = ch :: r) (hc : ch = ')' ∨ ch = '|') :
    (sequence (fuel + 1) before last).run c =
      .ok (.ofList (last.toList ++ before).reverse, { c with pristine := false }) := by
  rw [sequence, run_bind_ok (run_get c), run_bind_ok (run_next? h)]
  obtain rfl | rfl := hc <;> rfl

theorem sequence_paren (h : c.ahead = '(' :: r)
    (hp : (paren fuel c.pristine).run { c with rest := r, pristine := false } = .ok (some n, c')) :
    (sequence (fuel + 1) before last).run c =
      (sequence fuel (last.toList ++ before) (some n)).run c' := by
  rw [sequence, run_bind_ok (run_get c), run_bind_ok (run_next? h)]
  simp only [Char.reduceBEq, Bool.or_false, Bool.false_eq_true, if_false, if_true]
  rw [run_bind_ok (run_modify _ _), run_bind_ok hp]
  cases last <;> rfl

theorem sequence_set (h : c.ahead = '[' :: r)
    (hp : charSet.run { c with rest := r, pristine := false } = .ok (n, c')) :
    (sequence (fuel + 1) before last).run c =
      (sequence fuel (last.toList ++ before) (some n)).run c' := by
  rw [sequence, run_bind_ok (run_get c), run_bind_ok (run_next? h)]
  simp only [Char.reduceBEq, Bool.or_false, Bool.false_eq_true, if_false, if_true]
  rw [run_bind_ok (run_modify _ _), run_bind_ok hp]
  cases last <;> rfl

theorem sequence_escape (h : c.ahead = '\\' :: r)
    (hp : escape.run { c with rest := r, pristine := false } = .ok (n, c')) :
    (sequence (fuel + 1) before last).run c =
      (sequence fuel (last.toList ++ before) (some n)).run c' := by
  rw [sequence, run_bind_ok (run_get c), run_bind_ok (run_next? h)]
  simp only [Char.reduceBEq, Bool.or_false, Bool.false_eq_true, if_false, if_true]
  rw [run_bind_ok (run_modify _ _), run_bind_ok hp]
  cases last <;> rfl

theorem sequence_literal (h : c.ahead = ch :: r) (hs : isSpecial ch = false) :
    (sequence (fuel + 1) before last).run c =
      (sequence fuel (last.toList ++ before) (some (.one (.single ch c.flags.folding)))).run
        { c with rest := r, pristine := false } := by
  rw [sequence, run_bind_ok (run_get c), run_bind_ok (run_next? h)]
  simp only [isSpecial, List.contains_cons, List.contains_nil, Bool.or_false,
    Bool.or_eq_false_iff] at hs
  simp only [hs, Bool.or_false, Bool.false_eq_true, if_false]
  rw [run_bind_ok (run_modify _ _), run_bind_ok (show (literal ch).run _ = .ok (_, _) from rfl)]
  cases last <;> rfl

theorem sequence_dot (h : c.ahead = '.' :: r) : (sequence (fuel + 1) before last).run c =
      (sequence fuel (last.toList ++ before) (some (.one {
          items := if c.flags.dotAll then [] else [.range '\n' '\n']
          negated := true }))).run
        { c with rest := r, pristine := false } := by
  rw [sequence, run_bind_ok (run_get c), run_bind_ok (run_next? h)]
  simp only [Char.reduceBEq, Bool.or_false, Bool.false_eq_true, if_false, if_true]
  rw [run_bind_ok (run_modify _ _)]
  cases last <;> cases c.flags.dotAll <;> rfl

theorem sequence_anchor {d : Char} (h : c.ahead = d :: r) (hc : d = '^' ∨ d = '$') :
    (sequence (fuel + 1) before last).run c =
      (sequence fuel (last.toList ++ before)
        (some (.anchor (if d = '^' then (if c.flags.multiline then .lineStart else .textStart)
          else (if c.flags.multiline then .lineEnd else .lastLineEnd))))).run
        { c with rest := r, pristine := false } := by
  rw [sequence, run_bind_ok (run_get c), run_bind_ok (run_next? h)]
  obtain rfl | rfl := hc
  all_goals
    simp only [Char.reduceBEq, Bool.or_false, Bool.false_eq_true, if_false, if_true, Char.reduceEq]
    rw [run_bind_ok (run_modify _ _)]
    cases last <;> cases c.flags.multiline <;> rfl

variable (fuel before) in
theorem sequence_mark (m : Mark) (reluctant : Bool) (h : c.ahead = m.char :: r)
    (hs : c.flags.strict = false) (hn : n.isEmpty = false)
    (hr : reluctant = true → ∃ r', aheadOf c.skipping r = '?' :: r')
    (hg : reluctant = false → (aheadOf c.skipping r).head? ≠ some '?' ∧
      (aheadOf c.skipping r).head? ≠ some '+') :
    ∃ r', (reluctant = false → r' = r) ∧ (reluctant = true → aheadOf c.skipping r = '?' :: r') ∧
    (sequence (fuel + 1) before (some n)).run c =
      (sequence fuel (.rep n m.least m.most reluctant :: before) none).run
        { c with rest := r', pristine := false } := by
  have hrep : ∃ r', (reluctant = false → r' = r) ∧
      (reluctant = true → aheadOf c.skipping r = '?' :: r') ∧
      (repeated (some n) before m.least m.most).run { c with rest := r, pristine := false } =
        .ok (.rep n m.least m.most reluctant, { c with rest := r', pristine := false }) := by
    have htriv : (n.isEmpty || (m.least == 1 && m.most == some 1)) = false := by
      rw [hn]
      cases m <;> rfl
    cases reluctant with
    | true =>
      obtain ⟨r', hr'⟩ := hr rfl
      refine ⟨r', by simp, fun _ => hr', ?_⟩
      unfold repeated
      simp only
      rw [run_bind_ok (run_get _)]
      simp only [hs, Bool.false_and, Bool.false_eq_true, if_false]
      rw [run_bind_ok (run_accept_char (c := { c with rest := r, pristine := false })
        "?" '?' hr' (by simp))]
      simp only [beq_self_eq_true, if_true, htriv]
      rfl
    | false =>
      refine ⟨r, by simp, by simp, ?_⟩
      unfold repeated
      simp only
      rw [run_bind_ok (run_get _)]
      simp only [hs, Bool.false_and, Bool.false_eq_true, if_false]
      rw [run_bind_ok (run_accept_other (c := { c with rest := r, pristine := false })
        (x := '?') (l := [])
        (by simp) (hg rfl).1)]
      simp only [Bool.false_eq_true, if_false]
      rw [run_bind_ok (run_accept_other (c := { c with rest := r, pristine := false })
        (x := '+') (l := [])
        (by simp) (hg rfl).2)]
      simp only [Bool.false_eq_true, if_false, htriv]
      rfl
  obtain ⟨r', h1, h2, h3⟩ := hrep
  refine ⟨r', h1, h2, ?_⟩
  rw [sequence, run_bind_ok (run_get c), run_bind_ok (run_next? h)]
  have hb : (bounds m.char).run { c with rest := r, pristine := false } =
      .ok (some (m.least, m.most), { c with rest := r, pristine := false }) := by
    cases m <;> rfl
  cases m
  all_goals
    simp only [Mark.char, Char.reduceBEq, Bool.or_false, Bool.or_true, Bool.false_eq_true, if_false,
      if_true]
    exact (run_bind_ok (run_modify _ _)).trans ((run_bind_ok hb).trans (run_bind_ok h3))

theorem union_empty (f : Flags) : (f.union {}).diff {} = f := by
  simp [Flags.union, Flags.diff]

/-- Reads what stands between parentheses. -/
def inner (fuel : Nat) : Reader Node := do
  let n ← alternatives fuel []
  expect ")"
  return n

theorem run_inScope {α : Type} {x : Reader α} {a : α} (h : x.run c = .ok (a, c')) :
      (inScope x).run c = .ok (a, { c' with flags := c.flags, skipping := c.flags.verbose }) := by
  unfold inScope
  rw [run_bind_ok (run_get c), run_bind_ok h]
  rfl

theorem paren_plain {first : Bool} {w : List Char}
    (h : c.rest = '?' :: ':' :: w) (hk : c.skipping = c.flags.verbose)
    (hi : (inner fuel).run { c with rest := w } = .ok (n, c')) :
    (paren (fuel + 1) first).run c =
      .ok (some n, { c' with flags := c.flags, skipping := c.flags.verbose }) := by
  have hcolon : Cursor.ahead { c with rest := ':' :: w } = ':' :: w := by
    unfold Cursor.ahead
    cases c.skipping <;> rfl
  have hf : (flagSet (w.length + 1) {} false).run { c with rest := ':' :: w } =
      .ok (({}, false), { c with rest := ':' :: w }) := by
    rw [flagSet, run_bind_ok (run_get _), run_bind_ok (run_next? hcolon)]
    rfl
  have hd : (accept "-").run { c with rest := ':' :: w } =
      .ok (false, { c with rest := ':' :: w }) := by
    rw [run_accept_char "-" '-' hcolon (by simp)]
    rfl
  have ha : (accept ":").run { c with rest := ':' :: w } =
      .ok (true, { c with rest := w }) := by
    rw [run_accept_char ":" ':' hcolon (by simp)]
    rfl
  rw [paren, run_bind_ok (run_get c), run_bind_ok (run_nextRaw? h)]
  simp only
  rw [run_bind_ok (run_get _), run_bind_ok (run_nextRaw? rfl)]
  show (set _ >>= _ : Reader (Option Node)).run _ = _
  rw [run_bind_ok (run_set _ _)]
  show ((flagSet (w.length + 1) {} false >>= _ : Reader (Option Node))).run _ = _
  rw [run_bind_ok hf]
  simp only
  rw [run_bind_ok hd]
  simp only [Bool.false_eq_true, if_false, pure_bind, if_true]
  rw [run_bind_ok ha]
  simp only [if_true]
  have hin : (do
      modify fun c =>
        { c with flags := (c.flags.union {}).diff {}, skipping := ((c.flags.union {}).diff {}).verbose }
      inner fuel : Reader Node).run { c with rest := w } = .ok (n, c') := by
    rw [run_bind_ok (run_modify _ _)]
    simp only [union_empty, ← hk]
    exact hi
  exact run_bind_ok (run_inScope hin)

theorem paren_look {first behind positive : Bool}
    {w : List Char} (h : c.rest = (Paren.look behind positive).text ++ w)
    (hs : c.flags.strict = false)
    (hi : (inner fuel).run { c with rest := w } = .ok (n, c')) :
    (paren (fuel + 1) first).run c =
      .ok (some (.look behind positive n),
        { c' with flags := c.flags, skipping := c.flags.verbose }) := by
  have hin := run_inScope hi
  have hmark : ∀ ch, ch = '=' ∨ ch = '!' →
      Cursor.ahead { c with rest := ch :: w } = ch :: w := by
    rintro ch (rfl | rfl) <;> unfold Cursor.ahead <;> cases c.skipping <;> rfl
  cases behind with
  | false =>
    cases positive
    all_goals
      rw [paren, run_bind_ok (run_get c), run_bind_ok (run_nextRaw? h)]
      simp only
      rw [run_bind_ok (run_get _), run_bind_ok (run_nextRaw? rfl)]
      exact run_bind_ok hin
  | true =>
    cases positive
    all_goals
      rw [paren, run_bind_ok (run_get c), run_bind_ok (run_nextRaw? h)]
      simp only
      rw [run_bind_ok (run_get _), run_bind_ok (run_nextRaw? rfl)]
      show (get >>= _ : Reader (Option Node)).run _ = _
      rw [run_bind_ok (run_get _)]
      refine (run_bind_ok (run_next? (hmark _ (by simp)))).trans ?_
      refine (run_bind_ok hin).trans ?_
      rw [run_bind_ok (run_get _)]
      simp only [hs, Bool.true_and, Bool.false_and, Bool.false_eq_true, if_false]
      rfl

theorem paren_capture {first : Bool} {d : Char} {w : List Char} (h : c.rest = d :: w) (hq : d ≠ '?')
    (hi : (inner fuel).run
      { c with count := c.count + 1, opened := (c.count + 1) :: c.opened } = .ok (n, c')) :
    (paren (fuel + 1) first).run c =
      .ok (some (.group (c.count + 1) n),
        { c' with
          flags := c.flags
          skipping := c.flags.verbose
          opened := c'.opened.erase (c.count + 1) }) := by
  rw [paren, run_bind_ok (run_get c), run_bind_ok (run_nextRaw? h)]
  simp only
  split
  · rename_i heq
    simp only [Option.some.injEq] at heq
    exact absurd heq hq
  · rw [run_bind_ok (run_set _ _)]
    rw [run_bind_ok (show (openGroup none).run c =
      .ok (c.count + 1, { c with count := c.count + 1, opened := (c.count + 1) :: c.opened })
        from rfl)]
    exact run_bind_ok (run_inScope hi)

/-! ### Ends of sequences -/

/-- At the end of a sequence the reader gives what it has read. -/
theorem sequence_done (fuel : Nat) (before : List Node) (last : Option Node)
    (ha : aheadOf c.skipping c.rest = aheadOf c.skipping tail)
    (hs : Stops c.skipping true tail) :
    ∃ rest b, aheadOf c.skipping rest = aheadOf c.skipping tail ∧
      (sequence (fuel + 1) before last).run c =
        .ok (.ofList (last.toList ++ before).reverse, c.moved rest 0 b) := by
  obtain h | ⟨ch, r, h, hch⟩ := hs
  · refine ⟨[], c.pristine, ?_, ?_⟩
    · rw [h]
      cases c.skipping <;> rfl
    · exact sequence_end (by rw [ahead_eq, ha, h])
  · refine ⟨c.rest, false, ha, ?_⟩
    exact sequence_stop (by rw [ahead_eq, ha, h]) (by simpa using hch)

theorem run_recall {flags : Flags} (hp : Plain flags) {opened : List Nat} {k i : Nat}
    (hc : c.On flags opened k) (h1 : 1 ≤ i) (h9 : i ≤ 9) (ho : opened.contains i = false)
    (hr : c.rest = Nat.digitChar i :: tail) (hs : Stops c.skipping true tail) :
    escape.run c = .ok (.recall i flags.folding, { c with rest := tail }) := by
  have hrec : (recallOf (String.ofList [Nat.digitChar i])).run { c with rest := tail } =
      .ok (.recall i flags.folding, { c with rest := tail }) := by
    have hidx : (groupIndex (String.ofList [Nat.digitChar i])).run { c with rest := tail } =
        .ok (i, { c with rest := tail }) := by
      unfold groupIndex
      rw [run_bind_ok (run_get _)]
      simp only [String.toList_ofList]
      interval_cases i <;> rfl
    unfold recallOf
    rw [run_bind_ok hidx, run_bind_ok (run_get _)]
    simp only [hc.flags_eq, hp.strict, Bool.false_and, Bool.false_eq_true, if_false,
      hc.opened_eq, ho]
    rfl
  have hnum : (numericEscape (Nat.digitChar i)).run { c with rest := tail } =
      .ok (.recall i flags.folding, { c with rest := tail }) := by
    unfold numericEscape
    have h0 : (Nat.digitChar i == '0') = false := by interval_cases i <;> rfl
    simp only [h0, Bool.false_eq_true, if_false]
    rw [run_bind_ok (run_get _)]
    obtain h | ⟨ch, r, h, hch⟩ := hs
    · rw [run_bind_ok (run_next?_end (c := { c with rest := tail }) h)]
      simp only
      rw [run_bind_ok (run_set _ _)]
      exact hrec
    · rw [run_bind_ok (run_next? (c := { c with rest := tail }) h)]
      have hd : ch.isDigit = false := by
        rcases hch with rfl | ⟨_, rfl⟩ <;> rfl
      simp only [hd, Bool.false_eq_true, if_false]
      rw [run_bind_ok (run_set _ _)]
      exact hrec
  unfold escape
  rw [run_bind_ok (run_nextRaw? hr)]
  simp only
  rw [run_bind_ok (run_get _)]
  interval_cases i <;> exact hnum

end TemplateTidy.Pattern
