import TemplateTidy.Proofs.Layout.BrokenLines

/-! # Tags in texts without quotes

Where a text holds no quotes and no braces, the tag of an element goes from an opening bracket with
a name to the next closing bracket, whatever stands between.  `BeginsTag` says where such a tag
begins, and the pattern of tags matches exactly there (`exists_first_breakTag`,
`points_breakTag_eq_nil`).  Line feeds before opening and after closing brackets change nothing
about it (`beginsTag_spread`). -/

namespace TemplateTidy.Layout

open Node Pattern Text

/-- No quotes and no braces. -/
def Unquoted (text : List Char) : Prop :=
  ∀ c ∈ ['"', '\'', '\x7b', '\x7d'], c ∉ text

instance (text : List Char) : Decidable (Unquoted text) :=
  decidable_of_iff ((['"', '\'', '\x7b', '\x7d'].all fun c => !text.contains c) = true)
    (by simp [Unquoted])

/-! ### Names -/

/-- One of the words stands at the beginning, up to a word edge. -/
def Named (t : List Char) : Prop :=
  ∃ w ∈ wordSets (breakWords []), fits w t = true ∧
    (t[w.length - 1]?.any isWord != t[w.length]?.any isWord) = true

/-- The tag of an element that stands on a line of its own begins here. -/
def BeginsTag (r : List Char) : Prop :=
  '>' ∈ r ∧ ∃ closing t, r = bracket closing ++ t ∧ Named t

/-- The characters up to the next bracket or line feed. -/
def stem (t : List Char) : List Char :=
  t.takeWhile fun c => c != '<' && c != '>' && c != '\n'

/-- The words are not empty and hold neither brackets nor line feeds. -/
theorem breakWords_check : ((wordSets (breakWords [])).all fun w =>
    w != [] && w.all fun cs => !cs.holds '<' && !cs.holds '>' && !cs.holds '\n') = true := by
  decide +kernel

theorem stops_of_mem_words {w : List CharSet} (hw : w ∈ wordSets (breakWords [])) :
    w ≠ [] ∧ ∀ cs ∈ w, ∀ c : Char, c = '<' ∨ c = '>' ∨ c = '\n' → cs.holds c = false := by
  have h := List.all_eq_true.1 breakWords_check w hw
  simp only [Bool.and_eq_true, bne_iff_ne, List.all_eq_true, Bool.not_eq_true'] at h
  refine ⟨h.1, fun cs hcs c hc => ?_⟩
  obtain ⟨⟨h₁, h₂⟩, h₃⟩ := h.2 cs hcs
  obtain rfl | rfl | rfl := hc
  · exact h₁
  · exact h₂
  · exact h₃

/-- A text is its stem, and then it ends or one of the signs stands there. -/
theorem exists_stem (t : List Char) : ∃ r, t = stem t ++ r ∧ ∀ c ∈ r.head?, c = '<' ∨ c = '>' ∨
    c = '\n' := by
  refine ⟨_, (List.takeWhile_append_dropWhile).symm, fun c hc => ?_⟩
  have h := List.head?_dropWhile_not (fun c => c != '<' && c != '>' && c != '\n') t
  rw [hc] at h
  simp only [Bool.and_eq_false_iff, bne_eq_false_iff_eq] at h
  tauto

/-- A word that cannot take what follows fits before it. -/
theorem fits_of_append {r : List Char} : ∀ {w : List CharSet} {v : List Char},
    (∀ cs ∈ w, ∀ c ∈ r.head?, cs.holds c = false) → fits w (v ++ r) = true → fits w v = true ∧
    w.length ≤ v.length
  | [], _, _, _ => ⟨rfl, Nat.zero_le _⟩
  | cs :: w, [], hw, h => by
      cases r with
      | nil => cases h
      | cons c r =>
        simp only [List.nil_append, fits, Bool.and_eq_true] at h
        rw [hw cs (by simp) c rfl] at h
        cases h.1
  | cs :: w, d :: v, hw, h => by
      simp only [List.cons_append, fits, Bool.and_eq_true] at h ⊢
      obtain ⟨hfits, hlen⟩ := fits_of_append (fun cs hcs => hw cs (by simp [hcs])) h.2
      exact ⟨⟨h.1, hfits⟩, Nat.succ_le_succ hlen⟩

theorem isWord_of_stop {c : Char} (h : c = '<' ∨ c = '>' ∨ c = '\n') : isWord c = false := by
  obtain rfl | rfl | rfl := h <;> decide

/-- Whether a name stands at the beginning is seen from the stem. -/
theorem named_stem {t : List Char} : Named (stem t) ↔ Named t := by
  obtain ⟨r, ht, hr⟩ := exists_stem t
  generalize stem t = v at ht
  subst ht
  refine exists_congr fun w => and_congr_right fun hw => ?_
  obtain ⟨hne, hstop⟩ := stops_of_mem_words hw
  have hpos : 0 < w.length := List.length_pos_iff.2 hne
  -- what follows the word is in the stem, or it is no word character
  have hnext : w.length ≤ v.length → (v ++ r)[w.length - 1]? = v[w.length - 1]? ∧
      (v ++ r)[w.length]?.any isWord = v[w.length]?.any isWord := by
    intro hlen
    refine ⟨List.getElem?_append_left (by omega), ?_⟩
    rcases hlen.lt_or_eq with hlt | heq
    · rw [List.getElem?_append_left hlt]
    · rw [heq, List.getElem?_append_right le_rfl, Nat.sub_self, ← List.head?_eq_getElem?,
        List.getElem?_eq_none le_rfl]
      cases hh : r.head? with
      | none => rfl
      | some c => exact isWord_of_stop (hr c hh)
  constructor
  · rintro ⟨h, hedge⟩
    have hlen : w.length ≤ v.length := (fits_of_append (r := []) (by simp) (by simpa using h)).2
    rw [← (hnext hlen).1, ← (hnext hlen).2] at hedge
    exact ⟨fits_append h, hedge⟩
  · rintro ⟨h, hedge⟩
    obtain ⟨hfit, hlen⟩ := fits_of_append (fun cs hcs c hc => hstop cs hcs c (hr c hc)) h
    rw [(hnext hlen).1, (hnext hlen).2] at hedge
    exact ⟨hfit, hedge⟩

/-! ### Spread texts -/

theorem stem_spread {t t' : List Char} (h : Spread '<' '>' t t') : stem t' = stem t := by
  induction h with
  | nil => rfl
  | keep x _ ih =>
    rw [stem, stem, List.takeWhile_cons, List.takeWhile_cons]
    split
    · exact congrArg (x :: ·) ih
    · rfl
  | before _ ih => rfl
  | after _ ih => rfl

theorem named_spread {t t' : List Char} (h : Spread '<' '>' t t') : Named t' ↔ Named t := by
  rw [← named_stem, stem_spread h, named_stem]

/-- Line feeds beside brackets do not change where a tag begins. -/
theorem beginsTag_spread {c : Char} {r r' : List Char} (h : Spread '<' '>' r r') :
    BeginsTag (c :: r') ↔ BeginsTag (c :: r) := by
  have hmem : '>' ∈ c :: r' ↔ '>' ∈ c :: r := by
    rw [List.mem_cons, List.mem_cons, h.fed.mem_iff (by decide)]
  refine and_congr hmem (exists_congr fun closing => ?_)
  cases closing with
  | false =>
    constructor
    · rintro ⟨t, ht, hnamed⟩
      obtain ⟨rfl, rfl⟩ := List.cons.inj ht
      exact ⟨r, rfl, (named_spread h).1 hnamed⟩
    · rintro ⟨t, ht, hnamed⟩
      obtain ⟨rfl, rfl⟩ := List.cons.inj ht
      exact ⟨r', rfl, (named_spread h).2 hnamed⟩
  | true =>
    constructor
    · rintro ⟨t, ht, hnamed⟩
      obtain ⟨rfl, rfl⟩ := List.cons.inj ht
      cases h with
      | keep _ h => exact ⟨_, rfl, (named_spread h).1 hnamed⟩
    · rintro ⟨t, ht, hnamed⟩
      obtain ⟨rfl, rfl⟩ := List.cons.inj ht
      cases h with
      | keep _ h => exact ⟨_, rfl, (named_spread h).2 hnamed⟩

/-! ### Pieces of a tag -/

/-- Everything but quotes, braces and the closing bracket. -/
def innerSet : CharSet :=
  { items := [.range '\'' '\'', .range '"' '"', .range '>' '>', .range '\x7b' '\x7b', .range '\x7d' '\x7d']
    negated := true
    folding := .simple }

theorem holds_innerSet {c : Char} (h : c ∉ ['"', '\'', '\x7b', '\x7d']) (hc : c ≠ '>') :
    innerSet.holds c = true := by
  by_contra hnot
  have hpositive : ({ innerSet with negated := false } : CharSet).holds c = true := by
    rw [CharSet.holds] at hnot ⊢
    simp only [show innerSet.negated = true from rfl, Bool.bne_true, Bool.not_eq_true,
      Bool.not_eq_false'] at hnot
    rw [Bool.bne_false]
    exact hnot
  have honly : ({ innerSet with negated := false } : CharSet).onlyOf ['>', '"', '\'', '\x7b',
      '\x7d'].contains = true := by decide
  have hsign := CharSet.holds_onlyOf honly hpositive
  rw [List.contains_iff_mem, List.mem_cons] at hsign
  exact hsign.elim hc h

/-- A piece is quoted or in braces, or it is one other character. -/
theorem exists_pieceNode : ∃ a b c : Node, pieceNode = .alt (.seq (.one (signSet '"')) a)
    (.alt (.seq (.one (signSet '\'')) b) (.alt (.seq (.one (signSet '\x7b')) c) (.one innerSet))) :=
  ⟨_, _, _, rfl⟩

variable {scene : Scene} {p q : Point}

theorem head_of_rest {c : Char} {r : List Char} (hfree : Unquoted scene.text.toList)
    (hrest : scene.rest p = c :: r) : c ∉ ['"', '\'', '\x7b', '\x7d'] := by
  intro hc
  refine hfree c hc (List.mem_of_mem_drop (i := p.pos) ?_)
  rw [show scene.text.toList.drop p.pos = scene.rest p from rfl, hrest]
  exact List.mem_cons_self

/-- Without quotes and braces, a piece is one character. -/
theorem points_piece (hfree : Unquoted scene.text.toList) :
    pieceNode.points scene false p = (Node.one innerSet).points scene false p := by
  obtain ⟨a, b, c, hpiece⟩ := exists_pieceNode
  have hnone : ∀ {x : Char} {n : Node}, x ∈ ['"', '\'', '\x7b', '\x7d'] → isCaseless x = true →
      (Node.seq (.one (signSet x)) n).points scene false p = [] := by
    intro x n hx hcase
    refine points_seq_nil_left (points_one_of_not fun d hd => ?_)
    obtain ⟨r, hr⟩ := List.head?_eq_some_iff.1 hd
    refine signSet_of_ne hcase ?_
    rintro rfl
    exact head_of_rest hfree hr hx
  rw [hpiece, points_alt, points_alt, points_alt, hnone (by simp) (by decide),
    hnone (by simp) (by decide), hnone (by simp) (by decide)]
  rfl

/-- Without quotes and braces, a piece in its group is one character but the closing bracket. -/
theorem points_piece_group (hfree : Unquoted scene.text.toList) {c : Char} {r : List Char}
    (hrest : scene.rest p = c :: r) : (Node.group 2 pieceNode).points scene false p =
      if c = '>' then [] else [(p.move 1).mark 2 ⟨p.pos, p.pos + 1⟩] := by
  rw [points_group, points_piece hfree]
  split
  next h =>
    subst h
    rw [points_one_of_not fun d hd => ?_]
    · rfl
    · obtain rfl : '>' = d := by simpa [hrest] using hd
      decide
  next h =>
    rw [points_one_of_holds hrest (holds_innerSet (head_of_rest hfree hrest) h)]
    rfl

/-! ### Tags -/

/-- Rounds of one character each get to every place up to which they go on. -/
theorem exists_mem_roundPoints {body : Point → List Point} {least stop : Nat}
    (hbody : ∀ m : Point, least ≤ m.pos → m.pos < stop → ∃ m', body m = [m'] ∧ m'.pos = m.pos + 1) :
    ∀ {fuel count : Nat} {p : Point} {seen : List Place}, least ≤ p.pos → p.pos ≤ stop →
      stop < p.pos + fuel → (∀ x ∈ seen, x.pos < p.pos) →
      ∃ q ∈ (roundPoints scene body 0 none false fuel count p seen).1, q.pos = stop
  | 0, _, _, _, _, hle, hfuel, _ => absurd hfuel (by omega)
  | fuel + 1, count, p, seen, hleast, hle, hfuel, hseen => by
      have hnew : seen.contains (placeOf scene 0 none count p) = false := by
        rw [Bool.eq_false_iff, Ne, List.contains_iff_mem]
        exact fun hmem => absurd (hseen _ hmem) (lt_irrefl p.pos)
      rw [roundPoints]
      simp only [hnew, Bool.false_eq_true, if_false, Option.all_none, if_true, Nat.zero_le]
      rcases hle.lt_or_eq with hlt | heq
      · obtain ⟨m, hm, hpos⟩ := hbody p hleast hlt
        have hseen' : ∀ x ∈ placeOf scene 0 none count p :: seen, x.pos < m.pos := by
          intro x hx
          obtain rfl | hx := List.mem_cons.1 hx
          · rw [hpos]
            exact Nat.lt_succ_self _
          · exact (hseen x hx).trans (by omega)
        obtain ⟨q, hq, hstop⟩ : ∃ q ∈ (roundPoints scene body 0 none false fuel (count + 1) m
            (placeOf scene 0 none count p :: seen)).1, q.pos = stop :=
          exists_mem_roundPoints hbody (by omega) (by omega) (by omega) hseen'
        refine ⟨q, List.mem_append_left _ ?_, hstop⟩
        rw [hm, gather, gather, if_neg (by omega)]
        exact List.mem_append_left _ hq
      · exact ⟨p, List.mem_append_right _ (List.mem_singleton_self p), heq⟩

/-- Where a name begins, the point behind it is reached if a word edge is there. -/
theorem named_iff {r : List Char} (hrest : scene.rest p = r) : Named r ↔
    ∃ m ∈ (choice ((wordSets (breakWords [])).map word)).points scene false p,
      scene.holdsAt (.wordEdge false true) m.pos = true := by
  subst hrest
  have hedge : ∀ n, 0 < n → (scene.holdsAt (.wordEdge false true) (p.pos + n) =
      ((scene.rest p)[n - 1]?.any isWord != (scene.rest p)[n]?.any isWord)) := by
    intro n hn
    have hword : ∀ i, scene.wordAt false (p.pos + i) = (scene.rest p)[i]?.any isWord := by
      intro i
      rw [← scene.getElem?_add, Scene.wordAt]
      cases scene.text[p.pos + i]? <;> rfl
    simp only [Scene.holdsAt, Scene.wordBefore, beq_true, hword]
    rw [show p.pos + n - 1 = p.pos +
      (n - 1) by omega, hword, decide_eq_true (by omega : 0 < p.pos + n), Bool.true_and]
  constructor
  · rintro ⟨w, hw, hfits, hend⟩
    refine ⟨p.move w.length, mem_points_words.2 ⟨w, hw, hfits, rfl⟩, ?_⟩
    rw [Point.move_pos, hedge _ (List.length_pos_iff.2 (stops_of_mem_words hw).1), hend]
  · rintro ⟨m, hm, hend⟩
    obtain ⟨w, hw, hfits, rfl⟩ := mem_points_words.1 hm
    rw [Point.move_pos, hedge _ (List.length_pos_iff.2 (stops_of_mem_words hw).1)] at hend
    exact ⟨w, hw, hfits, hend⟩

/-- What stands between a name and the end of its tag. -/
def tagTail : Node := .seq (.rep (.group 2 pieceNode) 0 none false) (.one (signSet '>'))

theorem points_pieces : (Node.rep (.group 2 pieceNode) 0 none false).points scene false p =
    (roundPoints scene ((Node.group 2 pieceNode).points scene false) 0 none false
      (scene.text.size + 1) 0 p []).1 := by
  rw [points, if_neg (by decide)]

theorem mem_points_piece (hfree : Unquoted scene.text.toList)
    (hq : q ∈ (Node.group 2 pieceNode).points scene false p) :
    ∃ c r, scene.rest p = c :: r ∧ c ≠ '>' ∧ q = (p.move 1).mark 2 ⟨p.pos, p.pos + 1⟩ := by
  cases hrest : scene.rest p with
  | nil =>
    rw [points_group, points_piece hfree, points_one_of_not (by simp [hrest])] at hq
    cases hq
  | cons c r =>
    rw [points_piece_group hfree hrest] at hq
    split at hq
    · cases hq
    · exact ⟨c, r, rfl, ‹_›, List.mem_singleton.1 hq⟩

/-- Pieces take characters up to a closing bracket. -/
theorem rest_of_iter_pieces (hfree : Unquoted scene.text.toList) {n : Nat}
    (h : Iter (fun p q => q ∈ (Node.group 2 pieceNode).points scene false p) n p q) :
    ∃ v, scene.rest p = v ++ scene.rest q ∧ '>' ∉ v ∧ q.pos = p.pos + v.length ∧
    q.start = p.start := by
  induction h with
  | zero p => exact ⟨[], rfl, by simp, rfl, rfl⟩
  | succ hstep _ ih =>
    obtain ⟨c, r, hrest, hc, rfl⟩ := mem_points_piece hfree hstep
    obtain ⟨v, hv, hnot, hpos, hstart⟩ := ih
    rw [Scene.rest_mark, Scene.rest_move, hrest] at hv
    refine ⟨c :: v, ?_, by simp [hnot, Ne.symm hc], ?_, hstart⟩
    · rw [hrest, List.cons_append, ← hv]
      rfl
    · rw [hpos, List.length_cons, Point.mark_pos, Point.move_pos]
      omega

theorem mem_points_tagTail (hfree : Unquoted scene.text.toList)
    (hq : q ∈ tagTail.points scene false p) :
    ∃ v s, scene.rest p = v ++ '>' :: s ∧ '>' ∉ v ∧ q.pos = p.pos + v.length + 1 ∧
    q.start = p.start := by
  rw [tagTail, points_seq, points_pieces] at hq
  obtain ⟨m, hm, hq⟩ := List.mem_flatMap.1 hq
  obtain ⟨n, -, -, hiter⟩ := iter_of_mem_roundPoints hm
  obtain ⟨v, hv, hnot, hpos, hstart⟩ := rest_of_iter_pieces hfree hiter
  obtain ⟨c, s, hc, hholds, rfl⟩ := reach_one.1 (reach_of_mem_points hq)
  rw [holds_signSet (by decide), beq_iff_eq] at hholds
  subst hholds
  exact ⟨v, s, by rw [hv, hc], hnot, by rw [Point.move_pos, hpos], hstart⟩

theorem points_tagTail_ne_nil (hfree : Unquoted scene.text.toList) (h : '>' ∈ scene.rest p) :
    tagTail.points scene false p ≠ [] := by
  obtain ⟨v, s, hrest, hv⟩ := List.eq_append_cons_of_mem h
  have hlen : v.length < scene.text.size - p.pos := by
    have := congrArg List.length hrest
    rw [Scene.rest, List.length_drop, Array.length_toList, List.length_append,
      List.length_cons] at this
    omega
  have hbody : ∀ m : Point, p.pos ≤ m.pos → m.pos < p.pos + v.length →
      ∃ m', (Node.group 2 pieceNode).points scene false m = [m'] ∧ m'.pos = m.pos + 1 := by
    intro m hle hlt
    obtain ⟨i, hi⟩ := Nat.exists_eq_add_of_le hle
    have hi' : i < v.length := by omega
    have hrestm : scene.rest m = v[i] :: (v.drop (i + 1) ++ '>' :: s) := by
      rw [scene.rest_eq_of_pos (p.move i) hi, Scene.rest_move, hrest,
        List.drop_append_of_le_length hi'.le, List.drop_eq_getElem_cons hi', List.cons_append]
    have hne : v[i] ≠ '>' := fun he => hv (he ▸ List.getElem_mem hi')
    rw [points_piece_group hfree hrestm, if_neg hne]
    exact ⟨_, rfl, rfl⟩
  obtain ⟨m, hm, hpos⟩ :
    ∃ m ∈ (roundPoints scene ((Node.group 2 pieceNode).points scene false) 0 none false
      (scene.text.size + 1) 0 p []).1, m.pos = p.pos + v.length :=
    exists_mem_roundPoints hbody le_rfl (Nat.le_add_right _ _) (by omega) (by simp)
  have hclose : scene.rest m = '>' :: s := by
    rw [scene.rest_eq_of_pos (p.move v.length) hpos, Scene.rest_move, hrest, List.drop_left]
  rw [tagTail, points_seq, points_pieces]
  refine List.ne_nil_of_mem (a := m.move 1) (List.mem_flatMap.2 ⟨m, hm, ?_⟩)
  rw [points_one_of_holds hclose (signSet_self (by decide))]
  exact List.mem_singleton_self _

/-- A word takes only characters that it holds. -/
theorem holds_of_mem_take {w : List CharSet} {t : List Char} (h : fits w t = true) {c : Char}
    (hc : c ∈ t.take w.length) : ∃ cs ∈ w, cs.holds c = true := by
  induction w generalizing t with
  | nil => simp at hc
  | cons cs w ih =>
    cases t with
    | nil => cases h
    | cons d t =>
      simp only [fits, Bool.and_eq_true] at h
      obtain rfl | hc := List.mem_cons.1 hc
      · exact ⟨cs, List.mem_cons_self, h.1⟩
      · obtain ⟨cs', hcs', hholds⟩ := ih h.2 hc
        exact ⟨cs', List.mem_cons_of_mem _ hcs', hholds⟩

theorem close_not_mem_take {w : List CharSet} (hw : w ∈ wordSets (breakWords [])) {t : List Char}
    (h : fits w t = true) : '>' ∉ t.take w.length := by
  intro hmem
  obtain ⟨cs, hcs, hholds⟩ := holds_of_mem_take h hmem
  rw [(stops_of_mem_words hw).2 cs hcs '>' (by simp)] at hholds
  cases hholds

/-- Behind the opening bracket, with a slash or without. -/
theorem mem_points_bracket {n : Node} {r : List Char} (hrest : scene.rest p = r) :
    q ∈ (Node.seq (.one (signSet '<')) (.seq (.rep (.one (signSet '/')) 0 (some 1) false) n)).points
      scene false p ↔
      ∃ closing t, r = bracket closing ++ t ∧
      q ∈ n.points scene false (p.move (bracket closing).length) := by
  subst hrest
  simp only [points_seq, List.mem_flatMap]
  constructor
  · rintro ⟨m, hm, m', hm', hq⟩
    obtain ⟨c, x, hrest, hc, rfl⟩ := reach_one.1 (reach_of_mem_points hm)
    rw [holds_signSet (by decide), beq_iff_eq] at hc
    subst hc
    rw [points_optional, Scene.rest_move, hrest] at hm'
    split at hm'
    next hslash =>
      obtain rfl | rfl : m' = (p.move 1).move 1 ∨ m' = p.move 1 := by simpa using hm'
      · obtain ⟨d, y, rfl⟩ : ∃ d y, x = d :: y := by
          cases x with
          | nil => simp at hslash
          | cons d y => exact ⟨d, y, rfl⟩
        obtain rfl : '/' = d := by simpa [holds_signSet (a := '/') (by decide)] using hslash
        exact ⟨true, y, hrest, hq⟩
      · exact ⟨false, x, hrest, hq⟩
    next =>
      rw [List.mem_singleton.1 hm'] at hq
      exact ⟨false, x, hrest, hq⟩
  · rintro ⟨closing, t, hrest, hq⟩
    cases closing with
    | false =>
      refine ⟨p.move 1, ?_, p.move 1, ?_, hq⟩
      · rw [points_one_of_holds hrest (signSet_self (by decide))]
        exact List.mem_singleton_self _
      · rw [points_optional]
        split <;> simp
    | true =>
      refine ⟨p.move 1, ?_, p.move 2, ?_, hq⟩
      · rw [points_one_of_holds hrest (signSet_self (by decide))]
        exact List.mem_singleton_self _
      · rw [points_optional, Scene.rest_move, hrest, if_pos]
        · exact List.mem_cons_self
        · exact signSet_self (by decide)

/-- Every way through a tag ends behind its first closing bracket. -/
theorem mem_points_breakTag (hfree : Unquoted scene.text.toList)
    (hq : q ∈ breakTagNode.points scene false p) :
    BeginsTag (scene.rest p) ∧ ∃ v s, scene.rest p = v ++ '>' :: s ∧ '>' ∉ v ∧
      q.pos = p.pos + v.length + 1 ∧ q.start = p.start := by
  obtain ⟨closing, t, hrest, hname⟩ := (mem_points_bracket rfl).1 hq
  have hm₀ : scene.rest (p.move (bracket closing).length) = t := by
    rw [Scene.rest_move, hrest, List.drop_left]
  rw [nameTail, points_seq] at hname
  obtain ⟨m, hm, hname⟩ := List.mem_flatMap.1 hname
  rw [points_seq] at hname
  obtain ⟨m', hm', htail⟩ := List.mem_flatMap.1 hname
  obtain ⟨hedge, rfl⟩ := reach_of_mem_points hm'
  obtain ⟨v, s, hv, hnot, hpos, hstart⟩ := mem_points_tagTail hfree htail
  have hnamed := (named_iff hm₀).2 ⟨m', hm, hedge⟩
  obtain ⟨w, hw, hfits, rfl⟩ := mem_points_words.1 hm
  rw [hm₀] at hfits
  rw [Scene.rest_move, hm₀] at hv
  have hwhole : scene.rest p = (bracket closing ++ (t.take w.length ++ v)) ++ '>' :: s := by
    rw [hrest, List.append_assoc, List.append_assoc, ← hv, List.take_append_drop]
  have hlen : w.length ≤ t.length := (fits_of_append (v := t) (r := []) (by simp)
    (by simpa using hfits)).2
  refine ⟨⟨by simp [hwhole], closing, t, hrest, hnamed⟩, _, s, hwhole, ?_, ?_, hstart⟩
  · rw [List.mem_append, List.mem_append, not_or, not_or]
    exact ⟨by cases closing <;> simp [bracket], close_not_mem_take hw hfits, hnot⟩
  · rw [hpos, Point.move_pos, Point.move_pos, List.length_append, List.length_append,
      List.length_take, Nat.min_eq_left hlen]
    omega

theorem points_breakTag_eq_nil (hfree : Unquoted scene.text.toList)
    (h : ¬BeginsTag (scene.rest p)) : breakTagNode.points scene false p = [] :=
  List.eq_nil_iff_forall_not_mem.2 fun _ hq => h (mem_points_breakTag hfree hq).1

theorem points_breakTag_ne_nil (hfree : Unquoted scene.text.toList) (h : BeginsTag (scene.rest p)) :
    breakTagNode.points scene false p ≠ [] := by
  obtain ⟨hclose, closing, t, hrest, hnamed⟩ := h
  have hm₀ : scene.rest (p.move (bracket closing).length) = t := by
    rw [Scene.rest_move, hrest, List.drop_left]
  obtain ⟨m, hm, hedge⟩ := (named_iff hm₀).1 hnamed
  have hbehind : '>' ∈ scene.rest m := by
    obtain ⟨w, hw, hfits, rfl⟩ := mem_points_words.1 hm
    rw [hm₀] at hfits
    rw [Scene.rest_move, hm₀]
    rw [hrest, ← List.take_append_drop w.length t, List.mem_append, List.mem_append] at hclose
    refine (hclose.resolve_left ?_).resolve_left (close_not_mem_take hw hfits)
    cases closing <;> simp [bracket]
  obtain ⟨q, l, hq⟩ := List.exists_cons_of_ne_nil (points_tagTail_ne_nil hfree hbehind)
  refine List.ne_nil_of_mem (a := q) ((mem_points_bracket rfl).2 ⟨closing, t, hrest, ?_⟩)
  rw [nameTail, points_seq]
  refine List.mem_flatMap.2 ⟨m, hm, ?_⟩
  rw [points_seq_singleton (points_anchor_of_holds hedge), ← tagTail, hq]
  exact List.mem_cons_self

/-- A text is cut at its first closing bracket in one way. -/
theorem split_unique {v v' s s' : List Char} (hv : '>' ∉ v) (hv' : '>' ∉ v')
    (h : v ++ '>' :: s = v' ++ '>' :: s') : v = v' ∧ s = s' := by
  have htake : ∀ {v s : List Char}, '>' ∉ v → (v ++ '>' :: s).takeWhile (· != '>') = v := by
    intro v s hv
    rw [List.takeWhile_append_of_pos]
    · simp
    · rintro c hc
      rw [bne_iff_ne]
      rintro rfl
      exact hv hc
  obtain rfl : v = v' := by rw [← htake (s := s) hv, h, htake hv']
  exact ⟨rfl, (List.cons.inj (List.append_cancel_left h)).2⟩

/-- Where a tag begins, it is matched up to its first closing bracket. -/
theorem exists_first_breakTag (hfree : Unquoted scene.text.toList)
    (h : BeginsTag (scene.rest p)) {v s : List Char}
    (hrest : scene.rest p = v ++ '>' :: s) (hv : '>' ∉ v) :
    ∃ q, breakTagNode.First scene p q ∧ q.pos = p.pos + (v ++ ['>']).length ∧
    q.start = p.start := by
  obtain ⟨q, l, hq⟩ := List.exists_cons_of_ne_nil (points_breakTag_ne_nil hfree h)
  obtain ⟨-, v', s', hrest', hv', hpos, hstart⟩ :=
    mem_points_breakTag hfree (hq ▸ List.mem_cons_self)
  obtain ⟨rfl, -⟩ := split_unique hv' hv (hrest'.symm.trans hrest)
  exact ⟨q, .of_points hq, by simp [hpos, Nat.add_assoc], hstart⟩

end TemplateTidy.Layout
