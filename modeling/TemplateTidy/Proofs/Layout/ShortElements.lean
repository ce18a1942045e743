import TemplateTidy.Proofs.Layout.BrokenLines

/-! # Short elements

The pattern of a short element takes an opening tag, blanks, a text, blanks, and the closing tag of
the same name.  An element that holds a text or nothing is taken as a whole (`rewriteFrom_short`).
One that holds other elements is not, since a second opening bracket comes before its closing tag
(`rewriteFrom_open_copy`). -/

namespace TemplateTidy.Layout

open Node Pattern

/-! ### The pattern of a short element -/

/-- Everything but an opening bracket and a line feed. -/
def bodySet : CharSet :=
    { items := [.range '<' '<', .range '\n' '\n'], negated := true, folding := .simple }

/-- The opening tag of a short element. -/
def openNode (ws : List (List CharSet)) (piece : Node) : Node :=
  .seq (.one (signSet '<')) <| nameTail (.group 2 (choice (ws.map word))) piece (signSet '>')

/-- The closing tag of a short element. -/
def closeNode : Node :=
  .seq (.one (signSet '<')) <| .seq (.one (signSet '/')) <| .seq (.group 5 (.recall 2 .simple))
    (.one (signSet '>'))

/-- What follows the opening tag of a short element. -/
def bodyNode (close : Node) : Node :=
  .seq (.rep (.one spaceSet) 0 none false) <| .seq (.group 3 (.rep (.one bodySet) 0 none true)) <|
    .seq (.rep (.one spaceSet) 0 none true) (.group 4 close)

abbrev shortPattern : Pattern := shortElementTree.pattern looseDocument

def shortNode : Node := .seq (.group 1 (openNode (wordSets shortWords) pieceNode))
    (bodyNode closeNode)

/-- What evaluation tells of the pattern of a short element. -/
theorem short_check : shortPattern.node = shortNode ∧
    (shortNode.originFree && shortNode.solid && shortNode.begins (· == '<')) = true ∧
    knowsNames (wordSets shortWords) = true ∧
    (nameTail (.group 2 (choice ((wordSets shortWords).map word))) pieceNode (signSet '>')).walkOver
    ['/'] = [] ∧ pieceNode.walkOver ['>'] = [] := by
  decide +kernel

theorem node_shortPattern : shortPattern.node = shortNode := short_check.1

theorem startsTag_short : shortPattern.StartsTag := .of_check node_shortPattern short_check.2.1

/-- A set that leaves two characters without case out holds all others. -/
theorem holds_outside_pair {a b : Char} (ha : Text.isCaseless a = true)
    (hb : Text.isCaseless b = true) (c : Char) :
    ({ items := [.range a a, .range b b], negated := true, folding := .simple } : CharSet).holds c =
      (c != a && c != b) := by
  have h : ({ items := [.range a a, .range b b], negated := true, folding := .simple } : CharSet).holds c =
      !((signSet a).holds c || (signSet b).holds c) := by
    rw [Bool.eq_iff_iff]
    simp [signSet, CharSet.holds, CharSet.single, forall_and]
  rw [h, holds_signSet ha, holds_signSet hb, Bool.not_or]
  simp only [bne, @Bool.beq_comm _ _ _ c]

theorem holds_bodySet (c : Char) : bodySet.holds c = (c != '<' && c != '\n') :=
  holds_outside_pair (by decide) (by decide) c

theorem holds_space_less : spaceSet.holds '<' = false := by
  rw [holds_spaceSet]
  decide

variable {scene : Scene} {p m : Point}

/-! ### Remembered names -/

/-- A name agrees with a copy of itself. -/
theorem agree_of_drop : ∀ {w r r' : List Char} {i j : Nat}, (∀ c ∈ w, isSmall c = true) →
    scene.text.toList.drop i = w ++ r → scene.text.toList.drop j = w ++ r' →
    scene.agree .simple i j w.length = true
  | [], _, _, _, _, _, _, _ => rfl
  | c :: w, r, r', i, j, hw, hi, hj => by
      have hget : ∀ {k : Nat} {u : List Char}, scene.text.toList.drop k = c :: u →
          scene.text[k]? = some c ∧ scene.text.toList.drop (k + 1) = u := by
        intro k u hk
        rw [← Array.getElem?_toList, ← List.head?_drop, hk, ← List.drop_drop, hk]
        exact ⟨rfl, rfl⟩
      obtain ⟨hci, hi⟩ := hget hi
      obtain ⟨hcj, hj⟩ := hget hj
      have hsmall : isSmall c = true := hw c (by simp)
      have hsame : Folding.simple.same c c = true :=
        List.contains_iff_mem.2 ((mem_variants_small hsmall (isUncapped_of_isSmall hsmall)).2 rfl)
      rw [List.length_cons, Scene.agree, hci, hcj]
      simp only [hsame, Bool.true_and]
      exact agree_of_drop (fun c hc => hw c (by simp [hc])) hi hj

/-- The closing tag of the element whose name is remembered. -/
theorem first_closeNode {name r r' : List Char} {i : Nat} (hsmall : ∀ c ∈ name, isSmall c = true)
    (hrest : scene.rest p = closeTag name ++ r) (hheld : p.group? 2 = some ⟨i, i + name.length⟩)
    (hname : scene.text.toList.drop i = name ++ r') :
    closeNode.First scene p ((((p.move 2).move name.length).mark 5 ⟨p.pos + 2,
      p.pos + 2 + name.length⟩).move 1) := by
  have hrest : scene.rest p = '<' :: '/' :: (name ++ '>' :: r) := by simpa [closeTag] using hrest
  have hr₁ : scene.rest (p.move 1) = '/' :: (name ++ '>' :: r) := by
    rw [Scene.rest_move, hrest]
    rfl
  have hr₂ : scene.rest (p.move 2) = name ++ '>' :: r := by
    rw [Scene.rest_move, hrest]
    rfl
  have hrecall : (Node.recall 2 .simple).points scene false (p.move 2) =
      [(p.move 2).move name.length] := by
    have hagree : scene.agree .simple i (p.move 2).pos name.length = true :=
      agree_of_drop hsmall hname hr₂
    have hgroup : (p.move 2).group? 2 = some ⟨i, i + name.length⟩ := hheld
    rw [points, hgroup]
    simp only [Option.bind_some, Scene.stepOverSpan, Nat.add_sub_cancel_left, Bool.false_eq_true,
      if_false, hagree, if_true]
    rfl
  have hr₃ : scene.rest (((p.move 2).move name.length).mark 5 ⟨p.pos + 2,
      p.pos + 2 + name.length⟩) = '>' :: r := by
    rw [Scene.rest_mark, Scene.rest_move, hr₂, List.drop_left]
  refine First.seq (Sole.one hrest (signSet_self (by decide))).first
    (First.seq (m := p.move 2) ?_ (First.seq ?_
    (Sole.one hr₃ (signSet_self (by decide))).first))
  · exact (Sole.one hr₁ (signSet_self (by decide))).first
  · exact First.group (First.of_points hrecall)

/-! ### Contents -/

theorem points_close_of_rest {c : Char} {r : List Char}
    (hrest : scene.rest p = c :: r) (hc : c ≠ '<') :
    (Node.group 4 closeNode).points scene false p = [] := by
  rw [points_group, closeNode, points_seq_nil_left]
  · rfl
  refine points_one_of_not fun d hd => ?_
  obtain rfl : c = d := by simpa [hrest] using hd
  exact signSet_of_ne (by decide) hc

/-- Another opening tag comes before the closing tag: the element holds more than text. -/
theorem points_bodyNode_of_open {u r : List Char} {c : Char}
    (hrest : scene.rest p = u ++ '<' :: c :: r)
    (hu : '<' ∉ u) (hc : c ≠ '/') : (bodyNode closeNode).points scene false p = [] := by
  have hbody : bodySet.holds '<' = false := by simp [holds_bodySet]
  -- at the bracket no closing tag stands, and nothing gets past it
  have hclose : ∀ i ≤ u.length, ∀ q : Point, q.pos = p.pos + i →
      (Node.group 4 closeNode).points scene false q = [] := by
    intro i hi q hq
    have hr : scene.rest q = (u ++ '<' :: c :: r).drop i := by
      rw [← hrest, ← Scene.rest_move]
      exact scene.rest_eq_of_pos _ hq
    rcases hi.lt_or_eq with hlt | rfl
    · rw [List.drop_append_of_le_length hi, List.drop_eq_getElem_cons hlt] at hr
      exact points_close_of_rest hr fun he => hu (he ▸ List.getElem_mem hlt)
    · rw [List.drop_left] at hr
      rw [points_group, closeNode, points_seq_singleton
        (points_one_of_holds hr (signSet_self (by decide))), points_seq_nil_left]
      · rfl
      refine points_one_of_not fun d hd => ?_
      rw [Scene.rest_move, hr] at hd
      obtain rfl : c = d := by simpa using hd
      exact signSet_of_ne (by decide) hc
  refine points_run_seq_nil hrest holds_space_less fun i hi => points_seq_nil_right fun m hm => ?_
  have hr₁ : scene.rest (p.move i) = u.drop i ++ '<' :: c :: r := by
    rw [Scene.rest_move, hrest, List.drop_append_of_le_length hi]
  rw [points_group] at hm
  obtain ⟨m', hm', rfl⟩ := List.mem_map.1 hm
  obtain ⟨j, -, hj, rfl⟩ := mem_points_run.1 hm'
  rw [hr₁] at hj
  have hj := hj.trans (runLength_le_of_stop hbody)
  have hr₂ : scene.rest (((p.move i).move j).mark 3 ⟨(p.move i).pos, ((p.move i).move j).pos⟩) =
      (u.drop i).drop j ++ '<' :: c :: r := by
    rw [Scene.rest_mark, Scene.rest_move, hr₁, List.drop_append_of_le_length hj]
  refine points_run_seq_nil hr₂ holds_space_less fun k hk => hclose (i + j + k) ?_ _ ?_
  · simp only [List.length_drop] at hj hk
    omega
  · simp [Nat.add_assoc]

/-- What an element holds if it is taken as a whole: blanks, a text, and blanks after the text. -/
structure ShortBody (lead body tail : List Char) : Prop where
  space_lead : ∀ c ∈ lead, Text.isSpace c = true
  stays : ∀ c ∈ (body ++ tail).head?, Text.isSpace c = false
  less : '<' ∉ body
  feed : '\n' ∉ body
  firm : ∀ c ∈ body.getLast?, Text.isSpace c = false
  space_tail : ∀ c ∈ tail, Text.isSpace c = true

/-- The contents of a short element up to the end of its closing tag. -/
theorem first_bodyNode {lead body tail name r r' : List Char} {i : Nat}
    (h : ShortBody lead body tail) (hsmall : ∀ c ∈ name, isSmall c = true)
    (hrest : scene.rest p = lead ++ (body ++ (tail ++ (closeTag name ++ r))))
    (hheld : p.group? 2 = some ⟨i, i + name.length⟩)
    (hname : scene.text.toList.drop i = name ++ r') :
    ∃ q, (bodyNode closeNode).First scene p q ∧ q.start = p.start ∧
      q.pos = p.pos + (lead ++ (body ++ (tail ++ closeTag name))).length ∧
      q.group? 1 = p.group? 1 ∧
      q.group? 3 = some ⟨p.pos + lead.length, p.pos + lead.length + body.length⟩ ∧
      q.group? 4 = some ⟨p.pos + lead.length + body.length + tail.length,
        p.pos + lead.length + body.length + tail.length + (closeTag name).length⟩ := by
  have hr₁ : scene.rest (p.move lead.length) = body ++ (tail ++ (closeTag name ++ r)) := by
    rw [Scene.rest_move, hrest, List.drop_left]
  let m := ((p.move lead.length).move body.length).mark 3 ⟨p.pos + lead.length,
    p.pos + lead.length + body.length⟩
  have hr₂ : scene.rest m = tail ++ (closeTag name ++ r) := by
    rw [Scene.rest_mark, Scene.rest_move, hr₁, List.drop_left]
  have hr₃ : scene.rest (m.move tail.length) = closeTag name ++ r := by
    rw [Scene.rest_move, hr₂, List.drop_left]
  have hstay : ∀ c ∈ (body ++ (tail ++ (closeTag name ++ r))).head?, spaceSet.holds c = false := by
    intro c hc
    rw [← List.append_assoc, List.head?_append] at hc
    cases hb : (body ++ tail).head? with
    | none =>
      obtain rfl : '<' = c := by simpa [hb, closeTag] using hc
      exact holds_space_less
    | some d =>
      obtain rfl : d = c := by simpa [hb] using hc
      rw [holds_spaceSet, h.stays d hb]
  have hbody : body.length ≤ runLength bodySet (scene.rest (p.move lead.length)) := by
    rw [hr₁, runLength_append fun c hc => ?_]
    · omega
    · have hless : c ≠ '<' := fun he => h.less (he ▸ hc)
      have hfeed : c ≠ '\n' := fun he => h.feed (he ▸ hc)
      simp [holds_bodySet, hless, hfeed]
  have htail : tail.length ≤ runLength spaceSet (scene.rest m) := by
    rw [hr₂, runLength_append fun c hc => by rw [holds_spaceSet, h.space_tail c hc]]
    omega
  have hclose := (first_closeNode hsmall hr₃ hheld hname).group (i := 4)
  refine ⟨_, First.run_seq (Nat.zero_le _) hrest
    (fun c hc => by rw [holds_spaceSet, h.space_lead c hc]) hstay
    (First.near_group_seq hbody (fun j hj => ?_) (First.near_seq htail (fun j hj => ?_) hclose)),
      ?_⟩
  · -- a shorter text would have to end before its last character
    exact points_run_seq_inside hr₁ rfl hj (fun c hc => by rw [holds_spaceSet, h.firm c hc])
        fun q d l hd hmem =>
      points_close_of_rest hd fun he => h.less (he ▸ hmem)
  · -- before the bracket no closing tag stands
    have hr : scene.rest (m.move j) = tail[j] :: (tail.drop (j + 1) ++ (closeTag name ++ r)) := by
      rw [Scene.rest_move, hr₂, List.drop_append_of_le_length hj.le, List.drop_eq_getElem_cons hj]
      rfl
    refine points_close_of_rest hr fun he => ?_
    have hspace := h.space_tail tail[j] (List.getElem_mem hj)
    rw [he] at hspace
    exact absurd hspace (by decide)
  · refine ⟨rfl, ?_, rfl, rfl, ?_⟩
    · simp [m, closeTag]
      omega
    · show some _ = some _
      simp [m, closeTag]
      omega

/-! ### Elements -/

/-- The opening tag of an element is matched in one way, and its name is remembered. -/
theorem sole_openNode {n : LineName} {r : List Char} (hrest : scene.rest p = n.tag false ++ r) :
    (openNode (wordSets shortWords) pieceNode).Sole scene p
      ((((p.move 1).move n.chars.length).mark 2
      ⟨p.pos + 1, p.pos + 1 + n.chars.length⟩).move 1) := by
  obtain ⟨-, -, hknown, -, hpiece⟩ := short_check
  have hws := words_of_knowsNames hknown
  have hrest : scene.rest p = '<' :: (n.chars ++ '>' :: r) := by
    simpa [LineName.tag, openTag] using hrest
  have hr₁ : scene.rest (p.move 1) = n.chars ++ '>' :: r := by
    rw [Scene.rest_move, hrest]
    rfl
  have hr₂ : scene.rest (((p.move 1).move n.chars.length).mark 2 ⟨p.pos + 1,
      p.pos + 1 + n.chars.length⟩) = '>' :: r := by
    rw [Scene.rest_mark, Scene.rest_move, hr₁, List.drop_left]
  obtain ⟨hmem, hedge⟩ := points_name hws n.small hr₁ (exists_word hknown n)
  refine .seq (.one hrest (signSet_self (by decide)))
    (.nameTail ?_ (fun m' hm' hedge' => ?_) hedge hr₂ hpiece
    (signSet_self (by decide)))
  · rw [points_group]
    exact List.mem_map.2 ⟨_, hmem, rfl⟩
  · rw [points_group] at hm'
    obtain ⟨m, hm, rfl⟩ := List.mem_map.1 hm'
    rw [eq_of_mem_points_words hws n.small hr₁ hm hedge']
    rfl

section running

variable {f : Match → List Char} {text : Array Char} {n : LineName}

/-- A short element is replaced as a whole. -/
theorem rewriteFrom_short {u lead body tail r : List Char} (h : ShortBody lead body tail)
    (htext : text.toList = u ++ (n.tag false ++ (lead ++ (body ++ (tail ++ (n.tag true ++ r)))))) :
    ∃ m : Match, shortPattern.rewriteFrom f text u.length false = f m ++
    shortPattern.rewriteFrom f text
        (u ++ (n.tag false ++ (lead ++ (body ++ (tail ++ n.tag true))))).length false ∧
      m.capture text 1 = n.tag false ∧ m.capture text 3 = body ∧ m.capture text 4 = n.tag true ∧
      m.text text = n.tag false ++ (lead ++ (body ++ (tail ++ n.tag true))) := by
  have hopen := (sole_openNode (rest_at (P := shortPattern) htext)).group (i := 1)
  generalize hm : (Point.mark _ 1 _) = m at hopen
  have hpos : m.pos = (u ++ n.tag false).length := by
    rw [← hm]
    simp [Point.at, LineName.tag, openTag]
    omega
  have hrest : (shortPattern.scene text 0).rest m = lead ++
      (body ++ (tail ++ (closeTag n.chars ++ r))) := by
    show text.toList.drop m.pos = _
    rw [hpos, htext, ← List.append_assoc, List.drop_left]
    rfl
  have hheld : m.group? 2 = some ⟨u.length + 1, u.length + 1 + n.chars.length⟩ := by
    rw [← hm]
    rfl
  have hcopy : (shortPattern.scene text 0).text.toList.drop (u.length + 1) =
      n.chars ++ ('>' :: (lead ++ (body ++ (tail ++ (n.tag true ++ r))))) := by
    show text.toList.drop (u.length + 1) = _
    rw [htext, ← List.drop_drop, List.drop_left]
    simp [LineName.tag, openTag]
  obtain ⟨q, hbody, hqstart, hqpos, hq₁, hq₃, hq₄⟩ := first_bodyNode h n.small hrest hheld hcopy
  have hfirst : shortPattern.node.First (shortPattern.scene text 0) (.at u.length) q := by
    rw [node_shortPattern]
    exact First.seq hopen.first hbody
  have hwhole : text.toList = u ++ ((n.tag false ++ (lead ++ (body ++ (tail ++ n.tag true)))) ++
      r) := by
    simp [htext]
  have hstart : q.start = u.length := by
    rw [hqstart, ← hm]
    rfl
  have hend : q.pos = (u ++ (n.tag false ++ (lead ++ (body ++ (tail ++ n.tag true))))).length := by
    rw [hqpos, hpos, ← List.length_append, List.append_assoc]
    rfl
  have hempty : (n.tag false ++ (lead ++ (body ++ (tail ++ n.tag true)))).isEmpty = false := by
    simp [LineName.tag, openTag]
  refine ⟨.ofPoint q, ?_, ?_, ?_, ?_, ?_⟩
  · rw [rewriteFrom_piece startsTag_short.originFree hwhole hfirst hstart hend, hempty]
  · refine capture_group htext (hq₁.trans ?_)
    rw [← hm]
    simp [Point.group?, Point.mark, Point.at, LineName.tag, openTag]
    omega
  · refine capture_group (u := u ++ (n.tag false ++ lead))
      (r := tail ++ (n.tag true ++ r)) (by simp [htext])
      (hq₃.trans ?_)
    rw [hpos]
    simp [Nat.add_assoc]
  · refine capture_group (u := u ++ (n.tag false ++ (lead ++ (body ++ tail))))
      (r := r) (by simp [htext])
      (hq₄.trans ?_)
    rw [hpos, show closeTag n.chars = n.tag true from rfl]
    simp [Nat.add_assoc]
  · show between text q.start q.pos = _
    rw [hstart, hend, between_of_append hwhole]

/-- The opening tag of an element that holds other elements is copied. -/
theorem rewriteFrom_open_copy {u v r : List Char} {c : Char}
    (htext : text.toList = u ++ (n.tag false ++ (v ++ '<' :: c :: r)))
    (hv : '<' ∉ v) (hc : c ≠ '/') : shortPattern.rewriteFrom f text u.length false =
      n.tag false ++ shortPattern.rewriteFrom f text (u ++ n.tag false).length false := by
  refine rewriteFrom_tag_copy startsTag_short htext ?_
  have hopen := (sole_openNode (rest_at (P := shortPattern) htext)).group (i := 1)
  rw [pointsAt, node_shortPattern]
  refine points_seq_nil_right fun m hm => points_bodyNode_of_open (r := r) ?_ hv hc
  rw [hopen.only m hm]
  show text.toList.drop _ = _
  rw [htext, ← List.append_assoc, show (Point.mark _ 1 _).pos = (u ++ n.tag false).length by
    simp [Point.at, LineName.tag, openTag]; omega, List.drop_left]

/-- A closing tag that no short element ends with is copied. -/
theorem rewriteFrom_close_copy {u r : List Char} (htext : text.toList = u ++ (n.tag true ++ r)) :
    shortPattern.rewriteFrom f text u.length false =
      n.tag true ++ shortPattern.rewriteFrom f text (u ++ n.tag true).length false := by
  refine rewriteFrom_tag_copy startsTag_short htext ?_
  have hrest : (shortPattern.scene text 0).rest (.at u.length) = '<' :: '/' ::
      (n.chars ++ '>' :: r) := by
    rw [rest_at htext]
    simp [LineName.tag, closeTag]
  have hrest' : (shortPattern.scene text 0).rest ((Point.at u.length).move 1) = ['/'] ++
      (n.chars ++ '>' :: r) := by
    rw [Scene.rest_move, hrest]
    rfl
  rw [pointsAt, node_shortPattern]
  refine points_seq_nil_left ?_
  rw [points_group, openNode, points_seq_singleton
    (points_one_of_holds hrest (signSet_self (by decide))),
    points_eq_nil fun q => not_reach_of_walkOver ['/'] _ hrest' short_check.2.2.2.1]
  rfl

end running

end TemplateTidy.Layout
