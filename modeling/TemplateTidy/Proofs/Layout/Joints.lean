import TemplateTidy.Proofs.Layout.BreakTags
import TemplateTidy.Proofs.Layout.ShortElements

/-! # Joints

A `Joint` is an element or a template block that holds only a text, cut where it is joined: at the
ends of its opening tag, of the text, and of the blanks on both sides of the text.  Every match of
`shortElement` is a joint with the tags of an element (`exists_isElement`), every match of
`shortBlock` is one with the tags of a template block (`exists_isBlock`).  The name in the closing
tag is matched against the remembered one, so it is `Alike`. -/

namespace TemplateTidy.Layout

open Node Pattern Text

/-- The same text but for letter case. -/
def Alike (a b : List Char) : Prop :=
  List.Forall₂ (fun x y => Folding.simple.same x y = true) a b

/-- An element or a template block that holds only a text, with the blanks around the text. -/
structure Joint where
  opening : List Char
  lead : List Char
  body : List Char
  tail : List Char
  closing : List Char
  lead_blank : ∀ c ∈ lead, isSpace c = true
  tail_blank : ∀ c ∈ tail, isSpace c = true

namespace Joint

/-- The joint as it stands in the text. -/
def source (j : Joint) : List Char :=
  j.opening ++ (j.lead ++ (j.body ++ (j.tail ++ j.closing)))

/-- The joint without the blanks. -/
def line (j : Joint) : List Char :=
  j.opening ++ (j.body ++ j.closing)

end Joint

/-! ### Tags -/

/-- A piece of a tag: quoted, in braces, or one other character that does not end the tag. -/
inductive TagPiece : List Char → Prop
  | enclosed {a b : Char} {w : List Char}
      (hab : (a, b) ∈ [('"', '"'), ('\'', '\''), ('\x7b', '\x7d')])
      (hw : b ∉ w) : TagPiece (a :: (w ++ [b]))
  | plain {c : Char} (hc : c ∉ ['\'', '"', '>', '\x7b', '\x7d']) : TagPiece [c]

/-- The opening tag of an element: a name that is known and ends there, and the pieces up to the
bracket. -/
inductive ElementOpening : (name tag : List Char) → Prop
  | mk {name : List Char} {pieces : List (List Char)} (hname : ∃ n ∈ shortNames,
      Alike name n.toList)
      (hedge : ∀ c ∈ name.getLast?, ∀ d ∈ (pieces.flatten ++ ['>']).head?, isWord c ≠ isWord d)
      (hpieces : ∀ w ∈ pieces, TagPiece w) :
        ElementOpening name ('<' :: (name ++ (pieces.flatten ++ ['>'])))

/-- The closing tag of an element. -/
inductive ElementClosing : (name tag : List Char) → Prop
  | mk {name copy : List Char} (hcopy : Alike name copy) :
      ElementClosing name ('<' :: '/' :: (copy ++ ['>']))

/-- The names of the template blocks that go back on one line if they are short. -/
def shortBlockNames : List String := ["if", "for", "block", "with"]

/-- The opening tag of a template block, with the blank before it if there is one. -/
inductive BlockOpening : (name tag : List Char) → Prop
  | mk {margin mark blanks name inner : List Char} (hmargin : margin = [] ∨ ∃ c, margin = [c] ∧
      isSpace c = true)
      (hmark : mark = [] ∨ mark = ['-']) (hblanks : ∀ c ∈ blanks, c = ' ')
      (hname : ∃ n ∈ shortBlockNames, Alike name n.toList) (hfeed : '\n' ∉ inner)
        (hinner : ¬['%', '\x7d'] <:+: inner) :
      BlockOpening name (margin ++ '\x7b' :: '%' ::
        (mark ++ (blanks ++ (name ++ (inner ++ ['%', '\x7d'])))))

/-- The closing tag of a template block. -/
inductive BlockClosing : (name tag : List Char) → Prop
  | mk {mark blanks word name copy blanks' : List Char} (hmark : mark = [] ∨ mark = ['-'])
      (hblanks : ∀ c ∈ blanks, c = ' ') (hword : Alike word "end".toList) (hcopy : Alike name copy)
      (hblanks' : ∀ c ∈ blanks', c = ' ') :
      BlockClosing name ('\x7b' :: '%' ::
        (mark ++ (blanks ++ (word ++ (copy ++ (blanks' ++ ['%', '\x7d']))))))

theorem ElementOpening.ends {name tag : List Char} (h : ElementOpening name tag) :
    ['>'] <:+ tag := by
  cases h with
  | @mk pieces => exact ⟨'<' :: (name ++ pieces.flatten), by simp⟩

theorem ElementClosing.begins {name tag : List Char} (h : ElementClosing name tag) :
    ['<', '/'] <+: tag := by
  cases h with
  | @mk copy => exact ⟨copy ++ ['>'], rfl⟩

theorem BlockOpening.ends {name tag : List Char} (h : BlockOpening name tag) :
    ['%', '\x7d'] <:+ tag := by
  cases h with
  | @mk margin mark blanks _ inner =>
    exact ⟨margin ++ '\x7b' :: '%' :: (mark ++ (blanks ++ (name ++ inner))), by simp⟩

theorem BlockClosing.begins {name tag : List Char} (h : BlockClosing name tag) :
    ['\x7b', '%'] <+: tag := by
  cases h with
  | mk => exact ⟨_, rfl⟩

namespace Joint

/-- The joint has the tags of an element, and no other tag stands between them. -/
def IsElement (j : Joint) : Prop :=
  ∃ name, ElementOpening name j.opening ∧ ElementClosing name j.closing ∧ '<' ∉ j.body ∧
    '\n' ∉ j.body

/-- The joint has the tags of a template block, and no other tag stands between them. -/
def IsBlock (j : Joint) : Prop :=
  ∃ name, BlockOpening name j.opening ∧ BlockClosing name j.closing ∧ '%' ∉ j.body ∧ '\n' ∉ j.body

theorem IsElement.tags {j : Joint} (h : j.IsElement) :
    ['>'] <:+ j.opening ∧ ['<', '/'] <+: j.closing := by
  obtain ⟨name, hopening, hclosing, -⟩ := h
  exact ⟨hopening.ends, hclosing.begins⟩

theorem IsBlock.tags {j : Joint} (h : j.IsBlock) :
    ['%', '\x7d'] <:+ j.opening ∧ ['\x7b', '%'] <+: j.closing := by
  obtain ⟨name, hopening, hclosing, -⟩ := h
  exact ⟨hopening.ends, hclosing.begins⟩

end Joint

/-! ### Texts between points -/

section reaching

variable {scene : Scene} {p q m : Point} {a b : Node}

theorem between_seq (ha : a.Reach scene false p m) (hb : b.Reach scene false m q) :
    between scene.text p.pos q.pos = between scene.text p.pos m.pos ++
    between scene.text m.pos q.pos :=
  (between_append _ (ha.moves.forward rfl) (hb.moves.forward rfl)).symm

theorem head?_between {text : Array Char} {i j : Nat} (h : i < j) :
    (between text i j).head? = text[i]? :=
  Match.head?_text (m := ⟨i, j, []⟩) h

theorem getLast?_between {text : Array Char} {i j : Nat} (h : i < j) (hj : j ≤ text.size) :
    (between text i j).getLast? = text[j - 1]? :=
  Match.getLast?_text (m := ⟨i, j, []⟩) h hj

theorem between_sign {c : Char} (hc : isCaseless c = true)
    (h : (Node.one (signSet c)).Reach scene false p q) : between scene.text p.pos q.pos = [c] := by
  obtain ⟨d, hd, hholds⟩ := h.lang
  rw [holds_signSet hc, beq_iff_eq] at hholds
  rw [hd, hholds]

theorem between_signs {c : Char} {least : Nat} {most : Option Nat} {reluctant : Bool}
    (hc : isCaseless c = true)
    (h : (Node.rep (.one (signSet c)) least most reluctant).Reach scene false p q) :
    ∀ d ∈ between scene.text p.pos q.pos, d = c := by
  intro d hd
  have hholds := h.lang.forall_of_rep d hd
  rw [holds_signSet hc, beq_iff_eq] at hholds
  exact hholds.symm

theorem between_optional {c : Char} {reluctant : Bool} (hc : isCaseless c = true)
    (h : (Node.rep (.one (signSet c)) 0 (some 1) reluctant).Reach scene false p q) :
    between scene.text p.pos q.pos = [] ∨ between scene.text p.pos q.pos = [c] := by
  obtain ⟨n, -, hn, hiter⟩ := h
  obtain rfl | rfl := Nat.le_one_iff_eq_zero_or_eq_one.1 (hn 1 rfl)
  · obtain rfl := Iter.zero_iff.1 hiter
    exact .inl (between_self ..)
  · obtain ⟨m, hm, hrest⟩ := Iter.succ_iff.1 hiter
    obtain rfl := Iter.zero_iff.1 hrest
    exact .inr (between_sign hc hm)

theorem between_blanks {reluctant : Bool}
    (h : (Node.rep (.one spaceSet) 0 none reluctant).Reach scene false p q) :
    ∀ c ∈ between scene.text p.pos q.pos, isSpace c = true := by
  intro c hc
  rw [← holds_spaceSet]
  exact h.lang.forall_of_rep c hc

/-! ### Names -/

theorem holds_sign_iff {c d : Char} :
    (CharSet.single c .simple).holds d = true ↔ Folding.simple.same d c = true := by
  simp [CharSet.holds, CharSet.single, Folding.same, Folding.images, CharItem.holds_range_self]

theorem alike_of_fits : ∀ {n r : List Char}, fits (n.map (CharSet.single · .simple)) r = true →
    Alike (r.take n.length) n
  | [], r, _ => by
      rw [List.length_nil, List.take_zero]
      exact .nil
  | c :: n, [], h => by simp [fits] at h
  | c :: n, d :: r, h => by
      rw [List.map_cons, fits, Bool.and_eq_true] at h
      exact .cons (holds_sign_iff.1 h.1) (alike_of_fits h.2)

theorem alike_of_named {n : List Char} (h : (named n).Reach scene false p q) :
    Alike (between scene.text p.pos q.pos) n := by
  obtain ⟨hfits, rfl⟩ := reach_word.1 h
  rw [between_eq, Point.move_pos, Nat.add_sub_cancel_left, List.length_map]
  exact alike_of_fits hfits

theorem alike_of_names {names : List String}
    (h : (choice (names.map (named ·.toList))).Reach scene false p q) :
    ∃ n ∈ names, Alike (between scene.text p.pos q.pos) n.toList := by
  obtain ⟨_, hmem, h⟩ := reach_choice.1 h
  obtain ⟨n, hn, rfl⟩ := List.mem_map.1 hmem
  exact ⟨n, hn, alike_of_named h⟩

theorem alike_of_agree : ∀ {n i j : Nat}, scene.agree .simple i j n = true →
    Alike (between scene.text i (i + n)) (between scene.text j (j + n))
  | 0, i, j, _ => by
      rw [Nat.add_zero, Nat.add_zero, between_self, between_self]
      exact .nil
  | n + 1, i, j, h => by
      rw [Scene.agree] at h
      split at h
      next a b ha hb =>
        obtain ⟨hsame, h⟩ := Bool.and_eq_true_iff.1 h
        rw [← between_append _ (Nat.le_add_right i 1) (by omega), between_succ ha,
          ← between_append _ (Nat.le_add_right j 1) (by omega), between_succ hb, Nat.add_comm n 1,
          ← Nat.add_assoc,
          ← Nat.add_assoc]
        exact .cons hsame (alike_of_agree h)
      next => cases h

/-- What is matched against a remembered text is like it. -/
theorem alike_of_recall {k i j : Nat} (hheld : p.group? k = some ⟨i, j⟩) (hij : i ≤ j)
    (h : (Node.recall k .simple).Reach scene false p q) :
    Alike (between scene.text i j) (between scene.text p.pos q.pos) := by
  obtain ⟨held, hheld', h⟩ := h
  obtain rfl : ⟨i, j⟩ = held := Option.some.inj (hheld.symm.trans hheld')
  simp only [Scene.stepOverSpan, Bool.false_eq_true, if_false] at h
  split at h
  next hagree =>
    obtain rfl := Option.some.inj h
    have := alike_of_agree hagree
    rwa [Nat.add_sub_cancel' hij] at this
  next => cases h

/-! ### Matches -/

/-- Groups 1, 3 and 4 around the blanks. -/
def jointNode (opening : Node) (body : CharSet) (closing : Node) : Node :=
  .seq (.group 1 opening) <| .seq (.rep (.one spaceSet) 0 none false) <|
    .seq (.group 3 (.rep (.one body) 0 none true)) <| .seq (.rep (.one spaceSet) 0 none true)
      (.group 4 closing)

/-- A match is a joint, and the closing tag is matched with what the opening tag has put into group
2. -/
theorem exists_joint_of_reach {body : CharSet} (h : (jointNode a body b).Reach scene false p q)
    (hb : ∀ i ∈ [1, 3], i ∉ b.indices) :
    ∃ (j : Joint) (m m' m'' : Point), a.Reach scene false p m ∧ b.Reach scene false m' m'' ∧
      m'.group? 2 = m.group? 2 ∧
      j.opening = between scene.text p.pos m.pos ∧ j.closing = between scene.text m'.pos m''.pos ∧
      (∀ c ∈ j.body, body.holds c = true) ∧ j.source = between scene.text p.pos q.pos ∧
      (q.group? 1).map (·.of scene.text) = some j.opening ∧
      (q.group? 3).map (·.of scene.text) = some j.body ∧
      (q.group? 4).map (·.of scene.text) = some j.closing := by
  obtain ⟨m₁, h₁, h⟩ := h
  obtain ⟨m₂, hlead, h⟩ := h
  obtain ⟨m₃, h₃, h⟩ := h
  obtain ⟨m₄, htail, h₄⟩ := h
  have hfree : ∀ {i : Nat} {cs : CharSet} {reluctant : Bool},
      i ∉ (Node.rep (.one cs) 0 none reluctant).indices := by
    simp [indices]
  have hle₁ : p.pos ≤ m₁.pos := h₁.moves.forward rfl
  have hle₂ : m₁.pos ≤ m₂.pos := hlead.moves.forward rfl
  have hle₃ : m₂.pos ≤ m₃.pos := h₃.moves.forward rfl
  have hle₄ : m₃.pos ≤ m₄.pos := htail.moves.forward rfl
  have hle₅ : m₄.pos ≤ q.pos := h₄.moves.forward rfl
  have htext : between scene.text p.pos m₁.pos ++ (between scene.text m₁.pos m₂.pos ++
      (between scene.text m₂.pos m₃.pos ++
        (between scene.text m₃.pos m₄.pos ++ between scene.text m₄.pos q.pos))) =
        between scene.text p.pos q.pos := by
    rw [between_append _ hle₄ hle₅, between_append _ hle₃ (by omega),
      between_append _ hle₂ (by omega), between_append _ hle₁ (by omega)]
  obtain ⟨m, ha, rfl⟩ := h₁
  obtain ⟨m', hbody, rfl⟩ := h₃
  obtain ⟨m'', hclose, rfl⟩ := h₄
  refine ⟨⟨_, _, _, _, _, between_blanks hlead, between_blanks htail⟩, m, m₄, m'', ha, hclose, ?_,
    rfl, rfl, hbody.lang.forall_of_rep, htext, ?_, ?_, rfl⟩
  · rw [htail.group?_eq hfree]
    show m'.group? 2 = _
    rw [hbody.group?_eq hfree, hlead.group?_eq hfree]
    rfl
  · show (m''.group? 1).map _ = _
    rw [hclose.group?_eq (hb 1 (by simp)), htail.group?_eq hfree]
    show (m'.group? 1).map _ = _
    rw [hbody.group?_eq hfree, hlead.group?_eq hfree]
    rfl
  · show (m''.group? 3).map _ = _
    rw [hclose.group?_eq (hb 3 (by simp)), htail.group?_eq hfree]
    rfl

/-! ### Elements -/

/-- Everything but one character. -/
def outsideSet (c : Char) : CharSet :=
    { items := [.range c c], negated := true, folding := .simple }

theorem pieceNode_eq :
    pieceNode =
      .alt (.seq (.one (signSet '"')) (.seq (.rep (.one (outsideSet '"')) 0 none false)
        (.one (signSet '"'))))
        (.alt (.seq (.one (signSet '\'')) (.seq (.rep (.one (outsideSet '\'')) 0 none false)
          (.one (signSet '\''))))
          (.alt (.seq (.one (signSet '\x7b')) (.seq (.rep (.one (outsideSet '\x7d')) 0 none false)
            (.one (signSet '\x7d')))) (.one innerSet))) :=
  rfl

theorem not_mem_of_outside {c : Char} {w : List Char} (hc : (outsideSet c).holds c = false)
    (hw : (Node.rep (.one (outsideSet c)) 0 none false).Lang w) : c ∉ w := by
  intro hmem
  rw [hw.forall_of_rep c hmem] at hc
  cases hc

theorem tagPiece_of_enclosed {x y : Char} {w : List Char}
    (hxy : (x, y) ∈ [('"', '"'), ('\'', '\''), ('\x7b', '\x7d')])
    (hx : (signSet x).onlyOf (· == x) = true) (hy : (signSet y).onlyOf (· == y) = true)
    (hout : (outsideSet y).holds y = false)
    (hw : (Node.seq (.one (signSet x)) (.seq (.rep (.one (outsideSet y)) 0 none false)
      (.one (signSet y)))).Lang w) :
    TagPiece w := by
  obtain ⟨u, v, rfl, hu, inner, v', rfl, hinner, hv⟩ := hw
  rw [hu.eq_singleton hx, hv.eq_singleton hy]
  exact .enclosed hxy (not_mem_of_outside hout hinner)

theorem tagPiece_of_lang {w : List Char} (hw : pieceNode.Lang w) : TagPiece w := by
  rw [pieceNode_eq] at hw
  obtain hw | hw | hw | ⟨c, rfl, hc⟩ := hw
  · exact tagPiece_of_enclosed (by simp) (by decide) (by decide) (by decide) hw
  · exact tagPiece_of_enclosed (by simp) (by decide) (by decide) (by decide) hw
  · exact tagPiece_of_enclosed (by simp) (by decide) (by decide) (by decide) hw
  · have hnone : ['\'', '"', '>', '\x7b', '\x7d'].all (fun d => !innerSet.holds d) =
      true := by decide
    refine .plain fun hmem => ?_
    have := List.all_eq_true.1 hnone c hmem
    rw [hc] at this
    cases this

/-- At the edge of a word the characters on both sides differ. -/
theorem isWord_ne_of_edge {i : Nat} {c d : Char} (h : scene.holdsAt (.wordEdge false true) i = true)
    (hi : 0 < i)
    (hc : scene.text[i - 1]? = some c) (hd : scene.text[i]? = some d) : isWord c ≠ isWord d := by
  simpa [Scene.holdsAt, Scene.wordBefore, Scene.wordAt, hi, hc, hd, CharClass.holds] using h

theorem words_shortNames : (wordSets shortWords).map word = shortNames.map (named ·.toList) := rfl

theorem elementOpening_of_reach (h : (openNode (wordSets shortWords) pieceNode).Reach
    scene false p q) : ∃ i k, q.group? 2 = some ⟨i, k⟩ ∧ i ≤ k ∧
      ElementOpening (between scene.text i k) (between scene.text p.pos q.pos) := by
  obtain ⟨m₁, hless, h⟩ := h
  have htext := between_seq hless h
  obtain ⟨_, ⟨m₂, hname, rfl⟩, h⟩ := h
  obtain ⟨_, ⟨hedge, rfl⟩, m₃, hpieces, hmore⟩ := h
  have hle₂ : m₁.pos ≤ m₂.pos := hname.moves.forward rfl
  have hle₃ : m₂.pos ≤ m₃.pos := hpieces.moves.forward rfl
  have hle₄ : m₃.pos ≤ q.pos := hmore.moves.forward rfl
  have hsize : m₃.pos < scene.text.size ∧ q.pos = m₃.pos + 1 := by
    obtain ⟨c, hc, -, rfl⟩ := Scene.stepOver_forward.1 hmore
    exact ⟨(Array.getElem?_eq_some_iff.1 hc).1, rfl⟩
  have hafter : between scene.text m₂.pos q.pos = between scene.text m₂.pos m₃.pos ++ ['>'] := by
    rw [← between_append _ hle₃ hle₄, between_sign (by decide) hmore]
  rw [between_sign (by decide) hless, ← between_append _ hle₂ (by omega), hafter] at htext
  obtain ⟨pieces, hflat, hlang, -⟩ := hpieces.lang
  have hflat : between scene.text m₂.pos m₃.pos = pieces.flatten := hflat
  refine ⟨m₁.pos, m₂.pos, ?_, hle₂, ?_⟩
  · rw [hmore.group?_eq (by simp [indices]), hpieces.group?_eq (by decide)]
    rfl
  rw [htext, hflat]
  refine .mk (alike_of_names (words_shortNames ▸ hname)) (fun c hc d hd => ?_) fun w hw =>
    tagPiece_of_lang (hlang w hw)
  -- the name ends at the edge, and what follows begins there
  have hne : m₁.pos < m₂.pos := by
    by_contra hge
    rw [between_eq, Nat.sub_eq_zero_of_le (by omega)] at hc
    simp at hc
  have hpos : 0 < m₂.pos := by omega
  rw [Option.mem_def, getLast?_between hne (by omega)] at hc
  rw [← hflat, ← hafter, Option.mem_def, head?_between (by omega)] at hd
  exact isWord_ne_of_edge hedge hpos hc hd

theorem elementClosing_of_reach {i k : Nat} (hheld : p.group? 2 = some ⟨i, k⟩) (hik : i ≤ k)
    (h : closeNode.Reach scene false p q) :
    ElementClosing (between scene.text i k) (between scene.text p.pos q.pos) := by
  obtain ⟨m₁, hless, h⟩ := h
  have htext := between_seq hless h
  obtain ⟨m₂, hslash, h⟩ := h
  rw [between_seq hslash h] at htext
  obtain ⟨m₃, hcopy, hmore⟩ := h
  rw [between_sign (by decide) hless, between_sign (by decide) hslash, between_seq hcopy hmore,
    between_sign (by decide) hmore] at htext
  have hheld : m₂.group? 2 = some ⟨i, k⟩ := by
    rw [hslash.group?_eq (by simp [indices]), hless.group?_eq (by simp [indices]), hheld]
  obtain ⟨m, hcopy, rfl⟩ := hcopy
  rw [htext]
  have halike := alike_of_recall hheld hik hcopy
  exact .mk halike

/-! ### Template blocks -/

/-- Anything but the end of the tag and of the line. -/
def blockPiece : Node :=
  .seq (.look false false (.alt (.one feedSet) (.seq (.one (signSet '%')) (.one (signSet '\x7d')))))
    (.one { feedSet with negated := true })

def blockOpenNode : Node :=
  .seq (.alt (.one spaceSet) (.anchor .lineStart)) <| .seq (.one (signSet '\x7b')) <|
    .seq (.one (signSet '%')) <|
    .seq (.rep (.one (signSet '-')) 0 (some 1) false) <|
    .seq (.rep (.one (signSet ' ')) 0 none true) <|
    .seq (.group 2 (choice (shortBlockNames.map (named ·.toList)))) <|
    .seq (.rep blockPiece 0 none true) <|
    .seq (.one (signSet '%')) (.one (signSet '\x7d'))

def blockCloseNode : Node :=
  .seq (.one (signSet '\x7b')) <| .seq (.one (signSet '%')) <|
    .seq (.rep (.one (signSet '-')) 0 (some 1) false) <|
    .seq (.rep (.one (signSet ' ')) 1 none true) <| .seq (.one (signSet 'e')) <|
    .seq (.one (signSet 'n')) <|
    .seq (.one (signSet 'd')) <| .seq (.group 5 (.recall 2 .simple)) <|
    .seq (.rep (.one (signSet ' ')) 0 none true) <|
    .seq (.one (signSet '%')) (.one (signSet '\x7d'))

/-- Everything but a percent sign and a line feed. -/
def blockBodySet : CharSet :=
    { items := [.range '%' '%', .range '\n' '\n'], negated := true, folding := .simple }

theorem node_shortBlock :
    shortBlock.node = jointNode blockOpenNode blockBodySet blockCloseNode := by
  rw [shortBlock_eq]
  rfl

theorem node_shortElement :
    shortElement.node = jointNode (openNode (wordSets shortWords) pieceNode) bodySet closeNode := by
  rw [shortElement_eq]
  exact node_shortPattern

theorem holds_blockBodySet (c : Char) : blockBodySet.holds c = (c != '%' && c != '\n') :=
  holds_outside_pair (by decide) (by decide) c

theorem points_blockEnd {r : List Char} (hrest : scene.rest p = '%' :: '\x7d' :: r) :
    (Node.seq (.one (signSet '%')) (.one (signSet '\x7d'))).points scene false p =
    [(p.move 1).move 1] := by
  rw [points_seq_singleton (points_one_of_holds hrest (signSet_self (by decide)))]
  refine points_one_of_holds (r := r) ?_ (signSet_self (by decide))
  rw [Scene.rest_move, hrest]
  rfl

theorem blockPiece_cases (h : blockPiece.Reach scene false p q) :
    ∃ c, between scene.text p.pos q.pos = [c] ∧ c ≠ '\n' ∧ ∀ r,
    scene.rest p ≠ '%' :: '\x7d' :: r := by
  obtain ⟨_, ⟨hlook, rfl⟩, hone⟩ := h
  obtain ⟨c, htext, hc⟩ := hone.lang
  refine ⟨c, htext, ?_, fun r hrest => ?_⟩
  · rintro rfl
    exact absurd hc (by decide)
  · rw [points_alt, points_blockEnd hrest] at hlook
    simp at hlook

theorem blockPieces_of_reach {n : Nat} (h : Iter (blockPiece.Reach scene false) n p q) :
    p.pos ≤ q.pos ∧ '\n' ∉ between scene.text p.pos q.pos ∧
    ¬['%', '\x7d'] <:+: between scene.text p.pos q.pos := by
  induction h with
  | zero p => simp
  | @succ n p m q hpiece _ ih =>
    obtain ⟨hle, hfeed, hfree⟩ := ih
    obtain ⟨c, hc, hne, hend⟩ := blockPiece_cases hpiece
    have hpm : p.pos ≤ m.pos := hpiece.moves.forward rfl
    have htext : between scene.text p.pos q.pos = c :: between scene.text m.pos q.pos := by
      rw [← between_append _ hpm hle, hc]
      rfl
    refine ⟨hpm.trans hle, by simp [htext, hne.symm, hfeed], fun hinfix => ?_⟩
    rw [htext, List.infix_cons_iff] at hinfix
    obtain hbegins | hinfix := hinfix
    · -- the sign would stand right here, where the condition rules it out
      obtain ⟨r, hr⟩ := hbegins
      refine hend (r ++ scene.rest q) ?_
      have hrest : between scene.text p.pos q.pos ++ scene.rest q = scene.rest p :=
        between_append_drop _ (hpm.trans hle)
      rw [← hrest, htext, ← hr]
      rfl
    · exact hfree hinfix

theorem between_blockEnd (h : (Node.seq (.one (signSet '%')) (.one (signSet '\x7d'))).Reach
    scene false p q) : between scene.text p.pos q.pos = ['%', '\x7d'] := by
  obtain ⟨m, hpercent, hbrace⟩ := h
  rw [between_seq hpercent hbrace, between_sign (by decide) hpercent,
    between_sign (by decide) hbrace]
  rfl

theorem between_margin (h : (Node.alt (.one spaceSet) (.anchor .lineStart)).Reach scene false p q) :
    between scene.text p.pos q.pos = [] ∨ ∃ c, between scene.text p.pos q.pos = [c] ∧
    isSpace c = true := by
  obtain ⟨c, hc, hspace⟩ | hnil := h.lang
  · rw [holds_spaceSet] at hspace
    exact .inr ⟨c, hc, hspace⟩
  · exact .inl hnil

theorem blockOpening_of_reach (h : blockOpenNode.Reach scene false p q) :
    ∃ i k, q.group? 2 = some ⟨i, k⟩ ∧ i ≤ k ∧
      BlockOpening (between scene.text i k) (between scene.text p.pos q.pos) := by
  obtain ⟨m₁, hmargin, h⟩ := h
  have htext := between_seq hmargin h
  obtain ⟨m₂, hbrace, h⟩ := h
  rw [between_seq hbrace h, between_sign (by decide) hbrace] at htext
  obtain ⟨m₃, hpercent, h⟩ := h
  rw [between_seq hpercent h, between_sign (by decide) hpercent] at htext
  obtain ⟨m₄, hmark, h⟩ := h
  rw [between_seq hmark h] at htext
  obtain ⟨m₅, hblanks, h⟩ := h
  rw [between_seq hblanks h] at htext
  obtain ⟨m₆, hname, h⟩ := h
  rw [between_seq hname h] at htext
  obtain ⟨m₇, hinner, hend⟩ := h
  rw [between_seq hinner hend, between_blockEnd hend] at htext
  refine ⟨m₅.pos, m₆.pos, ?_, hname.moves.forward rfl, ?_⟩
  · rw [hend.group?_eq (by simp [indices]), hinner.group?_eq (by simp [blockPiece, indices])]
    obtain ⟨m, -, rfl⟩ := hname
    rfl
  · obtain ⟨n, -, -, hiter⟩ := hinner
    obtain ⟨-, hfeed, hfree⟩ := blockPieces_of_reach hiter
    obtain ⟨m, hname, rfl⟩ := hname
    have halike := alike_of_names hname
    rw [htext]
    exact .mk (between_margin hmargin) (between_optional (by decide) hmark)
      (between_signs (by decide) hblanks)
      halike hfeed hfree

/-- A word whose letters are matched one after the other. -/
theorem alike_cons {c : Char} {w w' : List Char} (h : (Node.one (signSet c)).Reach scene false p q)
    (hw : Alike w w') : Alike (between scene.text p.pos q.pos ++ w) (c :: w') := by
  obtain ⟨d, hd, hc⟩ := h.lang
  rw [hd]
  exact .cons (holds_sign_iff.1 hc) hw

theorem blockClosing_of_reach {i k : Nat} (hheld : p.group? 2 = some ⟨i, k⟩) (hik : i ≤ k)
    (h : blockCloseNode.Reach scene false p q) :
    BlockClosing (between scene.text i k) (between scene.text p.pos q.pos) := by
  have hstep : ∀ {n : Node} {p q : Point}, n.indices = [] → n.Reach scene false p q →
      p.group? 2 = some ⟨i, k⟩ → q.group? 2 = some ⟨i, k⟩ := by
    intro n p q hn hreach hp
    rw [hreach.group?_eq (by simp [hn]), hp]
  obtain ⟨m₁, hbrace, h⟩ := h
  have htext := between_seq hbrace h
  obtain ⟨m₂, hpercent, h⟩ := h
  rw [between_seq hpercent h] at htext
  obtain ⟨m₃, hmark, h⟩ := h
  rw [between_seq hmark h] at htext
  obtain ⟨m₄, hblanks, h⟩ := h
  rw [between_seq hblanks h] at htext
  obtain ⟨m₅, he, h⟩ := h
  rw [between_seq he h] at htext
  obtain ⟨m₆, hn, h⟩ := h
  rw [between_seq hn h] at htext
  obtain ⟨m₇, hd, h⟩ := h
  rw [between_seq hd h] at htext
  obtain ⟨m₈, hcopy, h⟩ := h
  rw [between_seq hcopy h] at htext
  obtain ⟨m₉, hblanks', hend⟩ := h
  rw [between_seq hblanks' hend, between_blockEnd hend, between_sign (by decide) hbrace,
    between_sign (by decide) hpercent] at htext
  have hheld : m₇.group? 2 = some ⟨i, k⟩ := hstep rfl hd <| hstep rfl hn <| hstep rfl he <|
    hstep rfl hblanks <| hstep rfl hmark <| hstep rfl hpercent <| hstep rfl hbrace hheld
  obtain ⟨m, hcopy, rfl⟩ := hcopy
  have halike := alike_of_recall hheld hik hcopy
  have hword : Alike _ "end".toList := alike_cons he (alike_cons hn (alike_cons hd .nil))
  have := BlockClosing.mk (between_optional (by decide) hmark)
    (between_signs (by decide) hblanks) hword halike
    (between_signs (by decide) hblanks')
  simpa [htext] using this

end reaching

/-! ### Found joints -/

/-- A match is a joint: its groups are the tags and the text. -/
structure Joint.At (j : Joint) (chars : Array Char) (m : Match) : Prop where
  text : m.text chars = j.source
  opening : m.capture chars 1 = j.opening
  body : m.capture chars 3 = j.body
  closing : m.capture chars 4 = j.closing

variable {chars : Array Char} {m : Match}

theorem exists_joint {P : Pattern} {a b : Node} {body : CharSet}
    (hnode : P.node = jointNode a body b) (hkeep : P.node.keepless = true)
    (hb : ∀ i ∈ [1, 3], i ∉ b.indices) {K : Joint → Prop}
    (hK : ∀ (j : Joint) (scene : Scene) (p m m' q : Point), a.Reach scene false p m →
      b.Reach scene false m' q →
      m'.group? 2 = m.group? 2 → j.opening = between scene.text p.pos m.pos →
      j.closing = between scene.text m'.pos q.pos → (∀ c ∈ j.body, body.holds c = true) → K j)
    (hm : m ∈ P.findAll chars) : ∃ j : Joint, K j ∧ j.At chars m := by
  obtain ⟨origin, i, q, -, hq, rfl⟩ := exists_reach_of_mem_findAll hm
  have hstart : q.start = i := hq.start_eq hkeep
  rw [hnode] at hq
  obtain ⟨j, m, m', m'', ha, hb', hgroup, hopening, hclosing, hbody, hsource, h₁, h₃, h₄⟩ :=
    exists_joint_of_reach hq hb
  refine ⟨j, hK j _ _ m m' m'' ha hb' hgroup hopening hclosing hbody, ?_, ?_, ?_, ?_⟩
  · rw [hsource]
    show between chars q.start q.pos = _
    rw [hstart]
    rfl
  · exact congrArg (·.getD []) h₁
  · exact congrArg (·.getD []) h₃
  · exact congrArg (·.getD []) h₄

theorem exists_isElement (hm : m ∈ shortElement.findAll chars) :
    ∃ j : Joint, j.IsElement ∧ j.At chars m := by
  obtain ⟨_, _, _, _, _, _, _, hshort⟩ := isShort_element
  refine exists_joint node_shortElement hshort.keepless (by decide) ?_ hm
  intro j scene p m m' q hopen hclose hgroup hopening hclosing hbody
  obtain ⟨i, k, hheld, hik, htag⟩ := elementOpening_of_reach hopen
  refine ⟨_, hopening ▸ htag, hclosing ▸ elementClosing_of_reach (hgroup.trans hheld) hik hclose,
    ?_, ?_⟩
  · intro hmem
    simpa [holds_bodySet] using hbody _ hmem
  · intro hmem
    simpa [holds_bodySet] using hbody _ hmem

theorem exists_isBlock (hm : m ∈ shortBlock.findAll chars) :
    ∃ j : Joint, j.IsBlock ∧ j.At chars m := by
  obtain ⟨_, _, _, _, _, _, _, hshort⟩ := isShort_block
  refine exists_joint node_shortBlock hshort.keepless (by decide) ?_ hm
  intro j scene p m m' q hopen hclose hgroup hopening hclosing hbody
  obtain ⟨i, k, hheld, hik, htag⟩ := blockOpening_of_reach hopen
  refine ⟨_, hopening ▸ htag, hclosing ▸ blockClosing_of_reach (hgroup.trans hheld) hik hclose, ?_,
    ?_⟩
  · intro hmem
    simpa [holds_blockBodySet] using hbody _ hmem
  · intro hmem
    simpa [holds_blockBodySet] using hbody _ hmem

end TemplateTidy.Layout
