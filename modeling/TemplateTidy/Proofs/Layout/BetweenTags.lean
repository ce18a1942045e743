import TemplateTidy.Proofs.Layout.FlatTags

/-! # What stands between tags

Flattening replaces tags and copies the rest.  A stretch of the document stays if every tag that
meets it lies in an unformatted region (`flattenTags_keeps_stretch`).  A tag ends at its first
closing bracket that stands behind no quote and no brace (`exists_guarded_of_lang`), and no tag
begins where a comment does (`not_reach_comment`).  So the contents of a script, of a style or of a
comment stay if no opening bracket but those of comments is in them and every one before them is
closed (`flattenTags_keeps_contents`). -/

namespace TemplateTidy

open Text

/-! ### Replacing beside a stretch -/

section stretch

variable {text : Array Char} {u v r : List Char}

theorem Ordered.weaken {pos k : Nat} {ms : List Match} (hk : pos ≤ k) (h : Ordered text k ms) :
    Ordered text pos ms := by
  cases ms with
  | nil => exact hk.trans h
  | cons m ms => exact ⟨hk.trans h.1, h.2⟩

/-- Up to the first match the text is copied. -/
theorem splice_split {pos k : Nat} {images : List (Match × List Char)} (hk : pos ≤ k)
    (h : Ordered text k (images.map Prod.fst)) :
    splice text pos images = between text pos k ++ splice text k images := by
  cases images with
  | nil => rw [splice_nil, splice_nil, between_append_drop _ hk]
  | cons x images =>
    obtain ⟨m, image⟩ := x
    rw [splice_cons, splice_cons, ← List.append_assoc (between text pos k), between_append _ hk h.1]

variable {h : List Char → List Char} (happ : ∀ a b, h (a ++ b) = h a ++ h b)
  (htext : text.toList = u ++ (v ++ r))
include happ htext

/-- If all matches come behind a stretch, it is copied with what stands before it. -/
theorem exists_splice_of_behind {images : List (Match × List Char)} {pos : Nat}
    (hpos : pos ≤ u.length) (ho : Ordered text (u ++ v).length (images.map Prod.fst))
    (hview : ∀ x ∈ images, h x.2 = h (x.1.text text)) :
    ∃ a b, splice text pos images = a ++ (v ++ b) ∧ h a = h (u.drop pos) ∧ h b = h r := by
  have hle : pos ≤ (u ++ v).length := by
    rw [List.length_append]
    omega
  have hbetween : between text pos (u ++ v).length = u.drop pos ++ v := by
    rw [between_eq, htext, ← List.append_assoc, List.drop_append_of_le_length hle,
      List.drop_append_of_le_length hpos, List.take_left' (by simp; omega)]
  refine ⟨u.drop pos, splice text (u ++ v).length images, ?_, rfl, ?_⟩
  · rw [splice_split hle ho, hbetween, List.append_assoc]
  · rw [splice_view happ ho hview, htext, ← List.append_assoc, List.drop_left]

/-- A stretch of the text that no replacement changes is kept, and a view of the text that each
replacement keeps is the same before it and behind it. -/
theorem exists_splice_of_kept : ∀ {images : List (Match × List Char)} {pos : Nat}, pos ≤ u.length →
    Ordered text pos (images.map Prod.fst) → (∀ x ∈ images, h x.2 = h (x.1.text text)) →
    (∀ x ∈ images, x.2 = x.1.text text ∨ x.1.stop ≤ u.length ∨ (u ++ v).length ≤ x.1.start) →
    ∃ a b, splice text pos images = a ++ (v ++ b) ∧ h a = h (u.drop pos) ∧ h b = h r
  | [], pos, hpos, _, hview, _ => by
      have hsize : (u ++ v).length ≤ text.size := by
        rw [← Array.length_toList, htext]
        simp
      exact exists_splice_of_behind happ htext hpos hsize hview
  | (m, image) :: images, pos, hpos, ho, hview, hkept => by
      obtain ⟨h₁, h₂, hrest⟩ := ho
      have hview' : ∀ x ∈ images, h x.2 = h (x.1.text text) := fun x hx =>
        hview x (List.mem_cons_of_mem _ hx)
      have hkept' := fun x hx => hkept x (List.mem_cons_of_mem _ hx)
      obtain himage | hstop | hstart := hkept (m, image) List.mem_cons_self
      · -- a match that is written as it was need not be cut out
        have hcopy : splice text pos ((m, image) :: images) = splice text pos images := by
          rw [splice_cons, splice_split (h₁.trans h₂) hrest,
            show image = between text m.start m.stop from himage,
            ← List.append_assoc, between_append _ h₁ h₂]
        rw [hcopy]
        exact exists_splice_of_kept hpos (hrest.weaken (h₁.trans h₂)) hview' hkept'
      · obtain ⟨a, b, hab, ha, hb⟩ := exists_splice_of_kept hstop hrest hview' hkept'
        have hparts : u.drop pos = between text pos m.start ++ (m.text text ++ u.drop m.stop) := by
          have hdrop : text.toList.drop pos = between text pos m.start ++
              (m.text text ++ text.toList.drop m.stop) :=
            drop_eq_parts h₁ h₂
          rw [htext, List.drop_append_of_le_length hpos,
            List.drop_append_of_le_length hstop] at hdrop
          refine (List.append_left_inj (v ++ r)).1 ?_
          simpa using hdrop
        refine ⟨between text pos m.start ++ (image ++ a), b, ?_, ?_, hb⟩
        · rw [splice_cons, hab]
          simp
        · rw [happ, happ, hview (m, image) List.mem_cons_self, ha, hparts, happ, happ]
      · exact exists_splice_of_behind happ htext hpos ⟨hstart, h₂, hrest⟩ hview

/-- A stretch that no match changes is kept by the whole replacement. -/
theorem Pattern.exists_replaceAll_of_kept {P : Pattern} {f : Match → List Char}
    (hview : ∀ m ∈ P.findAll text, h (f m) = h (m.text text))
    (hkept : ∀ m ∈ P.findAll text, f m = m.text text ∨ m.stop ≤ u.length ∨
      (u ++ v).length ≤ m.start) :
    ∃ a b, P.replaceAll f text = a ++ (v ++ b) ∧ h a = h u ∧ h b = h r := by
  refine exists_splice_of_kept happ htext (Nat.zero_le _) P.ordered_images
    (fun x hx => ?_) fun x hx => ?_
  · obtain ⟨m, hm, rfl⟩ := List.mem_map.1 hx
    exact hview m hm
  · obtain ⟨m, hm, rfl⟩ := List.mem_map.1 hx
    exact hkept m hm

end stretch

/-- Where a pattern of tags is found, an opening bracket stands. -/
theorem Pattern.StartsTag.bracket_of_mem_findAll {P : Pattern} (hP : P.StartsTag)
    (hkeep : P.node.keepless = true)
    {text : Array Char} {m : Match} (hm : m ∈ P.findAll text) : text[m.start]? = some '<' := by
  obtain ⟨origin, i, q, -, hq, rfl⟩ := exists_reach_of_mem_findAll hm
  obtain ⟨c, rest, hrest, hc⟩ := Node.exists_good_of_begins hP.begins hq
    (Node.lt_of_solid hP.solid hq)
  obtain rfl : c = '<' := by simpa using hc
  rw [show (Match.ofPoint q).start = i from hq.start_eq hkeep]
  show (P.scene text origin).text[(Point.at i).pos]? = some '<'
  rw [Scene.getElem?_pos, hrest]
  rfl

/-! ### Guarded characters -/

/-- A character stands in a text only behind one of those that open something. -/
def Guarded (opens : Char → Bool) (c : Char) (w : List Char) : Prop :=
  ∀ x y, w = x ++ c :: y → ∃ d ∈ x, opens d = true

namespace Guarded

variable {opens : Char → Bool} {c : Char} {u v : List Char}

theorem append (hu : Guarded opens c u) (hv : Guarded opens c v) : Guarded opens c (u ++ v) := by
  intro x y heq
  obtain ⟨x', rfl, hsplit⟩ | ⟨y', rfl, hsplit⟩ := List.append_eq_append_iff.1 heq
  · obtain ⟨d, hd, hopen⟩ := hv x' y hsplit
    exact ⟨d, List.mem_append_right _ hd, hopen⟩
  · cases y' with
    | nil =>
      obtain ⟨d, hd, -⟩ := hv [] y hsplit.symm
      cases hd
    | cons e y' =>
      obtain ⟨rfl, -⟩ := List.cons.inj hsplit
      exact hu x y' rfl

theorem flatten {ws : List (List Char)} (h : ∀ w ∈ ws, Guarded opens c w) :
    Guarded opens c ws.flatten := by
  induction ws with
  | nil => simp [Guarded]
  | cons w ws ih =>
    rw [List.flatten_cons]
    exact (h w List.mem_cons_self).append (ih fun w hw => h w (List.mem_cons_of_mem _ hw))

/-- What begins with an opening character is guarded. -/
theorem of_head (hc : opens c = false) {d : Char} (hd : opens d = true) :
    Guarded opens c (d :: v) := by
  intro x y heq
  cases x with
  | nil =>
    obtain ⟨rfl, -⟩ := List.cons.inj heq
    rw [hc] at hd
    cases hd
  | cons e x =>
    obtain ⟨rfl, -⟩ := List.cons.inj heq
    exact ⟨d, List.mem_cons_self, hd⟩

/-- A guarded text ends before the character does that stands behind no opening one. -/
theorem length_le {front x y z : List Char} (hfront : Guarded opens c front)
    (hx : ∀ d ∈ x, opens d = false) (h : front ++ y = x ++ c :: z) : front.length ≤ x.length := by
  obtain ⟨t, rfl, -⟩ | ⟨t, rfl, ht⟩ := List.append_eq_append_iff.1 h
  · rw [List.length_append]
    omega
  · cases t with
    | nil => rw [List.append_nil]
    | cons e t =>
      obtain ⟨rfl, -⟩ := List.cons.inj ht
      obtain ⟨d, hd, hopen⟩ := hfront x t rfl
      rw [hx d hd] at hopen
      cases hopen

end Guarded

namespace Node

/-- Whether the pattern takes one of the opening characters. -/
def isOpening (opens : Char → Bool) : Node → Bool
  | .one cs => cs.onlyOf opens
  | _ => false

/-- Whether the texts of the pattern are seen to be guarded. -/
def guards (opens : Char → Bool) (c : Char) : Node → Bool
  | .one cs => !cs.holds c
  | .seq a b => a.isOpening opens || a.guards opens c && b.guards opens c
  | .alt a b | .ifGroup _ a b => a.guards opens c && b.guards opens c
  | .group _ a | .atomic a | .rep a .. => a.guards opens c
  | .recall .. => false
  | _ => true

/-- A pattern that does not match is repeated no time, if that is allowed. -/
theorem Reach.stays_of_rep {scene : Scene} {a : Node} {least : Nat} {most : Option Nat}
    {reluctant : Bool} {p q : Point} (h : (Node.rep a least most reluctant).Reach scene false p q)
    (ha : ∀ q, ¬a.Reach scene false p q) : least = 0 ∧ q = p := by
  obtain ⟨n, hn, -, hiter⟩ := h
  cases n with
  | zero => exact ⟨by omega, Iter.zero_iff.1 hiter⟩
  | succ n =>
    obtain ⟨m, hm, -⟩ := Iter.succ_iff.1 hiter
    exact absurd hm (ha m)

theorem Lang.opening {opens : Char → Bool} {n : Node} {w : List Char} (hw : n.Lang w)
    (hn : n.isOpening opens = true) : ∃ d, w = [d] ∧ opens d = true := by
  cases n with
  | one cs =>
    obtain ⟨d, rfl, hd⟩ := hw
    exact ⟨d, rfl, CharSet.holds_onlyOf hn hd⟩
  | _ => cases hn

theorem Lang.guarded {opens : Char → Bool} {c : Char} (hc : opens c = false) {n : Node} :
    ∀ {w : List Char}, n.guards opens c = true → n.Lang w → Guarded opens c w := by
  have hnil : Guarded opens c [] := by simp [Guarded]
  induction n with
  | one cs =>
    rintro w hn ⟨d, rfl, hd⟩ x y heq
    have hmem : c ∈ [d] := heq ▸ List.mem_append_right x List.mem_cons_self
    obtain rfl := List.mem_singleton.1 hmem
    simp [guards, hd] at hn
  | seq a b iha ihb =>
    rintro w hn ⟨u, v, rfl, hu, hv⟩
    obtain hopen | hboth := Bool.or_eq_true_iff.1 hn
    · obtain ⟨d, rfl, hd⟩ := hu.opening hopen
      exact .of_head hc hd
    · obtain ⟨ha, hb⟩ := Bool.and_eq_true_iff.1 hboth
      exact (iha ha hu).append (ihb hb hv)
  | alt a b iha ihb | ifGroup i a b iha ihb =>
    intro w hn hw
    obtain ⟨ha, hb⟩ := Bool.and_eq_true_iff.1 hn
    exact hw.elim (iha ha) (ihb hb)
  | group i a ih => exact ih
  | atomic a ih => exact ih
  | rep a least most reluctant ih =>
    rintro w hn ⟨us, rfl, hus, -⟩
    exact .flatten fun u hu => ih hn (hus u hu)
  | fail => rintro w - ⟨⟩
  | «recall» => intro w hn; cases hn
  | _ =>
    rintro w - rfl
    exact hnil

end Node

namespace Layout

open Node Pattern

variable {s : Settings} {u v r : List Char}

theorem startsTag_tagPattern : tagPattern.StartsTag := by
  rw [tagPattern_eq]
  exact startsTag_flat

theorem keepless_tagPattern : tagPattern.node.keepless = true := by
  rw [tagPattern_eq]
  decide +kernel

/-- A stretch of the document stays if every tag that meets it lies in an unformatted region. -/
theorem flattenTags_keeps_stretch (hvoid : s.closeVoidTags.truthy = false)
    (htags : ∀ m ∈ tagPattern.findAll (u ++ (v ++ r)).toArray, u.length < m.stop →
      m.start < (u ++ v).length →
      (Region.spansOf Region.unformatted (u ++ (v ++ r)).toArray).any (Region.childOf m.span) =
        true) :
    ∃ a b, flattenTags s (u ++ (v ++ r)) = a ++ (v ++ b) ∧
      squeeze a = squeeze u ∧ squeeze b = squeeze r := by
  refine exists_replaceAll_of_kept (P := tagPattern) squeeze_append
    (List.toList_toArray ..) (fun m hm => ?_)
    fun m hm => ?_
  · split
    · rfl
    · exact squeeze_flatTag hvoid hm
  · by_cases hstop : m.stop ≤ u.length
    · exact .inr (.inl hstop)
    by_cases hstart : (u ++ v).length ≤ m.start
    · exact .inr (.inr hstart)
    rw [if_pos (htags m hm (by omega) (by omega))]
    exact .inl rfl

/-! ### Where a tag begins and ends -/

/-- The signs behind which a tag may go on past a closing bracket. -/
def isQuoting (c : Char) : Bool :=
  ['"', '\'', '\x7b'].contains c

/-- What evaluation tells of the ends of a tag. -/
theorem tagParts_check :
    (markNode.guards isQuoting '>' && attributesNode.guards isQuoting '>') = true ∧
    nameSet.holds '>' = false ∧ nameSet.holds '!' = false := by
  decide +kernel

section parts

variable {mark attributes : Node} {names : CharSet}

/-- A tag ends with a closing bracket, and before it there is none but behind quotes and braces. -/
theorem exists_guarded_of_lang {w : List Char} (hmark : mark.guards isQuoting '>' = true)
    (hattributes : attributes.guards isQuoting '>' = true) (hnames : names.holds '>' = false)
    (hw : (flatNode mark attributes names).Lang w) :
    ∃ front, w = front ++ ['>'] ∧ Guarded isQuoting '>' front := by
  obtain ⟨w₁, _, rfl, h₁, w₂, _, rfl, h₂, w₃, _, rfl, h₃, w₄, _, rfl, h₄, w₅, w₆, rfl, h₅, h₆⟩ := hw
  have hslash : (signSet '/').holds '>' = false := by decide
  have hspace : spaceSet.holds '>' = false := by decide
  have hless : (signSet '<').holds '>' = false := by decide
  have hc : isQuoting '>' = false := by decide
  obtain rfl := h₆.eq_singleton (a := '>') (by decide)
  refine ⟨w₁ ++ (w₂ ++ (w₃ ++ (w₄ ++ w₅))), by simp, ?_⟩
  refine .append (h₁.guarded hc ?_) (.append (h₂.guarded hc ?_) (.append (h₃.guarded hc ?_)
    (.append (h₄.guarded hc ?_) (h₅.guarded hc ?_))))
  · simp [guards, hless, hslash, hmark]
  · simp [guards, hnames]
  · simpa [guards] using hattributes
  · simp [guards, hspace]
  · simp [guards, hslash]

/-- The mark of a declaration is refused before two dashes. -/
theorem not_reach_markNode {scene : Scene} {p q : Point} {r : List Char}
    (hrest : scene.rest p = '!' :: '-' :: '-' :: r) : ¬markNode.Reach scene false p q := by
  rintro ⟨m, hm, hlook, -⟩
  obtain ⟨-, -, -, rfl⟩ := Scene.stepOver_forward.1 hm
  have hdashes : scene.rest (p.move 1) = '-' :: '-' :: r := by
    rw [Scene.rest_move, hrest]
    rfl
  have hdash : scene.rest ((p.move 1).move 1) = '-' :: r := by
    rw [Scene.rest_move, hdashes]
    rfl
  have hfirst := First.seq (Sole.one hdashes (signSet_self (by decide))).first
    (Sole.one hdash (signSet_self (by decide))).first
  exact List.ne_nil_of_mem hfirst.mem hlook

/-- No tag begins where a comment does. -/
theorem not_reach_comment {scene : Scene} {p q : Point} {r : List Char}
    (hrest : scene.rest p = '<' :: '!' :: '-' :: '-' :: r) (hnames : names.holds '!' = false) :
    ¬(flatNode markNode attributes names).Reach scene false p q := by
  rintro ⟨_, ⟨m, ⟨m₁, hless, m₂, hslash, hmark⟩, rfl⟩, _, ⟨_, ⟨_, hname, -⟩, -⟩, -⟩
  obtain ⟨-, -, -, rfl⟩ := Scene.stepOver_forward.1 hless
  have hrest₁ : scene.rest (p.move 1) = '!' :: '-' :: '-' :: r := by
    rw [Scene.rest_move, hrest]
    rfl
  -- neither a slash nor a mark nor a name can be taken here
  have hone : ∀ {cs : CharSet} {p' q : Point}, scene.rest p' = scene.rest (p.move 1) →
      cs.holds '!' = false → ¬(Node.one cs).Reach scene false p' q := by
    intro cs p' q hp' hcs hq
    obtain ⟨c, hc, hholds, -⟩ := Scene.stepOver_forward.1 hq
    rw [Scene.getElem?_pos, hp', hrest₁] at hc
    obtain rfl := Option.some.inj hc
    rw [hcs] at hholds
    cases hholds
  obtain ⟨-, rfl⟩ := hslash.stays_of_rep fun q => hone rfl (by decide)
  obtain ⟨-, rfl⟩ := hmark.stays_of_rep fun q => not_reach_markNode hrest₁
  obtain ⟨hleast, -⟩ := hname.stays_of_rep fun q => hone rfl hnames
  cases hleast

end parts

/-! ### The contents of an element -/

section found

variable {text : Array Char} {m : Match}

/-- Where a tag is found, its pattern matches the text of the tag. -/
theorem exists_reach_tagParts (hm : m ∈ tagPattern.findAll text) :
    ∃ origin q, tagParts.Reach (flatPattern.scene text origin) false (.at m.start) q ∧
    q.pos = m.stop := by
  rw [tagPattern_eq] at hm
  obtain ⟨origin, i, q, -, hq, rfl⟩ := exists_reach_of_mem_findAll hm
  have hstart : (Match.ofPoint q).start = i := hq.start_eq (tagPattern_eq ▸ keepless_tagPattern)
  rw [hstart, ← node_flatPattern]
  exact ⟨origin, q, hq, rfl⟩

theorem exists_guarded_of_mem_findAll (hm : m ∈ tagPattern.findAll text) :
    ∃ front, m.text text = front ++ ['>'] ∧ Guarded isQuoting '>' front := by
  obtain ⟨hguards, hnames, -⟩ := tagParts_check
  obtain ⟨hmark, hattributes⟩ := Bool.and_eq_true_iff.1 hguards
  obtain ⟨origin, q, hq, hstop⟩ := exists_reach_tagParts hm
  have htext : between text m.start q.pos = m.text text := by
    rw [hstop]
    rfl
  exact htext ▸ exists_guarded_of_lang hmark hattributes hnames hq.lang

theorem drop_ne_comment_of_mem_findAll (hm : m ∈ tagPattern.findAll text) (r : List Char) :
    text.toList.drop m.start ≠ '<' :: '!' :: '-' :: '-' :: r := by
  intro hrest
  obtain ⟨origin, q, hq, -⟩ := exists_reach_tagParts hm
  have hscene : (flatPattern.scene text origin).rest (.at m.start) = '<' :: '!' :: '-' :: '-' ::
    r := hrest
  exact not_reach_comment hscene tagParts_check.2.2 hq

/-- A tag that begins in a part of the text begins at an opening bracket there. -/
theorem exists_bracket_of_mem_findAll {x w y : List Char} (htext : text.toList = x ++ (w ++ y))
    (hm : m ∈ tagPattern.findAll text) (hle : x.length ≤ m.start)
    (hlt : m.start < (x ++ w).length) :
    ∃ w₁ w₂, w = w₁ ++ '<' :: w₂ ∧ (x ++ w₁).length = m.start := by
  obtain ⟨k, hk⟩ := Nat.exists_eq_add_of_le hle
  have hkw : k < w.length := by
    rw [List.length_append] at hlt
    omega
  have hbracket := startsTag_tagPattern.bracket_of_mem_findAll keepless_tagPattern hm
  rw [← Array.getElem?_toList, htext, hk, List.getElem?_append_right (Nat.le_add_right ..),
    Nat.add_sub_cancel_left, List.getElem?_append_left hkw] at hbracket
  refine ⟨w.take k, w.drop (k + 1), ?_, ?_⟩
  · rw [← (List.getElem?_eq_some_iff.1 hbracket).2, List.getElem_cons_drop, List.take_append_drop]
  · rw [List.length_append, List.length_take]
    omega

/-- Every opening bracket is closed before a quote or a brace comes. -/
def BracketsClose (u : List Char) : Prop :=
  ∀ x y, u = x ++ '<' :: y → ∃ y₁ y₂, y = y₁ ++ '>' :: y₂ ∧ ∀ c ∈ y₁, isQuoting c = false

/-- A tag that begins in such a text ends there. -/
theorem BracketsClose.stop_le (hu : BracketsClose u) (htext : text.toList = u ++ r)
    (hm : m ∈ tagPattern.findAll text) (hlt : m.start < u.length) : m.stop ≤ u.length := by
  by_contra hover
  obtain ⟨x, y, rfl, hx⟩ := exists_bracket_of_mem_findAll (x := []) htext hm (Nat.zero_le _) hlt
  obtain ⟨y₁, y₂, rfl, hfree⟩ := hu x y rfl
  obtain ⟨front, hfront, hguarded⟩ := exists_guarded_of_mem_findAll hm
  -- the text of the tag goes on behind the bracket
  have htag : front ++ ('>' :: text.toList.drop m.stop) = ('<' :: y₁) ++ '>' :: (y₂ ++ r) := by
    have hstart : text.toList.drop m.start = ('<' :: y₁) ++ '>' :: (y₂ ++ r) := by
      rw [htext, ← hx, List.nil_append, List.append_assoc, List.drop_left]
      simp
    have hdrop : m.text text ++ text.toList.drop m.stop = text.toList.drop m.start :=
      between_append_drop _ (by omega)
    rw [← hstart, ← hdrop, hfront, List.append_assoc]
    rfl
  have hshort : front.length ≤ ('<' :: y₁).length :=
    hguarded.length_le (List.forall_mem_cons.2 ⟨by decide, hfree⟩) htag
  have hlength := congrArg List.length htag
  have hsize := stop_le_size hm
  rw [← Array.length_toList, htext] at hsize
  simp only [htext, List.length_append, List.length_cons, List.length_drop] at hlength hsize
  simp only [List.nil_append, List.length_append, List.length_cons] at hx hover hshort
  omega

end found

/-- The contents of an element or a comment stay if no tag goes on into them and none begins
there. -/
theorem flattenTags_keeps_contents (hvoid : s.closeVoidTags.truthy = false) (hu : BracketsClose u)
    (hv : ∀ x y, v = x ++ '<' :: y → ['!', '-', '-'] <+: y) :
    ∃ a b, flattenTags s (u ++ (v ++ r)) = a ++ (v ++ b) ∧
      squeeze a = squeeze u ∧ squeeze b = squeeze r := by
  refine flattenTags_keeps_stretch hvoid fun m hm hstop hstart => ?_
  have hge : u.length ≤ m.start := by
    by_contra hlt
    have := hu.stop_le (List.toList_toArray ..) hm (by omega)
    omega
  -- such a tag would begin in the stretch, with the mark of a comment
  obtain ⟨x, y, rfl, hx⟩ := exists_bracket_of_mem_findAll (List.toList_toArray ..) hm hge hstart
  obtain ⟨z, rfl⟩ := hv x y rfl
  refine absurd ?_ (drop_ne_comment_of_mem_findAll hm (z ++ r))
  rw [← hx, ← List.append_assoc u, ← List.append_assoc u, List.append_assoc (u ++ x),
    List.drop_left]
  rfl

end Layout

end TemplateTidy
