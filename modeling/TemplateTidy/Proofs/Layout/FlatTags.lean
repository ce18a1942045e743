import TemplateTidy.Proofs.Layout.BrokenLines

/-! # Flat tags

A tag is put on one line with its attributes.  One without attributes is replaced by itself
(`rewriteFrom_flat`), so a document of such tags stays as it is (`rewriteFrom_flat_spell`). -/

namespace TemplateTidy.Layout

open Node Pattern

/-! ### The pattern of a tag -/

/-- The parts of a tag: brackets, name, attributes. -/
def flatNode (mark attributes : Node) (names : CharSet) : Node :=
  .seq (.group 1 (.seq (.one (signSet '<')) (.seq (.rep (.one (signSet '/')) 0 (some 1) false)
    (.rep mark 0 (some 1) false)))) <|
  .seq (.group 2 (.seq (.rep (.one names) 1 none false) (.anchor (.wordEdge false true)))) <|
  .seq (.rep attributes 0 (some 1) false) <|
  .seq (.rep (.one spaceSet) 0 none true) <|
  .group 4 (.seq (.rep (.one (signSet '/')) 0 (some 1) false) (.one (signSet '>')))

def markNode : Node :=
  .seq (.one (signSet '!')) (.look false false (.seq (.one (signSet '-')) (.one (signSet '-'))))

def nameSet : CharSet :=
  { items := [.named .space true, .range '>' '>', .range '!' '!', .range '[' '['], negated := true,
    folding := .simple }

def attributesNode : Node :=
  .group 3 (.rep (.seq (.rep (.one spaceSet) 0 none true) (choice (flatPieces.nodes looseLines 3)))
    1 none false)

def tagParts : Node := flatNode markNode attributesNode nameSet

abbrev flatPattern : Pattern := tagTree.pattern looseLines

/-- What evaluation tells of the pattern of a tag. -/
theorem flat_check : flatPattern.node = tagParts ∧
    (tagParts.originFree && tagParts.solid && tagParts.begins (· == '<')) = true ∧
    (lineNames.all fun n => n.toList.all nameSet.holds && markNode.walkOver [n.toList.headD ' '] ==
      [] && Text.lower n.toList == n.toList && Markup.tagNames.contains n) = true ∧
    nameSet.holds '>' = false ∧ attributesNode.walkOver ['>'] = [] := by
  decide +kernel

theorem node_flatPattern : flatPattern.node = tagParts := flat_check.1

theorem startsTag_flat : flatPattern.StartsTag := .of_check node_flatPattern flat_check.2.1

variable {scene : Scene} {p : Point}

/-- The slash of a closing tag is taken, and none is where there is none. -/
theorem first_slash {closing : Bool} {r : List Char}
    (hrest : scene.rest p = (if closing then ['/'] else []) ++ r)
    (hr : closing = false → ∀ c ∈ r.head?, c ≠ '/') :
    (Node.rep (.one (signSet '/')) 0 (some 1) false).First scene p
      (p.move (if closing then 1 else 0)) := by
  rw [First, points_optional]
  cases closing with
  | true =>
    have hrest : scene.rest p = '/' :: r := hrest
    have hany : ('/' :: r).head?.any (signSet '/').holds = true := signSet_self (by decide)
    rw [hrest, hany]
    rfl
  | false =>
    have hrest : scene.rest p = r := hrest
    have hany : r.head?.any (signSet '/').holds = false := by
      cases hh : r.head? with
      | none => rfl
      | some c => exact signSet_of_ne (by decide) (hr rfl c hh)
    rw [hrest, hany]
    rfl

section parts

variable {mark attributes : Node} {names : CharSet} {name r : List Char} {closing : Bool}

theorem first_bracket (hrest : scene.rest p = bracket closing ++ (name ++ r)) (hne : name ≠ [])
    (hsmall : ∀ c ∈ name, isSmall c = true) (hmark : mark.walkOver [name.headD ' '] = []) :
    (Node.group 1 (.seq (.one (signSet '<')) (.seq (.rep (.one (signSet '/')) 0 (some 1) false)
      (.rep mark 0 (some 1) false)))).First scene p
      ((p.move (bracket closing).length).mark 1 ⟨p.pos, p.pos + (bracket closing).length⟩) := by
  obtain ⟨c, l, rfl⟩ := List.exists_cons_of_ne_nil hne
  have hless : scene.rest p = '<' :: ((if closing then ['/'] else []) ++ (c :: l ++ r)) := by
    rw [hrest]
    cases closing <;> rfl
  have hr₁ : scene.rest (p.move 1) = (if closing then ['/'] else []) ++ (c :: l ++ r) := by
    rw [Scene.rest_move, hless]
    rfl
  have hr₂ : scene.rest (p.move (bracket closing).length) = c :: l ++ r := by
    rw [Scene.rest_move, hrest, List.drop_left]
  have hmove : (p.move 1).move (if closing then 1 else 0) = p.move (bracket closing).length := by
    cases closing <;> rfl
  refine First.group (q := p.move (bracket closing).length) (First.seq
    (Sole.one hless (signSet_self (by decide))).first
      (First.seq (first_slash hr₁ fun _ d hd => ?_) ?_))
  · obtain rfl : c = d := by simpa using hd
    rintro rfl
    cases hsmall '/' (by simp)
  · rw [hmove]
    exact First.of_points (points_rep_of_nil (points_eq_nil fun q =>
      not_reach_of_walkOver [c] (l ++ r) hr₂ hmark))

theorem first_name (hrest : scene.rest p = name ++ '>' :: r) (hne : name ≠ [])
    (hsmall : ∀ c ∈ name, isSmall c = true)
    (hnames : ∀ c ∈ name, names.holds c = true) (hbracket : names.holds '>' = false) :
    (Node.group 2 (.seq (.rep (.one names) 1 none false) (.anchor (.wordEdge false true)))).First
      scene p
      ((p.move name.length).mark 2 ⟨p.pos, p.pos + name.length⟩) := by
  refine First.group (q := p.move name.length)
    (First.run_seq (List.length_pos_iff.2 hne) hrest hnames ?_ ?_)
  · simpa using hbracket
  · exact (Sole.anchor ((edge_after_name hrest List.prefix_rfl hne hsmall (by decide)).2 rfl)).first

theorem first_end (hrest : scene.rest p = '>' :: r) (hattributes : attributes.walkOver ['>'] = []) :
    (Node.seq (.rep attributes 0 (some 1) false) <| .seq (.rep (.one spaceSet) 0 none true) <|
      .group 4 (.seq (.rep (.one (signSet '/')) 0 (some 1) false) (.one (signSet '>')))).First scene
        p
      ((p.move 1).mark 4 ⟨p.pos, p.pos + 1⟩) := by
  refine First.seq (First.of_points (points_rep_of_nil (points_eq_nil fun q =>
    not_reach_of_walkOver ['>'] r hrest hattributes))) ?_
  refine First.seq (First.of_points (points_rep_of_nil (points_one_of_not fun d hd => ?_))) ?_
  · obtain rfl : '>' = d := by simpa [hrest] using hd
    rw [holds_spaceSet]
    decide
  refine First.group (q := p.move 1) (First.seq (m := p) ?_
    (Sole.one hrest (signSet_self (by decide))).first)
  have hnone : ∀ c ∈ ('>' :: r).head?, c ≠ '/' := by simp
  exact @first_slash _ _ false _ hrest fun _ => hnone

/-- A tag without attributes is taken with its brackets and its name. -/
theorem first_flatNode (hrest : scene.rest p = bracket closing ++ (name ++ '>' :: r))
    (hne : name ≠ []) (hsmall : ∀ c ∈ name, isSmall c = true)
    (hnames : ∀ c ∈ name, names.holds c = true) (hbracket : names.holds '>' = false)
    (hmark : mark.walkOver [name.headD ' '] = []) (hattributes : attributes.walkOver ['>'] = []) :
    ∃ q, (flatNode mark attributes names).First scene p q ∧ q.start = p.start ∧
      q.pos = p.pos + (bracket closing).length + name.length + 1 ∧
      q.group? 1 = some ⟨p.pos, p.pos + (bracket closing).length⟩ ∧
      q.group? 2 = some ⟨p.pos + (bracket closing).length, p.pos + (bracket closing).length +
        name.length⟩ ∧
      q.group? 3 = p.group? 3 ∧
      q.group? 4 = some ⟨p.pos + (bracket closing).length + name.length,
        p.pos + (bracket closing).length + name.length + 1⟩ := by
  let m := (p.move (bracket closing).length).mark 1 ⟨p.pos, p.pos + (bracket closing).length⟩
  have hr₁ : scene.rest m = name ++ '>' :: r := by
    rw [Scene.rest_mark, Scene.rest_move, hrest, List.drop_left]
  have hr₂ : scene.rest ((m.move name.length).mark 2 ⟨m.pos, m.pos + name.length⟩) = '>' :: r := by
    rw [Scene.rest_mark, Scene.rest_move, hr₁, List.drop_left]
  exact ⟨_, First.seq (first_bracket hrest hne hsmall hmark)
    (First.seq (first_name hr₁ hne hsmall hnames hbracket)
    (first_end hr₂ hattributes)), rfl, rfl, rfl, rfl, rfl, rfl⟩

end parts

/-! ### Tags without attributes -/

variable {f : Match → List Char} {text : Array Char}
  (hf : ∀ m, f m = m.capture text 1 ++ tagName false (m.capture text 2) ++ flatAttributes
    (m.capture text 3) ++
    closingBracket false (tagName false (m.capture text 2)) (m.capture text 4))
include hf

/-- A tag without attributes is flat. -/
theorem rewriteFrom_flat {n : LineName} {closing : Bool} {u r : List Char}
    (htext : text.toList = u ++ (n.tag closing ++ r)) :
    flatPattern.rewriteFrom f text u.length false =
      n.tag closing ++ flatPattern.rewriteFrom f text (u ++ n.tag closing).length false := by
  obtain ⟨-, -, hnames, hbracket, hattributes⟩ := flat_check
  have hchecks := List.all_eq_true.1 hnames n.name n.known
  simp only [Bool.and_eq_true, List.all_eq_true, beq_iff_eq] at hchecks
  obtain ⟨⟨⟨hholds, hmark⟩, hlower⟩, hknown⟩ := hchecks
  have hparts : text.toList = u ++ (bracket closing ++ (n.chars ++ '>' :: r)) := by
    rw [htext, LineName.tag_eq]
    simp
  obtain ⟨q, hfirst, hstart, hpos, hq₁, hq₂, hq₃, hq₄⟩ :=
    first_flatNode (rest_at hparts) n.chars_ne_nil n.small
    hholds hbracket hmark hattributes
  rw [← tagParts, ← node_flatPattern] at hfirst
  have h₁ : (Match.ofPoint q).capture text 1 = bracket closing := capture_group hparts hq₁
  have h₂ : (Match.ofPoint q).capture text 2 = n.chars :=
    capture_group (u := u ++ bracket closing) (r := '>' :: r) (by simp [hparts])
      (by rw [hq₂, List.length_append]; rfl)
  have h₃ : (Match.ofPoint q).capture text 3 = [] := by
    have hnone : (Match.ofPoint q).group? 3 = none := hq₃
    rw [Match.capture, Match.capture?, hnone]
    rfl
  have h₄ : (Match.ofPoint q).capture text 4 = ['>'] :=
    capture_group (u := u ++ bracket closing ++ n.chars) (r := r) (by simp [hparts])
      (by rw [hq₄, List.length_append, List.length_append]; rfl)
  have htag : tagName false n.chars = n.chars := by
    have hmem : n.name ∈ Markup.tagNames := by simpa using hknown
    simp [tagName, LineName.chars, hlower, hmem]
  have hend : q.pos = (u ++ n.tag closing).length := by
    rw [hpos, LineName.tag_eq]
    simp [Point.at]
    omega
  rw [rewriteFrom_piece startsTag_flat.originFree htext hfirst hstart hend, n.isEmpty_tag, hf, h₁,
    h₂, h₃, h₄, htag, LineName.tag_eq]
  simp [flatAttributes, closingBracket]

/-- Where each tag is flat, nothing changes. -/
theorem rewriteFrom_flat_spell : ∀ {ps : List (Token × List Char)} (u g : List Char),
    text.toList = (u ++ g) ++ spellTokens ps → (∀ c ∈ g, isGap c = true) →
    Gaps (fun _ _ => false) ps →
    flatPattern.rewriteFrom f text u.length false = g ++ spellTokens ps := by
  intro ps
  induction ps with
  | nil =>
    intro u g htext hg _
    exact rewriteFrom_last_gap startsTag_flat htext hg
  | cons p ps ih =>
    obtain ⟨t, k⟩ := p
    intro u g htext hg hgaps
    obtain ⟨hk, -, hgaps⟩ := hgaps
    have hstep : flatPattern.rewriteFrom f text (u ++ g).length false =
        t.chars ++ flatPattern.rewriteFrom f text ((u ++ g) ++ t.chars).length false := by
      cases t with
      | text t => exact startsTag_flat.rewriteFrom_copy (r := k ++ spellTokens ps) htext t.less_not_mem
      | tag closing n => exact rewriteFrom_flat hf htext
    rw [rewriteFrom_gap startsTag_flat htext hg, hstep,
      ih ((u ++ g) ++ t.chars) k (by simp [htext, spellTokens]) hk hgaps]
    rfl

end TemplateTidy.Layout
