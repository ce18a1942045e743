import TemplateTidy.Proofs.Layout.Tokens

/-! # Trimmed lines

The pattern of a line takes the blanks before it, the line as short as can be, and the blanks after
it up to the end of some line.  On tokens that have lines of their own it leaves the tokens, one on
a line, and an empty line if there was one before the first of them (`replaceAll_trim`). -/

namespace TemplateTidy.Layout

open Node Pattern Text

/-! ### The pattern of a line -/

def trimNode (tabs dot blanks : CharSet) : Node :=
  .seq (.anchor .lineStart) <| .seq (.rep (.one tabs) 0 none false) <|
    .seq (.group 1 (.rep (.one dot) 0 none true)) <| .seq (.rep (.one blanks) 0 none false)
      (.anchor .lineEnd)

def tabSet : CharSet := { items := [.range ' ' ' ', .range '\t' '\t'] }

def dotSet : CharSet := { negated := true, items := [.range '\n' '\n'] }

def gapSet : CharSet := { items := [.range '\n' '\n', .range ' ' ' ', .range '\t' '\t'] }

/-- The pattern of a line with the blanks around it. -/
abbrev trimPattern : Pattern := lineAndBlanksTree.pattern lines

theorem node_trimPattern : trimPattern.node = trimNode tabSet dotSet gapSet := rfl

theorem originFree_trimPattern : trimPattern.node.originFree = true := rfl

theorem trimEnds_eq_replaceAll (w : Nat) (l : Int) (text : List Char) :
    trimEnds (.standard w l) text =
    trimPattern.replaceAll (trimmed text.toArray (Region.ignoredSpans text.toArray) text.toArray)
      text.toArray := by
  have hsteps : trimSteps (Settings.standard w l).preserveBlankLines.truthy
      (Settings.standard w l).preserveLeadingSpace.truthy = [lineAndBlanks] := rfl
  simp only [trimEnds, hsteps, List.foldl_cons, List.foldl_nil]
  rw [lineAndBlanks_eq]

theorem holds_tabSet (c : Char) : tabSet.holds c = isTab c := by
  simp [tabSet, CharSet.holds, CharItem.holds_range_self, isTab, Bool.beq_comm]

theorem holds_dotSet (c : Char) : dotSet.holds c = (c != '\n') := by
  simp [dotSet, CharSet.holds, CharItem.holds_range_self, bne, Bool.beq_comm]

theorem holds_gapSet (c : Char) : gapSet.holds c = isGap c := by
  simp [gapSet, CharSet.holds, CharItem.holds_range_self, isTab, isGap, Bool.beq_comm]

variable {scene : Scene} {p : Point}

theorem points_lineEnd_of_rest {d : Char} {r : List Char}
    (hr : scene.rest p = d :: r) (hd : d ≠ '\n') :
    (Node.anchor .lineEnd).points scene false p = [] := by
  refine points_anchor_of_not ?_
  have hlt : p.pos < scene.text.size := by
    by_contra hge
    have : scene.rest p = [] := by simpa [Scene.rest] using hge
    rw [this] at hr
    cases hr
  simp only [Scene.holdsAt, scene.getElem?_pos, hr, Bool.or_eq_false_iff, beq_eq_false_iff_ne]
  exact ⟨hlt.ne, by simpa using hd⟩

/-- No line ends at a place before a character, if no line feed stands up to it. -/
theorem points_lineEnd_inside {u r : List Char} {c : Char} (hr : scene.rest p = u ++ c :: r)
    (hu : '\n' ∉ u ++ [c])
    {i : Nat} (hi : i ≤ u.length) : (Node.anchor .lineEnd).points scene false (p.move i) = [] := by
  obtain ⟨d, l, hd, hmem⟩ := exists_drop_eq_cons (r := r) (c := c) hi
  refine points_lineEnd_of_rest (by rw [Scene.rest_move, hr, hd]) ?_
  rintro rfl
  exact hu hmem

/-- What follows the blanks of a line: nothing, or a line feed and a line that is not empty. -/
def LineBreak (rest : List Char) : Prop :=
  rest = [] ∨ ∃ b c r, rest = '\n' :: (b ++ c :: r) ∧ (∀ d ∈ b, isTab d = true) ∧ isGap c = false

theorem holdsAt_lineEnd (hp : p.pos ≤ scene.text.size) (h : LineBreak (scene.rest p)) :
    scene.holdsAt .lineEnd p.pos = true := by
  simp only [Scene.holdsAt, scene.getElem?_pos, Bool.or_eq_true, beq_iff_eq]
  obtain h | ⟨b, c, r, h, -⟩ := h
  · exact .inl (hp.antisymm (by simpa [Scene.rest] using h))
  · exact .inr (by rw [h]; rfl)

/-- What a trimmed line looks like: blanks, the line, and blanks up to the end of a line. -/
structure LineCut (lead line gap rest : List Char) : Prop where
  tab_lead : ∀ c ∈ lead, isTab c = true
  stays : ∀ c ∈ (line ++ (gap ++ rest)).head?, isTab c = false
  feed : '\n' ∉ line
  firm : ∀ c ∈ line.getLast?, isGap c = false
  gap : ∀ c ∈ gap, isGap c = true
  ends : LineBreak rest

/-- In the blanks after a line feed, up to the next line, no other line ends. -/
theorem feed_not_mem_of_tabs {b : List Char} {c : Char} (hb : ∀ d ∈ b, isTab d = true)
    (hc : isGap c = false) : '\n' ∉ b ++ [c] := by
  intro h
  obtain h | h := List.mem_append.1 h
  · cases hb _ h
  · obtain rfl := List.mem_singleton.1 h
    cases hc

/-- From a line feed on, no blanks end at the end of a line. -/
theorem points_lineEnd_behind {b r : List Char} {c : Char}
    (hr : scene.rest p = '\n' :: (b ++ c :: r)) (hb : ∀ d ∈ b, isTab d = true)
    (hc : isGap c = false) {i : Nat} (hi : 0 < i) (hrun : i ≤ runLength gapSet (scene.rest p)) :
    (Node.anchor .lineEnd).points scene false (p.move i) = [] := by
  have hr' : scene.rest (p.move 1) = b ++ c :: r := by
    rw [Scene.rest_move, hr]
    rfl
  have hlt : runLength gapSet ('\n' :: b ++ c :: r) ≤ b.length + 1 :=
    runLength_le_of_stop (by rw [holds_gapSet, hc])
  rw [hr, ← List.cons_append] at hrun
  have hinside := points_lineEnd_inside hr' (feed_not_mem_of_tabs hb hc) (i := i - 1) (by omega)
  rwa [Point.move_move, Nat.add_sub_cancel' hi] at hinside

/-- Blanks are taken up to the end of a line that another line follows. -/
theorem first_gap {gap rest : List Char} (hp : p.pos ≤ scene.text.size)
    (hr : scene.rest p = gap ++ rest) (hgap : ∀ c ∈ gap, isGap c = true) (hrest : LineBreak rest) :
    (Node.seq (.rep (.one gapSet) 0 none false) (.anchor .lineEnd)).First scene p
      (p.move gap.length) := by
  have hr' : scene.rest (p.move gap.length) = rest := by
    rw [Scene.rest_move, hr, List.drop_left]
  have hrun : runLength gapSet (scene.rest p) = gap.length + runLength gapSet
      (scene.rest (p.move gap.length)) := by
    rw [hr', hr, runLength_append fun c hc => by rw [holds_gapSet, hgap c hc]]
  refine First.far_seq (Nat.zero_le _) (by omega) (fun j hj hle => ?_)
    (Sole.anchor (holdsAt_lineEnd ?_ ?_)).first
  · obtain ⟨i, rfl⟩ : ∃ i, j = gap.length + i := ⟨j - gap.length, by omega⟩
    rw [← Point.move_move]
    obtain rfl | ⟨b, c, r, rfl, hb, hc⟩ := hrest
    · rw [hr', show runLength gapSet [] = 0 from rfl] at hrun
      omega
    · exact points_lineEnd_behind hr' hb hc (by omega) (by omega)
  · have hsize := congrArg List.length hr
    simp only [Scene.rest, List.length_drop, Array.length_toList, List.length_append] at hsize
    rw [Point.move_pos]
    omega
  · rw [hr']
    exact hrest

/-- The preferred match of a line takes the blanks before it, the line, and the blanks after it. -/
theorem first_trimNode {lead line gap rest : List Char} (h : LineCut lead line gap rest)
    (hp : p.pos ≤ scene.text.size) (hstart : scene.holdsAt .lineStart p.pos = true)
    (hr : scene.rest p = lead ++ (line ++ (gap ++ rest))) :
    (trimNode tabSet dotSet gapSet).First scene p
      ((((p.move lead.length).move line.length).mark 1
        ⟨p.pos + lead.length, p.pos + lead.length + line.length⟩).move gap.length) := by
  have hr₁ : scene.rest (p.move lead.length) = line ++ (gap ++ rest) := by
    rw [Scene.rest_move, hr, List.drop_left]
  have hr₂ : scene.rest ((p.move lead.length).move line.length) = gap ++ rest := by
    rw [Scene.rest_move, hr₁, List.drop_left]
  have hline : line.length ≤ runLength dotSet (scene.rest (p.move lead.length)) := by
    rw [hr₁, runLength_append fun c hc => ?_]
    · omega
    · have hne : c ≠ '\n' := fun he => h.feed (he ▸ hc)
      simp [holds_dotSet, hne]
  refine First.seq (Sole.anchor hstart).first (First.run_seq (Nat.zero_le _) hr
    (fun c hc => by rw [holds_tabSet, h.tab_lead c hc])
      (fun c hc => by rw [holds_tabSet, h.stays c hc])
    (First.near_group_seq hline (fun j hj => ?_) (first_gap ?_ hr₂ h.gap h.ends)))
  · -- a shorter line would have to end before its last character
    exact points_run_seq_inside hr₁ rfl hj (fun c hc => by rw [holds_gapSet, h.firm c hc])
        fun q d l hd hmem =>
      points_lineEnd_of_rest hd fun he => h.feed (he ▸ hmem)
  · have hsize := congrArg List.length hr
    simp only [Scene.rest, List.length_drop, Array.length_toList, List.length_append] at hsize
    simp only [Point.move_pos, Point.mark_pos]
    omega

/-- Before a line feed that a line follows, only the empty match is possible. -/
theorem pos_of_mem_points_feed {b r : List Char} {c : Char} {q : Point}
    (hr : scene.rest p = '\n' :: (b ++ c :: r)) (hb : ∀ d ∈ b, isTab d = true)
    (hc : isGap c = false)
    (hq : q ∈ (trimNode tabSet dotSet gapSet).points scene false p) : q.pos = p.pos := by
  have hnone : ∀ {cs : CharSet}, cs.holds '\n' = false → ∀ i ≤ runLength cs (scene.rest p),
      i = 0 := by
    intro cs hcs i hi
    rw [hr] at hi
    simpa [runLength, hcs] using hi
  simp only [trimNode, points_seq, List.mem_flatMap] at hq
  obtain ⟨m, hm, m₁, hm₁, m₂, hm₂, m₃, hm₃, hq⟩ := hq
  obtain rfl : m = p := by
    rw [points] at hm
    split at hm <;> simp_all
  obtain ⟨i, -, hi, rfl⟩ := mem_points_run.1 hm₁
  obtain rfl := hnone (by rw [holds_tabSet]; rfl) i hi
  rw [points_group] at hm₂
  obtain ⟨m₄, hm₄, rfl⟩ := List.mem_map.1 hm₂
  obtain ⟨i, -, hi, rfl⟩ := mem_points_run.1 hm₄
  obtain rfl := hnone (by rw [holds_dotSet]; rfl) i hi
  obtain ⟨i, -, hi, rfl⟩ := mem_points_run.1 hm₃
  obtain rfl | hpos := Nat.eq_zero_or_pos i
  · rw [points] at hq
    split at hq
    · rw [List.mem_singleton.1 hq]
      rfl
    · cases hq
  · have hrest : scene.rest (((m.move 0).move 0).mark 1 ⟨(m.move 0).pos, ((m.move 0).move 0).pos⟩) =
      _ := hr
    rw [points_lineEnd_behind hrest hb hc hpos hi] at hq
    cases hq

/-! ### Lines one after the other -/

section running

variable {f : Match → List Char} {text : Array Char} (hf : ∀ m, f m = m.capture text 1)
include hf

/-- A line is replaced by itself without the blanks around it. -/
theorem rewriteFrom_line {u lead line gap rest : List Char}
    (htext : text.toList = u ++ (lead ++ (line ++ (gap ++ rest))))
    (hstart : u = [] ∨ u.getLast? = some '\n') (h : LineCut lead line gap rest) :
    trimPattern.rewriteFrom f text u.length false =
      line ++ trimPattern.rewriteFrom f text (u ++ (lead ++ (line ++ gap))).length
        (lead ++ (line ++ gap)).isEmpty := by
  have hline : (trimPattern.scene text 0).holdsAt .lineStart (Point.at u.length).pos = true := by
    obtain rfl | hlast := hstart
    · rfl
    obtain ⟨v, rfl⟩ := List.getLast?_eq_some_iff.1 hlast
    have hfeed : text[v.length]? = some '\n' := getElem?_length (by simpa using htext)
    simp [Scene.holdsAt, Pattern.scene, Point.at, hfeed]
  have hfirst := first_trimNode h (length_le_size htext) hline (rest_at htext)
  rw [← node_trimPattern] at hfirst
  have htext' : text.toList = u ++ ((lead ++ (line ++ gap)) ++ rest) := by simpa using htext
  rw [rewriteFrom_piece originFree_trimPattern htext' hfirst rfl, hf]
  · congr 1
    exact capture_group (u := u ++ lead) (r := gap ++ rest) (by simpa using htext)
      (by rw [List.length_append]; rfl)
  · simp [Point.at]
    omega

omit hf in
theorem points_of_not_lineStart {u r : List Char} (htext : text.toList = u ++ r)
    (h : ¬(u = [] ∨ u.getLast? = some '\n')) : trimPattern.pointsAt text u.length = [] := by
  rw [pointsAt, node_trimPattern]
  refine points_seq_nil_left (points_anchor_of_not ?_)
  rw [not_or] at h
  obtain ⟨v, c, rfl⟩ : ∃ v c, u = v ++ [c] := ⟨_, _, (List.dropLast_append_getLast h.1).symm⟩
  have hc : text[v.length]? = some c := getElem?_length (by simpa using htext)
  have hne : c ≠ '\n' := by simpa using h.2
  simp [Scene.holdsAt, Pattern.scene, Point.at, hc, hne]

/-- A line feed before a line stays. -/
theorem rewriteFrom_feed {u b r : List Char} {c : Char}
    (htext : text.toList = u ++ ('\n' :: (b ++ c :: r)))
    (hb : ∀ d ∈ b, isTab d = true) (hc : isGap c = false) (advance : Bool) :
    trimPattern.rewriteFrom f text u.length advance =
      '\n' :: trimPattern.rewriteFrom f text (u ++ ['\n']).length false := by
  have hchar := getElem?_length htext
  have hskip : trimPattern.rewriteFrom f text u.length true =
      '\n' :: trimPattern.rewriteFrom f text (u ++ ['\n']).length false := by
    rw [rewriteFrom_skip originFree_trimPattern hchar fun q hq => ⟨rfl, ?_⟩]
    · simp
    · rw [pointsAt, node_trimPattern] at hq
      exact pos_of_mem_points_feed (rest_at htext) hb hc hq
  cases advance with
  | true => exact hskip
  | false =>
    by_cases hstart : u = [] ∨ u.getLast? = some '\n'
    · -- the empty line before the line feed is matched first
      have hcut : LineCut [] [] [] ('\n' :: (b ++ c :: r)) :=
        ⟨by simp, by simp [isTab], by simp, by simp, by simp, .inr ⟨b, c, r, rfl, hb, hc⟩⟩
      rw [rewriteFrom_line hf htext hstart hcut]
      simpa using hskip
    · rw [rewriteFrom_skip originFree_trimPattern hchar
        (by simp [points_of_not_lineStart htext hstart])]
      simp

/-- At the end nothing is left. -/
theorem rewriteFrom_nothing {u : List Char} (htext : text.toList = u) :
    trimPattern.rewriteFrom f text u.length false = [] := by
  have hsize : u.length = text.size := by rw [← htext, Array.length_toList]
  have hend : trimPattern.rewriteFrom f text u.length true = [] := by
    rw [hsize]
    refine rewriteFrom_end originFree_trimPattern fun q hq => ⟨rfl, ?_⟩
    have hmoves := (reach_of_mem_points hq).moves
    exact Nat.le_antisymm (hmoves.bound (le_refl text.size)) (hmoves.forward rfl)
  by_cases hstart : u = [] ∨ u.getLast? = some '\n'
  · have hcut : LineCut [] [] [] [] := ⟨by simp, by simp, by simp, by simp, by simp, .inl rfl⟩
    rw [rewriteFrom_line hf (by simpa using htext) hstart hcut]
    simpa using hend
  · rw [hsize]
    refine rewriteFrom_end originFree_trimPattern ?_
    rw [← hsize, points_of_not_lineStart (r := []) (by simpa using htext) hstart]
    simp

omit hf in
theorem exists_last_feed {g : List Char} (hg : ∀ c ∈ g, isGap c = true) (hfeed : '\n' ∈ g) :
    ∃ a b, g = a ++ '\n' :: b ∧ (∀ c ∈ a, isGap c = true) ∧ ∀ c ∈ b, isTab c = true := by
  induction g with
  | nil => cases hfeed
  | cons c g ih =>
    by_cases hin : '\n' ∈ g
    · obtain ⟨a, b, rfl, ha, hb⟩ := ih (fun d hd => hg d (List.mem_cons_of_mem _ hd)) hin
      exact ⟨c :: a, b, rfl, by simpa [hg c (by simp)] using ha, hb⟩
    · obtain rfl : '\n' = c := by simpa [hin] using hfeed
      exact ⟨[], g, rfl, by simp, fun d hd => isTab_of_isGap (hg d (by simp [hd])) fun he => hin (he ▸ hd)⟩

omit hf in
theorem lineBreak_token {b r : List Char} (t : Token) (hb : ∀ c ∈ b, isTab c = true) :
    LineBreak ('\n' :: (b ++ (t.chars ++ r))) := by
  obtain ⟨c, l, ht, hc⟩ := t.exists_cons
  exact .inr ⟨b, c, l ++ r, by simp [ht], hb, hc⟩

omit hf in
/-- A token in its place, with what follows its blanks. -/
theorem Token.lineCut {lead gap rest : List Char} (t : Token) (hlead : ∀ c ∈ lead, isTab c = true)
    (hgap : ∀ c ∈ gap, isGap c = true) (hrest : LineBreak rest) :
      LineCut lead t.chars gap rest where
  tab_lead := hlead
  stays c hc := by
    obtain ⟨d, r, ht, hd⟩ := t.exists_cons
    obtain rfl : d = c := by simpa [ht] using hc
    simp only [isGap, Bool.or_eq_false_iff] at hd
    exact hd.2
  feed := t.feed_not_mem
  firm := t.isGap_last
  gap := hgap
  ends := hrest

/-- Tokens with line feeds between them are trimmed to lines. -/
theorem rewriteFrom_trim : ∀ {ps : List (Token × List Char)} (u lead : List Char),
    text.toList = u ++ (lead ++ spellTokens ps) → (u = [] ∨ u.getLast? = some '\n') →
    (∀ c ∈ lead, isTab c = true) → ps ≠ [] → Gaps (fun _ _ => true) ps →
    trimPattern.rewriteFrom f text u.length false = joinWith ['\n'] (ps.map fun p => p.1.chars)
  | [], _, _, _, _, _, hne, _ => absurd rfl hne
  | [(t, g)], u, lead, htext, hstart, hlead, _, hgaps => by
      have htext : text.toList = u ++ (lead ++ (t.chars ++ (g ++ []))) := htext
      have hempty : (lead ++ (t.chars ++ g)).isEmpty = false := by simp [t.chars_ne_nil]
      rw [rewriteFrom_line hf htext hstart (t.lineCut hlead hgaps.1 (.inl rfl)), hempty,
        rewriteFrom_nothing hf (by simpa using htext)]
      simp [joinWith]
  | (t, g) :: (t', g') :: ps, u, lead, htext, hstart, hlead, _, hgaps => by
      obtain ⟨hg, hfeed, hgaps⟩ := hgaps
      obtain ⟨a, b, rfl, ha, hb⟩ := exists_last_feed hg (hfeed t' rfl rfl)
      have htext : text.toList =
          u ++ (lead ++ (t.chars ++ (a ++ ('\n' :: (b ++ spellTokens ((t', g') :: ps)))))) := by
        simpa [spellTokens] using htext
      have hempty : (lead ++ (t.chars ++ a)).isEmpty = false := by simp [t.chars_ne_nil]
      obtain ⟨c, r, hc, hgap⟩ := t'.exists_cons
      have hnext := rewriteFrom_trim (u ++ (lead ++ (t.chars ++ a)) ++ ['\n']) b
        (by simp [htext]) (by simp) hb
        (by simp) hgaps
      rw [rewriteFrom_line hf htext hstart (t.lineCut hlead ha (lineBreak_token t' hb)), hempty,
        rewriteFrom_feed hf (b := b) (c := c) (r := r ++ (g' ++ spellTokens ps))
          (by simp [htext, spellTokens, hc])
          hb hgap, hnext]
      simp [joinWith]

/-- Tokens with line feeds between them are trimmed to lines, and the blanks before them to one line
feed at most. -/
theorem replaceAll_trim {ps : List (Token × List Char)} {lead : List Char}
    (htext : text.toList = lead ++ spellTokens ps) (hlead : ∀ c ∈ lead, isGap c = true)
    (hne : ps ≠ []) (hgaps : Gaps (fun _ _ => true) ps) : trimPattern.replaceAll f text =
      (if '\n' ∈ lead then ['\n'] else []) ++ joinWith ['\n'] (ps.map fun p => p.1.chars) := by
  rw [replaceAll_eq_rewriteFrom]
  by_cases hfeed : '\n' ∈ lead
  · obtain ⟨a, b, rfl, ha, hb⟩ := exists_last_feed hlead hfeed
    obtain ⟨⟨t, g⟩, ps, rfl⟩ := List.exists_cons_of_ne_nil hne
    obtain ⟨c, r, hc, hgap⟩ := t.exists_cons
    have hcut : LineCut (a.takeWhile isTab) [] (a.dropWhile isTab)
        ('\n' :: (b ++ spellTokens ((t, g) :: ps))) := by
      refine ⟨fun d hd => List.mem_takeWhile_imp hd, fun d hd => ?_, by simp, by simp,
        fun d hd => ha d ((List.dropWhile_suffix _).subset hd), lineBreak_token t hb⟩
      cases hdrop : a.dropWhile isTab with
      | nil =>
        obtain rfl : '\n' = d := by simpa [hdrop] using hd
        rfl
      | cons e l =>
        obtain rfl : e = d := by simpa [hdrop] using hd
        have := List.head?_dropWhile_not isTab a
        simpa [hdrop] using this
    have hblank := rewriteFrom_line hf (u := []) (by
      rw [List.nil_append, List.nil_append, ← List.append_assoc, List.takeWhile_append_dropWhile,
        htext]
      simp) (.inl rfl) hcut
    rw [List.nil_append, List.nil_append, List.nil_append,
      List.takeWhile_append_dropWhile] at hblank
    have hnext := rewriteFrom_trim hf (a ++ ['\n']) b (by simp [htext]) (by simp) hb hne hgaps
    rw [if_pos hfeed, ← hnext]
    refine hblank.trans ?_
    rw [rewriteFrom_feed hf (b := b) (c := c) (r := r ++ (g ++ spellTokens ps))
      (by simp [htext, spellTokens, hc]) hb
      hgap]
    rfl
  · have htabs : ∀ c ∈ lead, isTab c = true := fun c hc => isTab_of_isGap (hlead c hc) fun he =>
      hfeed (he ▸ hc)
    rw [if_neg hfeed, List.nil_append]
    exact rewriteFrom_trim hf [] lead (by simpa using htext) (.inl rfl) htabs hne hgaps

end running

end TemplateTidy.Layout
