import TemplateTidy.Proofs.Layout.LineOutlooks

/-! # What a line does to the indentation

One lemma for each kind of line: how it stands to the regions, how it moves the level, and what
`indentLine` makes of it. -/

namespace TemplateTidy.Layout

open Text Pattern

theorem afterLast_suffix (p : Pattern) (text : Array Char) :
    (Region.afterLast p text).toList <:+ text.toList := by
  unfold Region.afterLast
  split
  · rw [Array.toList_extract, List.extract_eq_take_drop, List.take_of_length_le (by simp)]
    exact List.drop_suffix _ _
  · exact List.suffix_rfl

/-- How a line stands that opens or closes no region. -/
def Standing.quiet : Standing :=
  ⟨false, false, false⟩

/-- A line stands quiet if none of the marks of regions occurs in an end of it. -/
theorem standing_of_not_reach {line : List Char} (h : ∀ n ∈ standingNodes, ∀ scene : Scene,
    scene.text.toList <:+ line → ∀ p q, ¬n.Reach scene false p q) :
    Standing.of line.toArray = .quiet := by
  have hnone : ∀ p q : Pattern, p.node ∈ standingNodes →
      p.occurs (Region.afterLast q line.toArray) = false := fun p q hp =>
    Pattern.occurs_eq_false fun scene hscene _ _ _ =>
      h _ hp scene (by simpa [hscene] using afterLast_suffix q line.toArray) _ _
  simp only [Standing.of, Standing.quiet, Region.opensOn, Region.closesOn, Region.closesSafelyOn]
  rw [hnone Region.opening _ (by rw [Region.opening_eq]; simp [standingNodes, regionNode]),
    hnone Region.closing _ (by rw [Region.closing_eq]; simp [standingNodes, regionNode]),
    hnone Region.safeClosing _ (by rw [Region.safeClosing_eq]; simp [standingNodes, regionNode])]

section outlook

variable {o : Outlook} {line : List Char} (hline : o.Holds line)
include hline

theorem standing_of_quiet (ho : o ∈ quietOutlooks) : Standing.of line.toArray = .quiet := by
  have hex := List.all_eq_true.1 (List.all_eq_true.1 standing_excluded o ho)
  exact standing_of_not_reach fun n hn scene hscene p q => hline.not_reach (hex n hn) hscene

theorem occurs_of_excludes {p : Pattern} (hp : o.excludes p.node = true) :
    p.occurs line.toArray = false :=
  Pattern.occurs_eq_false_of_excludes hline hp (by simp)

/-- A line outside of regions holds no region and no closed element. -/
theorem plain_of_outer (ho : o ∈ outerOutlooks) : regionLine.occurs line.toArray = false ∧
    ((closedLineTree (tagWords [])).pattern looseLines).occurs line.toArray = false := by
  have hex := List.all_eq_true.1 (List.all_eq_true.1 plain_excluded o ho)
  rw [regionLine_eq]
  exact ⟨occurs_of_excludes hline (hex _ (by simp [plainNodes, lineNode])),
    occurs_of_excludes hline (hex _ (by simp [plainNodes, lineNode]))⟩

theorem not_closing (ho : o ∈ [textOutlook, openOutlook] ++
    (dividingHead :: openingHeads).map percentOutlook) :
    ((closingLineTree (tagWords [])).pattern looseLines).occurs line.toArray = false :=
  occurs_of_excludes hline (List.all_eq_true.1 moves_excluded.1 o ho)

theorem not_closed (ho : o ∈ closeOutlook :: closingHeads.map percentOutlook) :
    ((closedAtEndTree (tagWords [])).pattern looseLines).occurs line.toArray = false ∧
    ((closedAtEndEscapedTree (tagWords [])).pattern looseLines).occurs line.toArray = false ∧
    ((closedAtStartTree (tagWords [])).pattern looseLines).occurs line.toArray = false ∧
    ((attributedAtStartTree (tagWords [])).pattern looseLines).occurs line.toArray = false := by
  have hex := List.all_eq_true.1 (List.all_eq_true.1 moves_excluded.2.1 o ho)
  refine ⟨?_, ?_, ?_, ?_⟩ <;>
    exact occurs_of_excludes hline (hex _ (by simp [closedNodes, lineNode]))

theorem not_dividing
    (ho : o ∈ [textOutlook, openOutlook, closeOutlook] ++ openingHeads.map percentOutlook) :
    dividerLine.occurs line.toArray = false ∧ setStart.occurs line.toArray = false := by
  have hex := Bool.and_eq_true_iff.1 (List.all_eq_true.1 moves_excluded.2.2.1 o ho)
  rw [dividerLine_eq, setStart_eq]
  exact ⟨occurs_of_excludes hline hex.1, occurs_of_excludes hline hex.2⟩

theorem not_opening (ho : o ∈ [textOutlook, closeOutlook]) :
    ((openingLineTree (tagWords []) (blockNames indentBlockWords [] [])).pattern looseLines).occurs
      line.toArray = false :=
  occurs_of_excludes hline (List.all_eq_true.1 moves_excluded.2.2.2 o ho)

end outlook

/-! ### Moves -/

section moves

variable {s : Settings} {o : Outlook} {line : List Char}

/-- A line without markup stays at the level, unless it is blank. -/
theorem moveOf_plain (hs : s.preserveLeadingSpace.truthy = false) (hline : textOutlook.Holds line) :
    moveOf s plainPatterns false false false .quiet line.toArray =
      .ok (if line.all isBlank then .keep else .stay) := by
  obtain ⟨hregion, hclosed⟩ := plain_of_outer hline (by simp [outerOutlooks])
  have hclosing := not_closing hline (by simp)
  obtain ⟨hdivider, hset⟩ := not_dividing hline (by simp)
  have hopening := not_opening hline (by simp)
  cases hblank : line.all isBlank <;>
    simp [moveOf, closesLevel, plainPatterns, Standing.quiet, bind, Except.bind, pure, Except.pure,
      hregion, hclosed, hclosing, hdivider, hset, hopening, hblank, hs]

theorem moveOf_enter (hline : o.Holds line)
    (ho : o ∈ openOutlook :: openingHeads.map percentOutlook)
    (hopening : ((openingLineTree (tagWords []) (blockNames indentBlockWords [] [])).pattern
      looseLines).occurs
      line.toArray = true) :
    moveOf s plainPatterns false false false .quiet line.toArray = .ok .enter := by
  obtain ⟨hregion, hclosed⟩ := plain_of_outer hline (by grind [outerOutlooks])
  have hclosing := not_closing hline (by grind)
  obtain ⟨hdivider, hset⟩ := not_dividing hline (by grind)
  simp [moveOf, closesLevel, plainPatterns, Standing.quiet, bind, Except.bind, pure, Except.pure,
    hregion, hclosed, hclosing, hdivider, hset, hopening]

theorem moveOf_leave (hline : o.Holds line)
    (ho : o ∈ closeOutlook :: closingHeads.map percentOutlook)
    (hclosing : ((closingLineTree (tagWords [])).pattern looseLines).occurs line.toArray = true) :
    moveOf s plainPatterns false false false .quiet line.toArray = .ok .leave := by
  obtain ⟨hregion, hclosed⟩ := plain_of_outer hline (by grind [outerOutlooks])
  obtain ⟨hend, hescaped, hstart, hattributed⟩ := not_closed hline ho
  simp [moveOf, closesLevel, plainPatterns, Standing.quiet, bind, Except.bind, pure, Except.pure,
    hregion, hclosed, hclosing, hend, hescaped, hstart, hattributed]

theorem moveOf_divide (hline : (percentOutlook dividingHead).Holds line)
    (hdivider : dividerLine.occurs line.toArray = true) :
    moveOf s plainPatterns false false false .quiet line.toArray = .ok .divide := by
  obtain ⟨hregion, hclosed⟩ := plain_of_outer hline (by simp [outerOutlooks])
  have hclosing := not_closing hline (by simp)
  simp [moveOf, closesLevel, plainPatterns, Standing.quiet, bind, Except.bind, pure, Except.pure,
    hregion, hclosed, hclosing, hdivider]

/-- The last line of a region may be indented. -/
theorem moveOf_lastOfRegion (hline : closeOutlook.Holds line) :
    moveOf s plainPatterns false false false ⟨false, true, true⟩ line.toArray = .ok .stay := by
  obtain ⟨hregion, hclosed⟩ := plain_of_outer hline (by simp [outerOutlooks])
  obtain ⟨hdivider, hset⟩ := not_dividing hline (by simp)
  have hopening := not_opening hline (by simp)
  simp [moveOf, closesLevel, plainPatterns, bind, Except.bind, pure, Except.pure, hregion, hclosed,
    hdivider, hset, hopening]

/-- Inside of a region a line is kept, but for the one that opens it. -/
theorem moveOf_inRegion {inSet : Bool} (first : Bool) (standing : Standing) :
    moveOf s plainPatterns inSet true first standing line.toArray =
    .ok (if first then .stay else .keep) := by
  cases first <;>
    simp [moveOf, closesLevel, plainPatterns, bind, Except.bind, pure, Except.pure]

end moves

/-! ### Tags that the patterns find -/

theorem opening_percent {head : String} (hh : head ∈ openingHeads) {line beyond : List Char}
    (hline : line = '{' :: '%' :: ' ' :: (head.toList ++ beyond)) :
    ((openingLineTree (tagWords []) (blockNames indentBlockWords [] [])).pattern looseLines).occurs
      line.toArray = true := by
  refine Pattern.occurs_of_sure (percentOutlook head).start beyond hline ?_
  simpa [openingNode, lineNode] using List.all_eq_true.1 percent_found.1 head hh

theorem closing_percent {head : String} (hh : head ∈ closingHeads) {line : List Char}
    (hline : line = '{' :: '%' :: ' ' :: head.toList) :
    ((closingLineTree (tagWords [])).pattern looseLines).occurs line.toArray = true := by
  refine Pattern.occurs_of_sure (percentOutlook head).start [] (by simp [hline, percentOutlook]) ?_
  simpa [closingNode, lineNode] using List.all_eq_true.1 percent_found.2.1 head hh

theorem dividing_percent {line : List Char}
    (hline : line = '{' :: '%' :: ' ' :: dividingHead.toList) :
    dividerLine.occurs line.toArray = true := by
  rw [dividerLine_eq]
  exact Pattern.occurs_of_sure (percentOutlook dividingHead).start []
    (by simp [hline, percentOutlook]) percent_found.2.2

section elements

variable {n : String} (hn : n ∈ Markup.tagNames)
include hn

omit hn in
theorem tagWords_nil : tagWords [] = Markup.tagNames.map (nameAtoms ·.toList) := by
  simp [tagWords]

/-- A known name and the edge after it, at a place where the tag with that name stands. -/
theorem mem_points_tagName (blank : Bool) {flags : Flags} (hf : flags.folding = .simple)
    (k : Nat) {scene : Scene}
    {p : Point} {r : List Char} (hrest : scene.rest p = n.toList ++ '>' :: r) :
    p.move n.toList.length ∈
      (Node.seq (.choice ((words blank (tagWords [])).nodes flags k))
        (.anchor (.wordEdge false true))).points
        scene false p := by
  have hnames := names_small (List.Subset.refl Markup.tagNames)
  obtain ⟨hpoint, hedge⟩ := Node.mem_points_names hnames (isSmall_tagName hn) isWord_closing hrest
    (List.mem_map_of_mem hn)
  rw [tagWords_nil, choice_words blank hf k (List.Subset.refl _) (by simp [Markup.tagNames]),
    Node.points_seq, List.mem_flatMap]
  exact ⟨_, hpoint, by simp [Node.points_anchor_of_holds hedge]⟩

theorem opening_element :
    ((openingLineTree (tagWords []) (blockNames indentBlockWords [] [])).pattern looseLines).occurs
      (openTag n.toList).toArray = true := by
  -- a line that begins with the tag of an element is the second way of writing an opening line
  obtain ⟨a, k, hnode⟩ : ∃ a k, openingNode =
      .seq (.anchor .lineStart) (.alt a (.seq (.one (.single '<' .simple))
        (.seq (.choice ((words true (tagWords [])).nodes looseLines k))
            (.anchor (.wordEdge false true))))) :=
    ⟨_, _, rfl⟩
  refine Pattern.occurs_of_mem_points (i := 0) (Nat.zero_le _)
    (q := (Point.at 0).move (1 + n.toList.length)) ?_
  show _ ∈ openingNode.points _ false _
  rw [hnode, Node.points_seq_singleton (Node.points_anchor_of_holds rfl), Node.points_alt,
    List.mem_append]
  refine .inr ?_
  rw [Node.points_seq_singleton (Node.points_one_of_holds (c := '<') rfl (by decide)),
    ← Point.move_move]
  exact mem_points_tagName hn true rfl k rfl

theorem closing_element :
    ((closingLineTree (tagWords [])).pattern looseLines).occurs (closeTag n.toList).toArray =
    true := by
  obtain ⟨a, b, k, hnode⟩ : ∃ a b k, closingNode =
      .alt a (.alt (.seq (.anchor .lineStart)
        (.seq (.one (.single '<' .simple)) (.seq (.one (.single '/' .simple))
        (.seq (.choice ((words true (tagWords [])).nodes looseLines k))
            (.anchor (.wordEdge false true)))))) b) :=
    ⟨_, _, _, rfl⟩
  refine Pattern.occurs_of_mem_points (i := 0) (Nat.zero_le _)
    (q := ((Point.at 0).move 2).move n.toList.length) ?_
  show _ ∈ closingNode.points _ false _
  rw [hnode, Node.points_alt, Node.points_alt, List.mem_append, List.mem_append]
  refine .inr (.inl ?_)
  rw [Node.points_seq_singleton (Node.points_anchor_of_holds rfl),
    Node.points_seq_singleton (Node.points_one_of_holds (c := '<') rfl (by decide)),
    Node.points_seq_singleton (Node.points_one_of_holds (c := '/') rfl (by decide)),
    Point.move_move]
  exact mem_points_tagName hn true rfl k rfl

omit hn in
/-- A tag with attributes has a known name after its bracket, and an attribute behind that. -/
theorem exists_name_of_reach {scene : Scene} {p q : Point}
    (h : ((attributedTagTree (tagWords [])).pattern loose).node.Reach scene false p q) :
    ∃ m m' q' r k, scene.rest m = '<' :: r ∧
      (Node.choice ((Markup.tagNames.map String.toList).map .named)).Reach scene false
        (m.move 1) m' ∧
      scene.holdsAt (.wordEdge false true) m'.pos = true ∧
      (Node.rep (.choice (attributePieces.nodes loose k)) 1 none true).Reach scene false
        (m'.mark 2 ⟨m.pos, m'.pos⟩) q' := by
  obtain ⟨a, b, j, k, k', hnode⟩ : ∃ a b j k k',
      ((attributedTagTree (tagWords [])).pattern loose).node =
      .seq a (.seq (.group 2 (.seq (.one (.single '<' .simple))
        (.seq (.choice ((words false (tagWords [])).nodes loose k))
          (.anchor (.wordEdge false true)))))
        (.seq (.group j (.rep (.choice (attributePieces.nodes loose k')) 1 none true)) b)) :=
    ⟨_, _, _, _, _, rfl⟩
  rw [hnode, tagWords_nil, choice_words false rfl k (List.Subset.refl _)
    (by simp [Markup.tagNames])] at h
  obtain ⟨m₁, -, m₄, ⟨m₃, ⟨m₂, hopen, m₃', hchoice, hedge, rfl⟩, rfl⟩, m₅, ⟨m₆, hpieces, -⟩, -⟩ := h
  obtain ⟨c, r, hr, hc, rfl⟩ := Node.reach_one.1 hopen
  obtain rfl := eq_of_holds_single (by decide) hc
  exact ⟨m₁, m₃, m₆, r, k', hr, hchoice, hedge, hpieces⟩

omit hn in
/-- No name begins with a sign, so a bracket before one has no attributes. -/
theorem no_attributes_of_sign {pad r : List Char} {c : Char} (hpad : '<' ∉ pad) (hr : '<' ∉ c :: r)
    (hcap : isUncapped c = true) (hword : isWord c = false) :
    ((attributedTagTree (tagWords [])).pattern loose).findAll (pad ++ '<' :: c :: r).toArray =
    [] := by
  have hnames := names_small (List.Subset.refl Markup.tagNames)
  refine Pattern.findAll_eq_nil fun scene hscene i q _ hreach => ?_
  obtain ⟨m, m', -, r', -, hrest, hchoice, hedge, -⟩ := exists_name_of_reach hreach
  obtain rfl := rest_of_bracket hr pad hpad (by simp [hscene]) hrest
  have hbehind : scene.rest (m.move 1) = [] ++ c :: r := by
    rw [scene.rest_move, hrest]
    rfl
  obtain ⟨hmem, -⟩ := Node.eq_of_reach_names hnames (by simp) hcap hword hbehind hchoice hedge
  exact (hnames [] hmem).1 rfl

/-- A tag without attributes has none to spread. -/
theorem no_attributes (pad line : List Char) (hpad : '<' ∉ pad)
    (hline : line = openTag n.toList ∨ line = closeTag n.toList) :
    ((attributedTagTree (tagWords [])).pattern loose).findAll (pad ++ line ++ ['\n']).toArray =
    [] := by
  have hfree : '<' ∉ n.toList := bracket_not_mem_name hn (by decide)
  obtain rfl | rfl := hline
  · have hu : '<' ∉ n.toList ++ '>' :: ['\n'] := by simpa using hfree
    refine Pattern.findAll_eq_nil fun scene hscene i q _ hreach => ?_
    obtain ⟨m, m', q', r, k, hr, hchoice, hedge, hpieces⟩ := exists_name_of_reach hreach
    obtain rfl := rest_of_bracket hu pad hpad (by simp [hscene, openTag]) hr
    have hrest : scene.rest (m.move 1) = n.toList ++ '>' :: ['\n'] := by
      rw [scene.rest_move, hr]
      rfl
    obtain ⟨-, rfl⟩ := Node.eq_of_reach_names (names_small (List.Subset.refl Markup.tagNames))
      (isSmall_tagName hn)
      isUncapped_closing isWord_closing hrest hchoice hedge
    -- the name is followed by the closing bracket, which begins no attribute
    obtain ⟨j, hj, -, hiter⟩ := hpieces
    obtain ⟨j, rfl⟩ : ∃ i, j = i + 1 := ⟨j - 1, by have := hj le_rfl; omega⟩
    obtain ⟨m', hm, -⟩ := Iter.succ_iff.1 hiter
    refine Node.not_reach_of_walkOver ['>'] ['\n'] ?_ rfl hm
    have hdrop : scene.rest ((m.move 1).move n.toList.length) = ['>', '\n'] := by
      rw [scene.rest_move, hrest, List.drop_left]
    exact hdrop
  · have hu : '<' ∉ '/' :: (n.toList ++ ['>', '\n']) := by simpa using hfree
    simpa [closeTag] using no_attributes_of_sign hpad hu (by decide) (by decide)

end elements

/-! ### Scripts and styles -/

section raw

variable (n : RawName)

theorem RawName.mem_tagNames : n.name ∈ Markup.tagNames := by
  obtain h | h := n.known <;> simp [h, Markup.tagNames]

theorem afterLast_of_excludes {text : List Char} {p : Pattern}
    (hp : (exactOutlook text).excludes p.node = true) :
    Region.afterLast p text.toArray = text.toArray := by
  rw [Region.afterLast, Pattern.findAll_eq_nil_of_excludes (exactOutlook_holds text) hp (by simp)]
  rfl

theorem occurs_of_exact {text : List Char} {p : Pattern}
    (h : (p.node.sure text text).isEmpty = false) : p.occurs text.toArray = true :=
  Pattern.occurs_of_sure text [] (by simp) h

theorem standing_openRaw : Standing.of (openTag n.name.toList).toArray = ⟨true, false, false⟩ := by
  have hcheck := (Bool.and_eq_true_iff.1
    (List.all_eq_true.1 rawTags_check n.name (by simpa using n.known))).1
  simp only [Bool.and_eq_true, List.all_cons, List.all_nil, Bool.and_true,
    Bool.not_eq_true'] at hcheck
  obtain ⟨⟨hclosed, hclosing, hsafe⟩, hopening⟩ := hcheck
  have hfound : Region.opening.occurs (openTag n.name.toList).toArray = true := by
    rw [Region.opening_eq]
    exact occurs_of_exact hopening
  have hnone : ∀ p q : Pattern, (exactOutlook (openTag n.name.toList)).excludes p.node = true →
      p.occurs (Region.afterLast q (openTag n.name.toList).toArray) = false := fun p q hp =>
    Pattern.occurs_eq_false_of_excludes (exactOutlook_holds _) hp
      (by simpa using afterLast_suffix q (openTag n.name.toList).toArray)
  simp only [Standing.of, Region.opensOn, Region.closesOn, Region.closesSafelyOn]
  rw [hnone Region.closing _ (by rw [Region.closing_eq]; exact hclosing),
    hnone Region.safeClosing _ (by rw [Region.safeClosing_eq]; exact hsafe),
    afterLast_of_excludes (by rw [Region.closed_eq]; exact hclosed), hfound]

theorem standing_closeRaw : Standing.of (closeTag n.name.toList).toArray = ⟨false, true, true⟩ := by
  have hcheck := (Bool.and_eq_true_iff.1
    (List.all_eq_true.1 rawTags_check n.name (by simpa using n.known))).2
  simp only [Bool.and_eq_true, List.all_cons, List.all_nil, Bool.and_true,
    Bool.not_eq_true'] at hcheck
  obtain ⟨⟨⟨hinline, hignored, hopening⟩, hclosing⟩, hsafe⟩ := hcheck
  have hnone : Region.opening.occurs (Region.afterLast Region.closed
      (closeTag n.name.toList).toArray) = false :=
    Pattern.occurs_eq_false_of_excludes (exactOutlook_holds _)
      (by rw [Region.opening_eq]; exact hopening)
      (by simpa using afterLast_suffix Region.closed (closeTag n.name.toList).toArray)
  have hfound : Region.closing.occurs (closeTag n.name.toList).toArray = true := by
    rw [Region.closing_eq]
    exact occurs_of_exact hclosing
  have hfoundSafe : Region.safeClosing.occurs (closeTag n.name.toList).toArray = true := by
    rw [Region.safeClosing_eq]
    exact occurs_of_exact hsafe
  simp only [Standing.of, Region.opensOn, Region.closesOn, Region.closesSafelyOn]
  rw [hnone, afterLast_of_excludes (by rw [Region.inline_eq]; exact hinline),
    afterLast_of_excludes (by rw [Region.inlineOrIgnored_eq]; exact hignored), hfound, hfoundSafe]

end raw

/-! ### Indenting a line -/

/-- Outside of regions, at a level. -/
def outside (level : Nat) : Indentation :=
  { level }

/-- Inside of a region that was opened at a level. -/
def inside (level : Nat) : Indentation :=
  { level, inRegion := true, depth := 1 }

section indenting

variable {s : Settings} {level : Nat} {line : List Char}

/-- A line outside of regions that holds no attributes goes to where its move says. -/
theorem indentLine_quiet {move : Move} (hstanding : Standing.of line.toArray = .quiet)
    (hmove : moveOf s plainPatterns false false false .quiet line.toArray = .ok move)
    (hattributes : ((attributedTagTree (tagWords [])).pattern loose).findAll
      (placed s (move.lineLevel level) line ++ ['\n']).toArray = []) :
    indentLine s plainPatterns (outside level) line =
      .ok (placed s (move.lineLevel level) line ++ ['\n'],
        { level := move.nextLevel level, inSet := move.inSet false }) := by
  have htag : plainPatterns.attributedTag = .ok ((attributedTagTree (tagWords [])).pattern loose) :=
    rfl
  simp only [indentLine, hstanding, outside, Standing.quiet, Bool.false_and, Bool.false_or,
    Bool.false_eq_true, if_false] at hmove ⊢
  rw [hmove, htag]
  simp only [Outcome.ok_bind, Pattern.replaceAllM_of_findAll_eq_nil hattributes]
  rfl

theorem bracket_not_mem_placed (h : '<' ∉ line) (level : Option Nat) :
    '<' ∉ placed s level line := by
  cases level with
  | none => exact h
  | some n => simp [placed, indents, Settings.indent, h]

/-- A line without a bracket holds no attributes. -/
theorem indentLine_textual {move : Move} (hfree : '<' ∉ line)
    (hstanding : Standing.of line.toArray = .quiet)
    (hmove : moveOf s plainPatterns false false false .quiet line.toArray = .ok move) :
    indentLine s plainPatterns (outside level) line =
      .ok (placed s (move.lineLevel level) line ++ ['\n'],
        { level := move.nextLevel level, inSet := move.inSet false }) := by
  refine indentLine_quiet hstanding hmove ?_
  refine Pattern.findAll_eq_nil_of_needs (needs_attributedTagTree _) ?_
  simpa using bracket_not_mem_placed hfree _

/-- The tag of an element holds no attributes. -/
theorem indentLine_tag {n : String} (hn : n ∈ Markup.tagNames) {move : Move}
    (hline : line = openTag n.toList ∨ line = closeTag n.toList)
    (hstanding : Standing.of line.toArray = .quiet)
    (hmove : moveOf s plainPatterns false false false .quiet line.toArray = .ok move) :
    indentLine s plainPatterns (outside level) line =
      .ok (placed s (move.lineLevel level) line ++ ['\n'],
        { level := move.nextLevel level, inSet := move.inSet false }) := by
  refine indentLine_quiet hstanding hmove ?_
  cases move.lineLevel level with
  | none => exact no_attributes hn [] line List.not_mem_nil hline
  | some k => exact no_attributes hn (indents s k) line (by simp [indents, Settings.indent]) hline

theorem indentLine_plain (hs : s.preserveLeadingSpace.truthy = false)
    (hline : textOutlook.Holds line)
    (hfree : '<' ∉ line) : indentLine s plainPatterns (outside level) line =
      .ok (placed s (if line.all isBlank then none else some level) line ++ ['\n'],
      outside level) := by
  have hquiet := standing_of_quiet hline (by simp [quietOutlooks])
  have hmove : indentLine s plainPatterns (outside level) line = _ :=
    indentLine_textual hfree hquiet (moveOf_plain hs hline)
  cases hblank : line.all isBlank <;>
    simpa [hblank, Move.lineLevel, Move.nextLevel, Move.inSet, outside] using hmove

theorem indentLine_nil (hs : s.preserveLeadingSpace.truthy = false) :
    indentLine s plainPatterns (outside level) [] = .ok (['\n'], outside level) :=
  indentLine_plain hs ⟨⟨[], rfl, by simp⟩, by simp [textOutlook]⟩ List.not_mem_nil

theorem indentLine_text (hs : s.preserveLeadingSpace.truthy = false) (t : TextLine) :
    indentLine s plainPatterns (outside level) t.chars =
      .ok (placed s (some level) t.chars ++ ['\n'], outside level) := by
  have hblank : t.chars.all isBlank = false := by
    have hstarts := t.firm.1
    cases hc : t.chars with
    | nil => simp [hc] at hstarts
    | cons c r => simp_all
  have hline : indentLine s plainPatterns (outside level) t.chars = _ :=
    indentLine_plain hs t.outlook (t.plain '<' (by simp [markup]))
  simpa [hblank] using hline

theorem indentLine_open (n : ElementName) :
    indentLine s plainPatterns (outside level) (openTag n.name.toList) =
      .ok (placed s (some level) (openTag n.name.toList) ++ ['\n'], outside (level + 1)) :=
  indentLine_tag n.known (.inl rfl) (standing_of_quiet n.openOutlook (by simp [quietOutlooks]))
    (moveOf_enter n.openOutlook (by simp) (opening_element n.known))

theorem indentLine_close (n : ElementName) :
    indentLine s plainPatterns (outside (level + 1)) (closeTag n.name.toList) =
      .ok (placed s (some level) (closeTag n.name.toList) ++ ['\n'], outside level) :=
  indentLine_tag n.known (.inr rfl) (standing_of_quiet n.closeNamedOutlook
    (by simp [quietOutlooks]))
    (moveOf_leave (closeOutlook_holds n.known) (by simp) (closing_element n.known))

/-- What stands in a template tag, as far as it is not known. -/
theorem bracket_not_mem_percent {head : String} {beyond : List Char} (hhead : '<' ∉ head.toList)
    (hbeyond : ∀ c ∈ strange, c ∉ beyond) : '<' ∉ '{' :: '%' :: ' ' :: (head.toList ++ beyond) := by
  simpa [hhead] using hbeyond '<' (by simp [strange])

theorem indentLine_openPercent (head : String) (hh : head ∈ openingHeads) (beyond : List Char)
    (hbeyond : ∀ c ∈ strange, c ∉ beyond) :
    indentLine s plainPatterns (outside level) ('{' :: '%' :: ' ' :: (head.toList ++ beyond)) =
      .ok (placed s (some level) ('{' :: '%' :: ' ' :: (head.toList ++ beyond)) ++ ['\n'],
      outside (level + 1)) := by
  have hout := percentOutlook_holds head beyond hbeyond
  refine indentLine_textual (bracket_not_mem_percent ?_ hbeyond)
    (standing_of_quiet hout (by grind [quietOutlooks]))
      (moveOf_enter hout (by grind) (opening_percent hh rfl))
  simp only [openingHeads, List.mem_cons, List.not_mem_nil, or_false] at hh
  obtain rfl | rfl := hh <;> decide

theorem indentLine_closePercent (head : String) (hh : head ∈ closingHeads) :
    indentLine s plainPatterns (outside (level + 1)) ('{' :: '%' :: ' ' :: head.toList) =
      .ok (placed s (some level) ('{' :: '%' :: ' ' :: head.toList) ++ ['\n'], outside level) := by
  have hout : (percentOutlook head).Holds ('{' :: '%' :: ' ' :: head.toList) := by
    simpa using percentOutlook_holds head [] (by simp)
  refine indentLine_textual ?_
    (standing_of_quiet hout (by grind [quietOutlooks]))
      (moveOf_leave hout (by grind) (closing_percent hh rfl))
  simp only [closingHeads, List.mem_cons, List.not_mem_nil, or_false] at hh
  obtain rfl | rfl := hh <;> decide

theorem indentLine_divide :
    indentLine s plainPatterns (outside (level + 1)) ('{' :: '%' :: ' ' :: dividingHead.toList) =
      .ok (placed s (some level) ('{' :: '%' :: ' ' :: dividingHead.toList) ++ ['\n'],
      outside (level + 1)) := by
  have hout : (percentOutlook dividingHead).Holds ('{' :: '%' :: ' ' :: dividingHead.toList) := by
    simpa using percentOutlook_holds dividingHead [] (by simp)
  exact indentLine_textual (by decide) (standing_of_quiet hout (by simp [quietOutlooks]))
    (moveOf_divide hout (dividing_percent rfl))

/-- A line that opens a region is indented. -/
theorem indentLine_opening (h : Standing.of line.toArray = ⟨true, false, false⟩) :
    indentLine s plainPatterns (outside level) line =
      .ok (placed s (some level) line ++ ['\n'], inside level) := by
  simp only [indentLine, h, outside, inside]
  simp [moveOf_inRegion, bind, Except.bind, pure, Except.pure, Move.lineLevel, Move.nextLevel,
    Move.inSet]

/-- How many regions are open behind a line of a region. -/
def depthAfter (depth : Nat) (line : List Char) : Nat :=
  let standing := Standing.of line.toArray
  depth + (if standing.opens then 1 else 0) - if standing.closes ||
    standing.closesSafely then 1 else 0

/-- A line of a region that does not end it is kept. -/
theorem indentLine_within {now : Indentation} (hnow : now.inRegion = true)
    (h : depthAfter now.depth line ≠ 0) : indentLine s plainPatterns now line =
      .ok (placed s none line ++ ['\n'], { now with depth := depthAfter now.depth line }) := by
  unfold depthAfter at h ⊢
  obtain ⟨level, inSet, inRegion, depth⟩ := now
  obtain rfl : inRegion = true := hnow
  simp only [indentLine]
  generalize Standing.of line.toArray = standing at h ⊢
  obtain ⟨opens, closes, safely⟩ := standing
  cases opens <;> cases closes <;> cases safely <;>
    simp_all [moveOf_inRegion, beq_eq_decide, bind, Except.bind, pure, Except.pure, Move.lineLevel,
      Move.nextLevel, Move.inSet]

theorem indentLine_raw (l : RawLine) :
    indentLine s plainPatterns (inside level) l.chars = .ok (placed s none l.chars ++ ['\n'],
    inside level) := by
  have hdepth : depthAfter 1 l.chars = 1 := by
    rw [depthAfter, standing_of_quiet l.outlook (by simp [quietOutlooks])]
    rfl
  have hline : indentLine s plainPatterns (inside level) l.chars = _ :=
    indentLine_within rfl (by simp [inside, hdepth])
  simpa [inside, hdepth] using hline

theorem indentLine_closeRaw (n : RawName) :
    indentLine s plainPatterns (inside level) (closeTag n.name.toList) =
      .ok (placed s (some level) (closeTag n.name.toList) ++ ['\n'], outside level) := by
  have hmove := moveOf_lastOfRegion (s := s) (closeOutlook_holds n.mem_tagNames)
  have htag : plainPatterns.attributedTag = .ok ((attributedTagTree (tagWords [])).pattern loose) :=
    rfl
  have hattributes := no_attributes n.mem_tagNames (indents s level) (closeTag n.name.toList)
    (by simp [indents, Settings.indent]) (.inr rfl)
  simp only [indentLine, standing_closeRaw, inside, Bool.false_and, Bool.or_false, Bool.true_and,
    Bool.false_eq_true, if_false, if_true, Nat.add_zero, Nat.sub_self, beq_self_eq_true,
    Bool.not_true]
  rw [hmove, htag]
  simp only [Outcome.ok_bind, Move.lineLevel, placed,
    Pattern.replaceAllM_of_findAll_eq_nil hattributes]
  rfl

end indenting

end TemplateTidy.Layout
