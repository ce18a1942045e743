import TemplateTidy.Proofs.Layout.Total

/-! # Outlooks on lines

The kinds of lines that a plain document has: a text, the tags of an element, a template tag, a line
of a script or a style.  Each kind is told by an outlook on its line, and the patterns that would
see more in the line are excluded by evaluation (`standing_excluded`, `plain_excluded`,
`moves_excluded`).  Evaluation would take too long over all names of elements: that a name is none
of some others is what an outlook bars. -/

namespace TemplateTidy.Layout

open Text Pattern

/-! ### Lines -/

/-- Characters that mark up a document. -/
def markup : List Char :=
  ['<', '>', '{', '}', '[', ']', '%', '#', '*', '?']

/-- A line of text: no markup, and no blank at its ends. -/
structure TextLine where
  chars : List Char
  firm : Firm chars
  plain : ∀ c ∈ '\n' :: markup, c ∉ chars

/-- A line of a script or a style. -/
structure RawLine where
  chars : List Char
  plain : ∀ c ∈ ['\n', '<', '>', '{', '}'], c ∉ chars

/-- A word of letters, digits and underscores. -/
structure PlainWord where
  chars : List Char
  ne_nil : chars ≠ []
  plain : ∀ c ∈ chars, (c.isAlphanum || c == '_') = true

/-- The name of an element with a closing tag, whose contents are laid out. -/
structure ElementName where
  name : String
  known : name ∈ Markup.tagNames
  notVoid : name ∉ Markup.voidElements
  laidOut : name ∉ ["pre", "textarea", "script", "style"]

/-- The name of an element whose contents are kept, but whose tags are indented. -/
structure RawName where
  name : String
  known : name = "script" ∨ name = "style"

def openTag (name : List Char) : List Char :=
  '<' :: (name ++ ['>'])

def closeTag (name : List Char) : List Char :=
  '<' :: '/' :: (name ++ ['>'])

/-- A template tag with its brackets. -/
def percentText (body : List Char) : List Char :=
  '{' :: '%' :: ' ' :: (body ++ [' ', '%', '}'])

/-! ### Patterns -/

/-- The patterns over lines, where the settings add no names. -/
def plainPatterns : LinePatterns where
  closedLine := .ok ((closedLineTree (tagWords [])).pattern looseLines)
  closingLine := .ok ((closingLineTree (tagWords [])).pattern looseLines)
  closedAtEnd := .ok ((closedAtEndTree (tagWords [])).pattern looseLines)
  closedAtEndEscaped := .ok ((closedAtEndEscapedTree (tagWords [])).pattern looseLines)
  closedAtStart := .ok ((closedAtStartTree (tagWords [])).pattern looseLines)
  attributedAtStart := .ok ((attributedAtStartTree (tagWords [])).pattern looseLines)
  openingLine := .ok ((openingLineTree (tagWords []) (blockNames indentBlockWords [] [])).pattern
    looseLines)
  attributedTag := .ok ((attributedTagTree (tagWords [])).pattern loose)

theorem linePatterns_eq {s : Settings} (h : Adds s [] [] []) :
    LinePatterns.of s = plainPatterns := by
  simp only [LinePatterns.of, plainPatterns, closedLine_eq h, closingLine_eq h, closedAtEnd_eq h,
    closedAtEndEscaped_eq h, closedAtStart_eq h, attributedAtStart_eq h, openingLine_eq h,
    attributedTag_eq h]

/-- A pattern over lines by its tree. -/
def lineNode (e : Choice) : Node :=
  (e.pattern looseLines).node

/-- A pattern of regions by its items. -/
def regionNode (flags : Flags) (es : List Items) : Node :=
  ((Choice.any es).pattern flags).node

/-- The patterns that tell how a line stands. -/
def standingNodes : List Node :=
  [Region.openingItems, Region.closingItems, Region.safeClosingItems].map (regionNode Region.narrow)

/-- The patterns that a line outside of regions is asked for before it opens or closes a level. -/
def plainNodes : List Node :=
  [lineNode regionLineTree, lineNode (closedLineTree (tagWords []))]

def closingNode : Node :=
  lineNode (closingLineTree (tagWords []))

/-- The patterns of lines with a closing tag that close no level. -/
def closedNodes : List Node :=
  [closedAtEndTree, closedAtEndEscapedTree, closedAtStartTree, attributedAtStartTree].map
    fun e => lineNode (e (tagWords []))

def dividerNode : Node :=
  lineNode dividerTree

def setNode : Node :=
  lineNode setStartTree

def openingNode : Node :=
  lineNode (openingLineTree (tagWords []) (blockNames indentBlockWords [] []))

/-! ### Outlooks -/

/-- The words of the elements whose contents are kept, behind `mark`. -/
def keptWords (mark : List Char) : List Node :=
  ["pre", "textarea", "script", "style"].map fun n =>
    .word ((mark ++ n.toList).map (CharSet.single · .simple))

/-- A void element. -/
def voidTag : Node :=
  .ofList [.one (.single '<' .simple), .choice (Markup.voidElements.map (.named ·.toList)),
    .anchor (.wordEdge false true), .rep (.one ⟨[.range '>' '>'], true, .simple⟩) 0 none true,
    .rep (.one (.single '/' .simple)) 0 (some 1) false, .one (.single '>' .simple)]

/-- Characters that neither a name nor a template tag holds. -/
def strange : List Char :=
  ['<', '/', '{', '#', '*', '?', '!', '-', '[', ']']

def textOutlook : Outlook where
  missing := markup

def rawOutlook : Outlook where
  missing := ['<', '>', '{', '}']

def openOutlook : Outlook where
  start := ['<']
  missing := '}' :: '%' :: strange
  barred := voidTag :: keptWords ['<']

def closeOutlook : Outlook where
  start := ['<', '/']
  missing := '}' :: '%' :: strange

def closeNamedOutlook : Outlook :=
  { closeOutlook with barred := keptWords ['<', '/'] }

/-- A template tag that begins with a text. -/
def percentOutlook (body : String) : Outlook where
  start := '{' :: '%' :: ' ' :: body.toList
  missing := strange

/-- A text of which all is known. -/
def exactOutlook (text : List Char) : Outlook where
  start := text
  missing := '>' :: '}' :: '%' :: strange

theorem exactOutlook_holds (text : List Char) : (exactOutlook text).Holds text where
  begins := ⟨[], by simp [exactOutlook], by simp⟩
  barred := by simp [exactOutlook]

/-! ### Names of elements -/

theorem isSmall_tagName {n : String} (h : n ∈ Markup.tagNames) : ∀ c ∈ n.toList, isSmall c = true :=
  List.all_eq_true.1 (List.all_eq_true.1 knownNames_check.2 n h)

/-- The names in which a kept name begins are the kept names, and all void elements are known. -/
theorem tagNames_check :
    (["pre", "textarea", "script", "style"].all fun n => Markup.tagNames.all fun m =>
      !n.toList.isPrefixOf m.toList || m == n) = true ∧
    (Markup.tagNames.all fun n => n.toList != []) = true ∧
    (Markup.voidElements.all Markup.tagNames.contains) = true := by
  decide +kernel

theorem eq_of_kept_begins {n m : String} (hn : n ∈ ["pre", "textarea", "script", "style"])
    (hm : m ∈ Markup.tagNames) (h : n.toList <+: m.toList) : m = n := by
  have := List.all_eq_true.1 (List.all_eq_true.1 tagNames_check.1 n hn) m hm
  simpa [List.isPrefixOf_iff_prefix.2 h] using this

theorem mem_tagNames_of_void {n : String} (h : n ∈ Markup.voidElements) : n ∈ Markup.tagNames := by
  simpa using List.all_eq_true.1 tagNames_check.2.2 n h

/-- Lists of known names are lists of small letters and digits. -/
theorem names_small {names : List String} (h : names ⊆ Markup.tagNames) :
    ∀ n ∈ names.map String.toList, n ≠ [] ∧ ∀ c ∈ n, isSmall c = true := by
  intro _ hmem
  obtain ⟨n, hn, rfl⟩ := List.mem_map.1 hmem
  exact ⟨by simpa using List.all_eq_true.1 tagNames_check.2.1 n (h hn), isSmall_tagName (h hn)⟩

theorem nameAtoms_eq_lits {n : List Char} (h : ∀ c ∈ n, isSmall c = true) :
    nameAtoms n = lits n := by
  induction n with
  | nil => rfl
  | cons c n ih =>
    have hc : c ≠ '\\' := by
      rintro rfl
      exact absurd (h '\\' List.mem_cons_self) (by decide)
    have hrest := ih fun c hc => h c (by simp [hc])
    unfold nameAtoms
    split
    next heq =>
      exact absurd (List.cons.inj heq).1 hc
    next heq =>
      obtain ⟨rfl, rfl⟩ := List.cons.inj heq
      rw [hrest]
      rfl
    next heq => cases heq

/-- A choice of known names as a pattern. -/
theorem choice_words (blank : Bool) {flags : Flags} (hf : flags.folding = .simple) (k : Nat)
    {names : List String} (h : names ⊆ Markup.tagNames) (hne : names ≠ []) :
    Node.choice ((words blank (names.map (nameAtoms ·.toList))).nodes flags k) =
      .choice ((names.map String.toList).map .named) := by
  have hgroups : Groupless (names.map (nameAtoms ·.toList)) := by
    intro w hw a ha
    obtain ⟨n, hn, rfl⟩ := List.mem_map.1 hw
    rw [nameAtoms_eq_lits (isSmall_tagName (h hn))] at ha
    obtain ⟨c, -, rfl⟩ := List.mem_map.1 ha
    rfl
  rw [nodes_words blank flags k hgroups (by simpa using hne), List.map_map, List.map_map]
  congr 1
  refine List.map_congr_left fun n hn => ?_
  simp only [Function.comp_def, nameAtoms_eq_lits (isSmall_tagName (h hn)), lits, List.map_map,
    Node.named, Node.word]
  congr 1
  refine List.map_congr_left fun c _ => ?_
  simp only [Atom.node, hf]
  rfl

/-! ### The outlooks hold -/

theorem isUncapped_closing : isUncapped '>' = true := by
  decide

theorem isWord_closing : isWord '>' = false := by
  decide

theorem eq_of_holds_single {a c : Char} (ha : isCaseless a = true)
    (h : (CharSet.single a .simple).holds c = true) : c = a := by
  refine CharSet.eq_of_holds ?_ h
  simp [CharSet.onlyOf, CharSet.single, ha]

/-- The rest of a tag from its only opening bracket on is all of it. -/
theorem rest_of_bracket {scene : Scene} {p : Point} {u r : List Char}
    (hu : '<' ∉ u) (pad : List Char) (hpad : '<' ∉ pad)
    (hscene : scene.text.toList <:+ pad ++ '<' :: u) (hr : scene.rest p = '<' :: r) : r = u := by
  have hsuffix : '<' :: r <:+ pad ++ '<' :: u := hr ▸ (List.drop_suffix _ _).trans hscene
  clear hscene
  induction pad with
  | nil =>
    obtain h | h := List.suffix_cons_iff.1 hsuffix
    · exact (List.cons.inj h).2
    · exact absurd (h.subset (by simp)) hu
  | cons c pad ih =>
    rw [List.mem_cons, not_or] at hpad
    obtain ⟨hc, hpad⟩ := hpad
    obtain h | h := List.suffix_cons_iff.1 hsuffix
    · exact absurd (List.cons.inj h).1 hc
    · exact ih hpad h

theorem bracket_not_mem_name {n : String} (h : n ∈ Markup.tagNames) {c : Char}
    (hc : isSmall c = false) : c ∉ n.toList := by
  intro hmem
  rw [isSmall_tagName h c hmem] at hc
  cases hc

theorem not_reach_keptWord {n : String} {mark : List Char} (hn : n ∈ Markup.tagNames)
    (hlaid : n ∉ ["pre", "textarea", "script", "style"]) (hmark : mark = ['<'] ∨ mark = ['<', '/'])
    {k : Node} (hk : k ∈ keptWords mark) {scene : Scene}
    (hscene : scene.text.toList <:+ mark ++ (n.toList ++ ['>']))
    (p q : Point) : ¬k.Reach scene false p q := by
  obtain ⟨m, hm, rfl⟩ := List.mem_map.1 hk
  intro h
  obtain ⟨hfits, -⟩ := Node.reach_word.1 h
  -- the word begins at the bracket, so the name begins with the word's
  have hname : Node.fits (m.toList.map (CharSet.single · .simple)) (n.toList ++ ['>']) = true := by
    have hfree : ∀ c, isSmall c = false → c ≠ '>' → c ∉ n.toList ++ ['>'] := by
      intro c hc hne hmem
      obtain hmem | hmem := List.mem_append.1 hmem
      · exact bracket_not_mem_name hn hc hmem
      · exact hne (by simpa using hmem)
    obtain rfl | rfl := hmark
    · cases hr : scene.rest p with
      | nil => simp [hr, Node.fits] at hfits
      | cons c r =>
        simp only [hr, List.cons_append, List.map_cons, List.nil_append, Node.fits,
          Bool.and_eq_true] at hfits
        obtain rfl := eq_of_holds_single (by decide) hfits.1
        rw [rest_of_bracket (hfree '<' (by decide) (by decide))
          [] List.not_mem_nil hscene hr] at hfits
        exact hfits.2
    · rcases hr : scene.rest p with _ | ⟨c, _ | ⟨d, r⟩⟩
      · simp [hr, Node.fits] at hfits
      · simp [hr, Node.fits] at hfits
      · simp only [hr, List.cons_append, List.map_cons, List.nil_append, Node.fits,
          Bool.and_eq_true] at hfits
        obtain rfl := eq_of_holds_single (by decide) hfits.1
        have hfree' : '<' ∉ '/' :: (n.toList ++ ['>']) := by
          simpa using hfree '<' (by decide) (by decide)
        obtain ⟨-, rfl⟩ := List.cons.inj (rest_of_bracket hfree' [] List.not_mem_nil hscene hr)
        exact hfits.2.2
  have hm' : m ∈ Markup.tagNames := by
    simp only [List.mem_cons, List.not_mem_nil, or_false] at hm
    obtain rfl | rfl | rfl | rfl := hm <;> simp [Markup.tagNames]
  have hbegins := Node.prefix_of_fits isUncapped_closing (by decide) (isSmall_tagName hm')
    (isSmall_tagName hn) hname
  rw [eq_of_kept_begins hm hn hbegins] at hlaid
  exact hlaid hm

theorem not_reach_voidTag {n : String} (hn : n ∈ Markup.tagNames) (hvoid : n ∉ Markup.voidElements)
    {scene : Scene} (hscene : scene.text.toList <:+ openTag n.toList) (p q : Point) :
    ¬voidTag.Reach scene false p q := by
  rintro ⟨m, hopen, m', hnames, m'', ⟨hedge, -⟩, -⟩
  obtain ⟨c, r, hr, hc, rfl⟩ := Node.reach_one.1 hopen
  obtain rfl := eq_of_holds_single (by decide) hc
  have hfree : '<' ∉ n.toList ++ ['>'] := by
    simpa using bracket_not_mem_name hn (c := '<') (by decide)
  obtain rfl := rest_of_bracket hfree [] List.not_mem_nil hscene hr
  have hrest : scene.rest (p.move 1) = n.toList ++ '>' :: [] := by
    rw [scene.rest_move, hr]
    rfl
  rw [show Markup.voidElements.map (Node.named ·.toList) =
    (Markup.voidElements.map String.toList).map .named by rw [List.map_map]; rfl] at hnames
  obtain ⟨hmem, -⟩ := Node.eq_of_reach_names (names_small fun _ => mem_tagNames_of_void)
    (isSmall_tagName hn) isUncapped_closing isWord_closing hrest hnames hedge
  obtain ⟨m, hm, he⟩ := List.mem_map.1 hmem
  rw [String.toList_inj.1 he] at hm
  exact hvoid hm

/-- None of the missing characters stands in a name or in a bracket after it. -/
theorem missing_of_name {n : String} (hn : n ∈ Markup.tagNames) :
    ∀ c ∈ '}' :: '%' :: strange, c ∉ n.toList ++ ['>'] := by
  intro c hc hmem
  have hall : (('}' :: '%' :: strange).all fun c => !isSmall c && c != '>') = true := rfl
  have hsmall : isSmall c = false ∧ c ≠ '>' := by simpa using List.all_eq_true.1 hall c hc
  obtain hmem | hmem := List.mem_append.1 hmem
  · exact bracket_not_mem_name hn hsmall.1 hmem
  · exact hsmall.2 (by simpa using hmem)

theorem TextLine.outlook (t : TextLine) : textOutlook.Holds t.chars where
  begins := ⟨t.chars, rfl, fun c hc => t.plain c (List.mem_cons_of_mem _ hc)⟩
  barred := by simp [textOutlook]

theorem RawLine.outlook (l : RawLine) : rawOutlook.Holds l.chars where
  begins := ⟨l.chars, rfl, fun c hc => l.plain c (List.mem_cons_of_mem _ hc)⟩
  barred := by simp [rawOutlook]

theorem ElementName.openOutlook (n : ElementName) : openOutlook.Holds (openTag n.name.toList) where
  begins := ⟨_, rfl, missing_of_name n.known⟩
  barred := by
    intro k hk scene hscene
    obtain rfl | hk := List.mem_cons.1 hk
    · exact not_reach_voidTag n.known n.notVoid hscene
    · exact not_reach_keptWord n.known n.laidOut (.inl rfl) hk hscene

theorem closeOutlook_holds {n : String} (hn : n ∈ Markup.tagNames) :
    closeOutlook.Holds (closeTag n.toList) where
  begins := ⟨_, rfl, missing_of_name hn⟩
  barred := by simp [closeOutlook]

theorem ElementName.closeNamedOutlook (n : ElementName) :
    closeNamedOutlook.Holds (closeTag n.name.toList) where
  begins := (closeOutlook_holds n.known).begins
  barred := fun _ hk _ hscene => not_reach_keptWord n.known n.laidOut (.inr rfl) hk hscene

theorem percentOutlook_holds (head : String) (beyond : List Char) (h : ∀ c ∈ strange, c ∉ beyond) :
    (percentOutlook head).Holds ('{' :: '%' :: ' ' :: (head.toList ++ beyond)) where
  begins := ⟨beyond, rfl, h⟩
  barred := by simp [percentOutlook]

/-! ### What the outlooks exclude -/

/-- The template tags that open a level. -/
def openingHeads : List String :=
  ["if ", "for "]

/-- The template tags that close a level. -/
def closingHeads : List String :=
  ["endif %\x7d", "endfor %\x7d"]

def dividingHead : String :=
  "else %\x7d"

/-- The outlooks on lines that open or close no region. -/
def quietOutlooks : List Outlook :=
  [textOutlook, rawOutlook, openOutlook, closeNamedOutlook] ++
    (dividingHead :: openingHeads ++ closingHeads).map percentOutlook

/-- The outlooks on lines outside of regions. -/
def outerOutlooks : List Outlook :=
  [textOutlook, openOutlook, closeOutlook] ++
    (dividingHead :: openingHeads ++ closingHeads).map percentOutlook

theorem standing_excluded : (quietOutlooks.all fun o => standingNodes.all o.excludes) = true := by
  decide +kernel

theorem plain_excluded : (outerOutlooks.all fun o => plainNodes.all o.excludes) = true := by
  decide +kernel

/-- Each pattern that would move the level is excluded for all lines but those that it is made
for. -/
theorem moves_excluded :
    (([textOutlook, openOutlook] ++ (dividingHead :: openingHeads).map percentOutlook).all fun o =>
      o.excludes closingNode) = true ∧
    ((closeOutlook :: closingHeads.map percentOutlook).all fun o => closedNodes.all o.excludes) =
      true ∧
    (([textOutlook, openOutlook, closeOutlook] ++ openingHeads.map percentOutlook).all fun o =>
      o.excludes dividerNode && o.excludes setNode) = true ∧
    ([textOutlook, closeOutlook].all fun o => o.excludes openingNode) = true := by
  decide +kernel

/-- The patterns find the template tags that they are made for. -/
theorem percent_found :
    (openingHeads.all fun h =>
      !(openingNode.sure (percentOutlook h).start (percentOutlook h).start).isEmpty) = true ∧
    (closingHeads.all fun h =>
      !(closingNode.sure (percentOutlook h).start (percentOutlook h).start).isEmpty) = true ∧
    (dividerNode.sure (percentOutlook dividingHead).start
      (percentOutlook dividingHead).start).isEmpty = false := by
  decide +kernel

/-- Scripts and styles open a region that is not over, and close one that did not begin. -/
theorem rawTags_check : (["script", "style"].all fun n =>
    let opening := openTag n.toList
    let closing := closeTag n.toList
    (([regionNode Region.wide Region.closedItems, regionNode Region.narrow Region.closingItems,
        regionNode Region.narrow Region.safeClosingItems].all (exactOutlook opening).excludes &&
      !((regionNode Region.narrow Region.openingItems).sure opening opening).isEmpty) &&
    ([regionNode Region.narrow Region.inlineItems,
        regionNode Region.wide (Region.inlineItems ++ Region.ignoredItems),
        regionNode Region.narrow Region.openingItems].all (exactOutlook closing).excludes &&
      !((regionNode Region.narrow Region.closingItems).sure closing closing).isEmpty &&
      !((regionNode Region.narrow Region.safeClosingItems).sure closing closing).isEmpty))) =
        true := by
  decide +kernel

end TemplateTidy.Layout
