import TemplateTidy.Proofs.Layout.LineKinds
import TemplateTidy.Proofs.Outcome
import TemplateTidy.Proofs.Region.Absence

/-! # Template tags without contents

The names of blocks are looked for at the beginning of a tag's name, whatever follows them.  So it
takes more than not to be one of them for a tag to leave the other lines alone: its name must not
begin with one (`SingleTag`).  Such a tag leaves the indentation as it finds it
(`SingleTag.indentLine_eq`), and with the tag put in between them, other lines are written as they
are without it (`SingleTag.indentLines_insert`). -/

namespace TemplateTidy.Layout

open Text Node Pattern

/-- How the tags begin that open or close a level or a region. -/
def movingHeads : List String :=
  ["if", "for", "block", "spaceless", "compress", "addto", "language", "with", "assets", "verbatim",
    "autoescape", "filter", "each", "macro", "call", "raw", "set", "end", "comment "]

/-- What stands behind the name in a tag. -/
def tagEnd : List Char :=
  [' ', '%', '\x7d']

/-- The name of a template tag that does not begin like one with contents. -/
structure SingleTag where
  word : PlainWord
  single : ∀ h ∈ movingHeads, fits (Region.anyCase h) (word.chars ++ tagEnd) = false

/-- The line of the tag. -/
def SingleTag.line (t : SingleTag) : List Char :=
  percentText t.word.chars

/-! ### Patterns that such a tag bars -/

/-- Whether a name that is single does not begin like this. -/
def refused (w : List CharSet) : Bool :=
  movingHeads.any (fun h => (Region.anyCase h).isPrefixOf w) ||
    w.head?.any fun cs => cs.onlyOf fun c => !(c.isAlphanum || c == '_')

/-- The patterns that move the level, and those that tell regions and closed elements. -/
def movingNodes : List Node :=
  openingNode :: closingNode :: setNode :: standingNodes ++ plainNodes

theorem movingNodes_refused : movingNodes.all ((percentOutlook "").refuses refused) = true := by
  decide +kernel

namespace SingleTag

variable (t : SingleTag)

theorem strange_not_mem : ∀ c ∈ strange, c ∉ t.word.chars ++ tagEnd := by
  intro c hc hmem
  have hall : (strange.all fun c => !(c.isAlphanum || c == '_') && !tagEnd.contains c) =
    true := by decide
  obtain ⟨hword, hend⟩ := Bool.and_eq_true_iff.1 (List.all_eq_true.1 hall c hc)
  obtain hmem | hmem := List.mem_append.1 hmem
  · simp [t.word.plain c hmem] at hword
  · simp [hmem] at hend

theorem not_fits {w : List CharSet} (hw : refused w = true) :
    fits w (t.word.chars ++ tagEnd) ≠ true := by
  intro hfits
  obtain hw | hw := Bool.or_eq_true_iff.1 hw
  · obtain ⟨h, hh, hbegins⟩ := List.any_eq_true.1 hw
    exact absurd (Region.fits_of_isPrefixOf hbegins hfits) (by simp [t.single h hh])
  · obtain ⟨c, r, hchars⟩ := List.exists_cons_of_ne_nil t.word.ne_nil
    obtain ⟨cs, hcs, hsigns⟩ := (Option.any_eq_true _ _).1 hw
    obtain ⟨w, rfl⟩ := List.head?_eq_some_iff.1 hcs
    rw [hchars, List.cons_append, fits, Bool.and_eq_true] at hfits
    have hsign := CharSet.holds_onlyOf hsigns hfits.1
    simp [t.word.plain c (by simp [hchars])] at hsign

/-- None of these patterns is found in the line, nor in an end of it. -/
theorem not_reach {n : Node} (hn : n ∈ movingNodes) {scene : Scene}
    (hscene : scene.text.toList <:+ t.line) {p q : Point} : ¬n.Reach scene false p q :=
  (percentOutlook_holds "" _ t.strange_not_mem).not_reach_of_refuses (fun _ => t.not_fits)
    (List.all_eq_true.1 movingNodes_refused n hn) hscene

theorem occurs_eq_false {p : Pattern} (hp : p.node ∈ movingNodes) :
    p.occurs t.line.toArray = false :=
  Pattern.occurs_eq_false fun _ hscene _ _ _ => t.not_reach hp (by rw [hscene])

theorem standing_eq : Standing.of t.line.toArray = .quiet :=
  standing_of_not_reach fun n hn scene hscene p q => t.not_reach (by simp [movingNodes, hn]) hscene

/-! ### Indentation -/

variable {s : Settings}

/-- The tag opens and closes nothing, though it may be written one level outside. -/
theorem exists_moveOf (inRegion : Bool) :
    ∃ move, moveOf s plainPatterns false inRegion false .quiet t.line.toArray =
    .ok move ∧ (∀ level, move.nextLevel level = level) ∧ move.inSet false = false := by
  cases inRegion with
  | true => exact ⟨.keep, moveOf_inRegion false .quiet, fun _ => rfl, rfl⟩
  | false =>
    have hregion : regionLine.occurs t.line.toArray = false :=
      t.occurs_eq_false (by rw [regionLine_eq]; simp [movingNodes, plainNodes, lineNode])
    have hset : setStart.occurs t.line.toArray = false :=
      t.occurs_eq_false (by rw [setStart_eq]; simp [movingNodes, setNode, lineNode])
    have hclosed : ((closedLineTree (tagWords [])).pattern looseLines).occurs t.line.toArray =
        false :=
      t.occurs_eq_false (by simp [movingNodes, plainNodes, lineNode])
    have hclosing : ((closingLineTree (tagWords [])).pattern looseLines).occurs t.line.toArray =
        false :=
      t.occurs_eq_false (by simp [movingNodes, closingNode, lineNode])
    have hopening : ((openingLineTree (tagWords []) (blockNames indentBlockWords [] [])).pattern
      looseLines).occurs
        t.line.toArray = false := t.occurs_eq_false (by simp [movingNodes, openingNode, lineNode])
    have hblank : t.line.all isBlank = false := by
      rw [line, percentText, List.all_cons, show isBlank '{' = false by decide, Bool.false_and]
    cases hdivider : dividerLine.occurs t.line.toArray with
    | true =>
      refine ⟨.divide, ?_, fun _ => rfl, rfl⟩
      simp [moveOf, closesLevel, plainPatterns, Standing.quiet, bind, Except.bind, pure,
        Except.pure, hregion, hclosed, hclosing, hdivider]
    | false =>
      refine ⟨if s.preserveLeadingSpace.truthy then .keep else .stay, ?_, fun level => ?_, ?_⟩
      · simp [moveOf, closesLevel, plainPatterns, Standing.quiet, bind, Except.bind, pure,
          Except.pure, hregion, hclosed, hclosing, hdivider, hset, hopening, hblank]
      all_goals split <;> rfl

/-- The tag leaves the indentation as it finds it. -/
theorem indentLine_eq {now : Indentation} (hnow : now.inSet = false) :
    ∃ level, indentLine s plainPatterns now t.line = .ok (placed s level t.line ++ ['\n'],
    now) := by
  obtain ⟨move, hmove, hlevel, hset⟩ := t.exists_moveOf (s := s) now.inRegion
  have htag : plainPatterns.attributedTag = .ok ((attributedTagTree (tagWords [])).pattern loose) :=
    rfl
  have hfree : '<' ∉ t.line := by
    simpa [line, percentText, tagEnd] using t.strange_not_mem '<' (by decide)
  have hattributes : ((attributedTagTree (tagWords [])).pattern loose).findAll
      (placed s (move.lineLevel now.level) t.line ++ ['\n']).toArray = [] :=
    findAll_eq_nil_of_needs (needs_attributedTagTree _)
      (by simpa using bracket_not_mem_placed hfree _)
  refine ⟨move.lineLevel now.level, ?_⟩
  simp only [indentLine, t.standing_eq, Standing.quiet, hnow, Bool.false_and, Bool.or_false,
    Bool.false_eq_true, if_false, Bool.not_false, Bool.and_true, Nat.add_zero] at hmove ⊢
  rw [hmove, htag]
  have hsame : ({ level := now.level, inRegion := now.inRegion, depth := now.depth } : Indentation) = now := by
    cases now
    cases hnow
    rfl
  simp only [Outcome.ok_bind, replaceAllM_of_findAll_eq_nil hattributes, pure_bind, hlevel, hset,
    ite_self, hsame]
  rfl

end SingleTag

/-! ### Other lines -/

section lines

variable {s : Settings} {ps : LinePatterns} {line : List Char}

/-- Only the beginning of an assignment opens one. -/
theorem moveOf_ne_enterSet {inSet inRegion first : Bool} {standing : Standing} {line : Array Char}
    (hset : setStart.occurs line = false) :
    Outcome.Gives (· ≠ .enterSet) (moveOf s ps inSet inRegion first standing line) := by
  unfold moveOf
  refine .ite (fun _ => .ok nofun) (.bind fun closed =>
    .ite (fun _ => .ok nofun) (.ite (fun _ => .ok nofun) ?_))
  refine .ite (fun _ => .ok nofun) (.bind fun closes =>
    .ite (fun _ => ?_) (.ite (fun _ => .ok nofun) ?_))
  · exact .bind fun start => .ite (fun _ => .ok nofun) (.bind fun start =>
      .ite (fun _ => .ok nofun) (.ok nofun))
  · refine .ite (fun h => by simp [hset] at h) (.ite (fun _ => .ok nofun) (.bind fun opening => ?_))
    refine .ite (fun _ => .ok nofun) (.ite (fun _ => .ok nofun)
      (.ite (fun _ => .ok nofun) (.ok ?_)))
    split <;> nofun

theorem occurs_eq_false_of_needs {p : Pattern} {c : Char}
    (hp : p.node.needs c = true) (h : c ∉ line) : p.occurs line.toArray = false := by
  refine Pattern.occurs_eq_false fun scene hscene i q _ hreach => h ?_
  have hmem := mem_of_mem_between (hreach.lang.mem_of_needs hp)
  simpa [hscene] using hmem

theorem needs_setStart : setStart.node.needs '\x7b' = true := by
  rw [setStart_eq]
  decide

/-- A line without braces opens no assignment. -/
theorem inSet_of_indentLine {now next : Indentation} {written : List Char} (hline : '\x7b' ∉ line)
    (hnow : now.inSet = false) (h : indentLine s ps now line = .ok (written, next)) :
    next.inSet = false := by
  have hset : setStart.occurs line.toArray = false := occurs_eq_false_of_needs needs_setStart hline
  obtain ⟨move, hmove, h⟩ := Outcome.exists_of_bind h
  have hne := moveOf_ne_enterSet hset move hmove
  have hnext : next.inSet = move.inSet now.inSet := by
    obtain ⟨-, h⟩ | ⟨-, h⟩ := Outcome.branch_of_ite h
    · obtain ⟨w, -, h⟩ := Outcome.exists_of_bind h
      rw [← (Prod.mk.inj (Except.ok.inj h)).2]
    · obtain ⟨tag, -, h⟩ := Outcome.exists_of_bind h
      obtain ⟨w, -, h⟩ := Outcome.exists_of_bind h
      rw [← (Prod.mk.inj (Except.ok.inj h)).2]
  rw [hnext, hnow]
  cases move with
  | enterSet => exact absurd rfl hne
  | _ => rfl

theorem indentFrom_cons {now next : Indentation} {written rest : List Char}
    {lines : List (List Char)} (hline : indentLine s ps now line = .ok (written, next))
    (hrest : indentFrom s ps next lines = .ok rest) :
    indentFrom s ps now (line :: lines) = .ok (written ++ rest) := by
  simp only [indentFrom, hline, hrest, Outcome.ok_bind]
  rfl

end lines

namespace SingleTag

variable (t : SingleTag) {s : Settings}

/-- With the tag between them, other lines are written as they are without it. -/
theorem indentFrom_insert {behind : List (List Char)} :
    ∀ {before : List (List Char)} {now : Indentation}
    {result : List Char}, (∀ line ∈ before, '\x7b' ∉ line) → now.inSet = false →
      indentFrom s plainPatterns now (before ++ behind) = .ok result →
        ∃ a b level, result = a ++ b ∧ indentFrom s plainPatterns now before = .ok a ∧
          indentFrom s plainPatterns now (before ++ t.line :: behind) =
            .ok (a ++ (placed s level t.line ++ '\n' :: b))
  | [], now, result, _, hnow, h => by
      obtain ⟨level, hline⟩ := t.indentLine_eq (s := s) hnow
      exact ⟨[], result, level, rfl, rfl, by simpa using indentFrom_cons hline h⟩
  | line :: before, now, result, hbefore, hnow, h => by
      obtain ⟨⟨written, next⟩, hline, h⟩ := Outcome.exists_of_bind h
      obtain ⟨rest, hrest, h⟩ := Outcome.exists_of_bind h
      have hnext := inSet_of_indentLine (hbefore line (by simp)) hnow hline
      obtain ⟨a, b, level, rfl, ha, hinsert⟩ :=
        indentFrom_insert (fun l hl => hbefore l (by simp [hl])) hnext hrest
      refine ⟨written ++ a, b, level, ?_, indentFrom_cons hline ha, ?_⟩
      · rw [← Except.ok.inj h, List.append_assoc]
      · simpa using indentFrom_cons hline hinsert

/-- A template tag on a line of its own, whose name does not begin like that of a block, does not
move the other lines: before the tag and behind it stands what is written without it.  The lines
before it hold no brace, so that no assignment is open. -/
theorem indentLines_insert (hs : Adds s [] [] []) {before behind : List (List Char)}
    {result : List Char} (hlines : ∀ line ∈ before ++ behind, '\n' ∉ line)
    (hne : before ++ behind ≠ []) (hbefore : ∀ line ∈ before, '\x7b' ∉ line)
    (h : indentLines s (joinWith ['\n'] (before ++ behind)) = .ok result) :
    ∃ a b level, result = a ++ b ∧ indentFrom s (.of s) {} before = .ok a ∧
      indentLines s (joinWith ['\n'] (before ++ t.line :: behind)) =
        .ok (a ++ (placed s level t.line ++ '\n' :: b)) := by
  have hfeed : '\n' ∉ t.line := by
    have hword : '\n' ∉ t.word.chars := fun hmem => absurd (t.word.plain _ hmem) (by decide)
    simpa [line, percentText] using hword
  have hlines' : ∀ line ∈ before ++ t.line :: behind, '\n' ∉ line := by
    intro line hline
    obtain rfl | hline : line = t.line ∨ line ∈ before ++ behind := by
      simp only [List.mem_append, List.mem_cons] at hline ⊢
      tauto
    · exact hfeed
    · exact hlines line hline
  rw [indentLines, linePatterns_eq hs, splitOn_joinWith hlines hne] at h
  rw [indentLines, linePatterns_eq hs, splitOn_joinWith hlines' (by simp)]
  exact t.indentFrom_insert hbefore rfl h

example : ∀ h ∈ movingHeads, fits (Region.anyCase h) ("csrf_token".toList ++ tagEnd) = false := by
  decide

end SingleTag

end TemplateTidy.Layout
