import TemplateTidy.Proofs.Job
import TemplateTidy.Proofs.Report.Count
import TemplateTidy.Proofs.Text.Difference

/-! # Flaws

A file is flawed for a job if formatting changes a line of it or the rules find something in it
(`IsFlawed`).  The reports of a list of jobs count something exactly if a file is flawed for its job
(`exists_counted_iff`): the job is given what the jobs before it have left of the file, and lints
what it leaves itself. -/

namespace TemplateTidy

open Files Stateful

/-! ### The text of a file on the way -/

/-- The text that a file of the tree has after some jobs: it is formatted by each one that leads to
it, if the jobs write. -/
def HasText (tools : Layout.Tools) (s : Settings) (t : Tree) (writes : Bool) (done : List Path)
    (p : Path) (text : List Char) : Prop :=
  ∃ original, t.readExactly p = .ok original ∧
    Layout.formatTimes tools s (if writes then t.visits done p else 0) original = .ok text

/-- Formatting changes a line of the text that the file has after the jobs that are done. -/
def FormatChanges (tools : Layout.Tools) (s : Settings) (t : Tree) (writes : Bool)
    (done : List Path) (p : Path) : Prop :=
  ∃ text result, HasText tools s t writes done p text ∧ Layout.formatted tools s text = .ok result ∧
    Text.splitLines result ≠ Text.splitLines text

/-- The rules find something in the text that the file has after the jobs that are done and its
own. -/
def RulesFind (tools : Layout.Tools) (checks : List (String × Lint.Check)) (s : Settings)
    (t : Tree) (writes : Bool) (done : List Path) (p : Path) : Prop :=
  ∃ text found, HasText tools s t writes (done ++ [p]) p text ∧
    Lint.lint checks s.rules s.perFileIgnores (Text.unifyLineEnds text) p.render = .ok found ∧
    found ≠ []

/-- There is something to say about the file in a run that formats or checks, or lints, as it is
told. -/
def IsFlawed (tools : Layout.Tools) (checks : List (String × Lint.Check)) (s : Settings) (t : Tree)
    (formats checksOnly lints : Bool) (done : List Path) (p : Path) : Prop :=
  ((formats || checksOnly) = true ∧ FormatChanges tools s t (formats && !checksOnly) done p) ∨
    (lints = true ∧ RulesFind tools checks s t (formats && !checksOnly) done p)

variable {tools : Layout.Tools} {checks : List (String × Lint.Check)} {s : Settings} {t : Tree}
  {writes : Bool} {p q : Path}

theorem hasText_nil {text : List Char} :
    HasText tools s t writes [] p text ↔ t.readExactly p = .ok text := by
  have hnone : (if writes then t.visits [] p else 0) = 0 := by
    split <;> rfl
  unfold HasText
  rw [hnone]
  constructor
  · rintro ⟨original, hread, htext⟩
    rw [hread, ← htext]
    rfl
  · exact fun hread => ⟨text, hread, rfl⟩

theorem hasText_of_not_writes {done : List Path} {text : List Char} :
    HasText tools s t false done p text ↔ t.readExactly p = .ok text := by
  show HasText tools s t false [] p text ↔ _
  exact hasText_nil

/-- What jobs leave of a file after a first one that has written is what they leave after all of
them. -/
theorem hasText_put {done : List Path} {before result text : List Char}
    (hread : t.readExactly p = .ok before)
    (hresult : Layout.formatted tools s before = .ok result) :
    HasText tools s (t.put p (.file (String.ofList result).toUTF8)) true done q text ↔
    HasText tools s t true (p :: done) q text := by
  obtain ⟨bytes, hbytes, hdecode⟩ := Tree.exists_of_readExactly hread
  have hvisits : (t.put p (.file (String.ofList result).toUTF8)).visits done q =
      t.visits done q := by
    simp only [Tree.visits, Tree.resolve_put]
  unfold HasText
  rw [hvisits, if_pos rfl, if_pos rfl]
  simp only [Tree.readExactly_eq_ok_iff, Tree.entry?_put]
  by_cases hq : t.resolve q = t.resolve p
  · -- The file is the one that was written, so it has been formatted once more.
    have hfile : t.entry? q = some (.file bytes) := by
      rw [← hbytes, Tree.entry?_congr hq]
    have hcount : t.visits (p :: done) q = t.visits done q + 1 := by
      simp [Tree.visits, hq]
    rw [hcount, if_pos ⟨hq, Tree.parts_ne_nil hfile⟩]
    constructor
    · rintro ⟨original, ⟨bytes', hentry, hdecode'⟩, htext⟩
      cases hentry
      rw [Tree.decode_toUTF8] at hdecode'
      cases hdecode'
      exact ⟨before, ⟨bytes, hfile,
        hdecode⟩, by rw [Layout.formatTimes, hresult, Outcome.ok_bind, htext]⟩
    · rintro ⟨original, ⟨bytes', hentry, hdecode'⟩, htext⟩
      rw [hfile] at hentry
      cases hentry
      obtain rfl : before = original := Except.ok.inj (hdecode.symm.trans hdecode')
      rw [Layout.formatTimes, hresult, Outcome.ok_bind] at htext
      exact ⟨result, ⟨_, rfl, Tree.decode_toUTF8 result⟩, htext⟩
  · have hcount : t.visits (p :: done) q = t.visits done q := by
      simp [Tree.visits, Ne.symm hq]
    rw [hcount, if_neg fun h => hq h.1]

/-- A job hands on what it has left of each file. -/
theorem hasText_of_process (htools : tools.Keeps) {formats checksOnly : Bool}
    {report : Report.FileReport} {desk : Desk} (hr : s.reformat = .bool formats)
    (hc : s.check = .bool checksOnly) (hstdin : s.stdin = false)
    (h : (Job.process tools checks p).run.run { tree := t, settings := s } = (.ok report, desk))
    {done : List Path}
    {text : List Char} : HasText tools s desk.tree (formats && !checksOnly) done q text ↔
      HasText tools s t (formats && !checksOnly) (p :: done) q text := by
  have hjob := Job.tree_of_process htools hr hc hstdin h
  cases hwrites : formats && !checksOnly with
  | true =>
    rw [hwrites, if_pos rfl] at hjob
    obtain ⟨before, result, hread, hresult, htree⟩ := hjob
    rw [htree]
    exact hasText_put hread hresult
  | false =>
    rw [hwrites, if_neg Bool.false_ne_true] at hjob
    rw [hjob, hasText_of_not_writes, hasText_of_not_writes]

/-! ### One report -/

theorem changedLines_eq_nil_iff {text result : List Char} :
    Job.changedLines text result = [] ↔ Text.splitLines result = Text.splitLines text := by
  unfold Job.changedLines
  rw [List.map_eq_nil_iff, Text.Difference.unified_eq_nil_iff]
  exact eq_comm

theorem changed_of_formatStep {formats checksOnly : Bool} {changes findings : Report.FileReport}
    {desk : Desk} (hr : s.reformat = .bool formats) (hc : s.check = .bool checksOnly)
    (hformat : Job.FormatStep tools ⟨t, s⟩ p changes desk)
    (hfindings : Report.FileReport.changed findings = 0) :
    Report.FileReport.changed (changes ++ findings) ≠ 0 ↔
      (formats || checksOnly) = true ∧ FormatChanges tools s t (formats && !checksOnly) [] p := by
  have hon : (s.reformat.truthy || s.check.truthy) = (formats || checksOnly) := by
    rw [hr, hc]
    rfl
  unfold Job.FormatStep at hformat
  dsimp only at hformat
  rw [hon] at hformat
  split at hformat
  next hformats =>
    obtain ⟨_, rfl, text, result, hread, hresult, rfl, -⟩ := hformat
    have hresult : Layout.formatted tools s text = .ok result := congrArg Prod.fst hresult
    have hcount : Report.FileReport.changed
        ([.changes [(p.render, Job.changedLines text result)]] ++ findings) ≠ 0 ↔
        Job.changedLines text result ≠ [] := by
      simp [Report.FileReport.changed, Report.FileReport.changes?]
    rw [hcount, Ne, changedLines_eq_nil_iff]
    refine ⟨fun hne => ⟨hformats, text, result, hasText_nil.2 hread, hresult, hne⟩, ?_⟩
    rintro ⟨-, text', result', htext', hresult', hne⟩
    obtain rfl : text = text' := Except.ok.inj (hread.symm.trans (hasText_nil.1 htext'))
    obtain rfl : result = result' := Except.ok.inj (hresult.symm.trans hresult')
    exact hne
  next hoff =>
    obtain ⟨rfl, -⟩ := hformat
    rw [List.nil_append, hfindings]
    exact ⟨fun h => absurd rfl h, fun h => absurd h.1 hoff⟩

theorem found_of_lintStep {lints : Bool} {changes findings : Report.FileReport}
    (hl : s.lint = .bool lints) (hlint : Job.LintStep checks s t p findings)
    (hchanges : Report.FileReport.findings? changes = none) :
    Report.FileReport.found (changes ++ findings) ≠ 0 ↔ lints = true ∧ ∃ text found,
      t.readExactly p = .ok text ∧
      Lint.lint checks s.rules s.perFileIgnores (Text.unifyLineEnds text) p.render = .ok found ∧
      found ≠ [] := by
  have hskip : Report.FileReport.found (changes ++ findings) =
      Report.FileReport.found findings := by
    unfold Report.FileReport.found Report.FileReport.findings? at *
    rw [List.findSome?_append, hchanges, Option.none_or]
  have hon : s.lint.truthy = lints := by
    rw [hl]
    rfl
  rw [hskip]
  unfold Job.LintStep at hlint
  rw [hon] at hlint
  split at hlint
  next hlints =>
    obtain ⟨text, found, hread, hfound, rfl⟩ := hlint
    obtain ⟨whole, hwhole, hread⟩ := Outcome.exists_of_bind hread
    obtain rfl := Except.ok.inj hread
    have hcount : Report.FileReport.found [.findings [(p.render, found)]] ≠ 0 ↔ found ≠ [] := by
      simp [Report.FileReport.found, Report.FileReport.findings?]
    rw [hcount]
    refine ⟨fun hne => ⟨hlints, whole, found, hwhole, hfound, hne⟩, ?_⟩
    rintro ⟨-, text', found', hread', hfound', hne⟩
    obtain rfl : whole = text' := Except.ok.inj (hwhole.symm.trans hread')
    obtain rfl : found = found' := Except.ok.inj (hfound.symm.trans hfound')
    exact hne
  next hoff =>
    obtain rfl := hlint
    exact ⟨fun h => absurd rfl h, fun h => absurd h.1 hoff⟩

/-- The report of a job counts something exactly if the file is flawed. -/
theorem counted_iff_of_process (htools : tools.Keeps) {formats checksOnly lints : Bool}
    {report : Report.FileReport} {desk : Desk} (hr : s.reformat = .bool formats)
    (hc : s.check = .bool checksOnly) (hl : s.lint = .bool lints) (hstdin : s.stdin = false)
    (h : (Job.process tools checks p).run.run { tree := t, settings := s } = (.ok report, desk)) :
    report.found + report.changed ≠ 0 ↔
    IsFlawed tools checks s t formats checksOnly lints [] p := by
  have htext : ∀ text, HasText tools s t (formats && !checksOnly) ([] ++ [p]) p text ↔
      desk.tree.readExactly p = .ok text :=
    fun text => (hasText_of_process htools hr hc hstdin h).symm.trans hasText_nil
  obtain ⟨changes, findings, rfl, hformat, hlint⟩ := Job.of_process h
  have hlint : Job.LintStep checks s desk.tree p findings := by
    rw [show desk.settings = _ from hformat.same htools] at hlint
    exact hlint
  have hfindings : Report.FileReport.changed findings = 0 := by
    unfold Job.LintStep at hlint
    split at hlint
    · obtain ⟨text, found, -, -, rfl⟩ := hlint
      rfl
    · rw [hlint]
      rfl
  have hchanges : Report.FileReport.findings? changes = none := by
    unfold Job.FormatStep at hformat
    split at hformat
    · obtain ⟨_, rfl, -⟩ := hformat
      rfl
    · rw [hformat.1]
      rfl
  have hchanged := changed_of_formatStep hr hc hformat hfindings
  have hfound := found_of_lintStep hl hlint hchanges
  unfold IsFlawed RulesFind
  simp only [htext]
  rw [← hchanged, ← hfound]
  omega

/-! ### All reports -/

/-- Reports count something exactly if one of the files is flawed for its job. -/
theorem exists_counted_iff (htools : tools.Keeps) {formats checksOnly lints : Bool}
    (hr : s.reformat = .bool formats) (hc : s.check = .bool checksOnly) (hl : s.lint = .bool lints)
    (hstdin : s.stdin = false) (files : List Path) :
    ∀ {t : Tree} {reports : List Report.FileReport}, (processAll tools checks s files t).1 =
      .ok reports → ((∃ r ∈ reports, r.found + r.changed ≠ 0) ↔
        ∃ done p later, files = done ++ p :: later ∧
        IsFlawed tools checks s t formats checksOnly lints done p) := by
  induction files with
  | nil =>
    intro t reports h
    cases h
    simp
  | cons p files ih =>
    intro t reports h
    obtain ⟨report, desk, rest, hp, hrest, rfl, -⟩ := of_processAll_cons h
    -- The other jobs find the tree as the first one leaves it.
    have hshift : ∀ done q, IsFlawed tools checks s desk.tree formats checksOnly lints done q ↔
        IsFlawed tools checks s t formats checksOnly lints (p :: done) q := by
      intro done q
      unfold IsFlawed FormatChanges RulesFind
      simp only [hasText_of_process htools hr hc hstdin hp, List.cons_append]
    simp only [List.mem_cons, exists_eq_or_imp]
    rw [counted_iff_of_process htools hr hc hl hstdin hp, ih hrest]
    simp only [hshift]
    constructor
    · rintro (hfirst | ⟨done, q, later, rfl, hq⟩)
      · exact ⟨[], p, files, rfl, hfirst⟩
      · exact ⟨p :: done, q, later, rfl, hq⟩
    · rintro ⟨done, q, later, heq, hq⟩
      cases done with
      | nil =>
        cases heq
        exact .inl hq
      | cons d done =>
        cases heq
        exact .inr ⟨done, q, later, rfl, hq⟩

end TemplateTidy
