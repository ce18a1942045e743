import TemplateTidy.Job
import TemplateTidy.Proofs.Files.Tree
import TemplateTidy.Proofs.Layout.Embedded

/-! # What jobs write

A job that reads and formats a file writes it unless it only checks, and touches no other file
(`tree_of_process`).  So a list of jobs formats each file as often as the list leads to it
(`entry?_of_processAll`): the bytes that one job leaves are the bytes that the next one reads.  All
this holds for tools whose evaluations leave the settings alone; one that turns the check off makes
the job write. -/

namespace TemplateTidy

open Files Stateful
open Layout (SameButCode)

namespace Layout

/-- What formatting a text answers under settings. -/
def formatted (tools : Tools) (s : Settings) (text : List Char) : Outcome (List Char) :=
  ((tools.format text).run.run s).1

/-- What formatting a text `n` times answers, each time under the same settings. -/
def formatTimes (tools : Tools) (s : Settings) : Nat → List Char → Outcome (List Char)
  | 0, text => .ok text
  | n + 1, text => do formatTimes tools s n (← formatted tools s text)

end Layout

/-! ### One job -/

/-- What a list of jobs leaves in a file that it leads to `n` times: the bytes are read, formatted
and written each time. -/
def rewritten (tools : Layout.Tools) (s : Settings) : Nat → ByteArray → Outcome ByteArray
  | 0, bytes => .ok bytes
  | n + 1, bytes => do
    rewritten tools s n (String.ofList (← Layout.formatted tools s (← Tree.decode bytes))).toUTF8

variable {tools : Layout.Tools}

/-- A written text is read back as it was, so only the formatting is repeated. -/
theorem rewritten_toUTF8 (s : Settings) : ∀ (n : Nat) (text : List Char),
    rewritten tools s n (String.ofList text).toUTF8 =
      (Layout.formatTimes tools s n text).map fun result => (String.ofList result).toUTF8
  | 0, text => rfl
  | n + 1, text => by
      rw [rewritten, Layout.formatTimes, Tree.decode_toUTF8, Outcome.ok_bind]
      cases Layout.formatted tools s text with
      | error e => rfl
      | ok result => exact rewritten_toUTF8 s n result

/-- The bytes that are left come from formatting the text that the first bytes encode. -/
theorem exists_of_rewritten {s : Settings} {n : Nat} {bytes after : ByteArray}
    (h : rewritten tools s (n + 1) bytes = .ok after) :
      ∃ text result, Tree.decode bytes = .ok text ∧
      Layout.formatTimes tools s (n + 1) text = .ok result ∧
      after = (String.ofList result).toUTF8 := by
  obtain ⟨text, htext, h⟩ := Outcome.exists_of_bind h
  obtain ⟨once, honce, h⟩ := Outcome.exists_of_bind h
  rw [rewritten_toUTF8] at h
  cases hresult : Layout.formatTimes tools s n once with
  | error e =>
    rw [hresult] at h
    cases h
  | ok result =>
    rw [hresult] at h
    refine ⟨text, result, htext, ?_, (Except.ok.inj h).symm⟩
    rw [Layout.formatTimes, honce, Outcome.ok_bind, hresult]

namespace Job

variable {desk desk' : Desk} {p : Path}

theorem of_format {text result : List Char}
    (h : (format tools text).run.run desk = (.ok result, desk')) :
    (tools.format text).run.run desk.settings = (.ok result, desk'.settings) ∧
    desk'.tree = desk.tree := by
  obtain ⟨d, desk₁, hget, h⟩ := exists_of_bind h
  cases hget
  cases hf : (tools.format text).run.run desk.settings with
  | mk o s =>
    rw [hf] at h
    obtain ⟨u, desk₂, hset, h⟩ := exists_of_bind h
    cases hset
    obtain ⟨rfl, rfl⟩ := of_lift h
    exact ⟨rfl, rfl⟩

/-- The lines that a report shows for a text and what formatting makes of it. -/
def changedLines (text result : List Char) : List String :=
  (Text.Difference.unified (Text.splitLines text) (Text.splitLines result)).map String.ofList

/-- What a job does that formats a file: it writes the file unless, once it is formatted, it is only
to be checked. -/
def Reformats (tools : Layout.Tools) (desk : Desk) (p : Path) (changes : Report.Changes)
    (desk' : Desk) : Prop :=
  ∃ text result, desk.tree.readExactly p = .ok text ∧
    (tools.format text).run.run desk.settings = (.ok result, desk'.settings) ∧
    changes = [(p.render, changedLines text result)] ∧
    desk'.tree = if !desk'.settings.check.isBool true || desk'.settings.stdin then
      desk.tree.put p (.file (String.ofList result).toUTF8) else desk.tree

theorem of_reformat {changes : Report.Changes}
    (h : (reformatWith tools p).run.run desk = (.ok changes, desk')) :
    Reformats tools desk p changes desk' := by
  obtain ⟨d, desk₁, hget, h⟩ := exists_of_bind h
  cases hget
  obtain ⟨text, desk₂, hread, h⟩ := exists_of_bind h
  obtain ⟨htext, rfl⟩ := of_lift hread
  obtain ⟨result, desk₃, hformat, h⟩ := exists_of_bind h
  obtain ⟨hresult, htree⟩ := of_format hformat
  obtain ⟨d, desk₄, hget, h⟩ := exists_of_bind h
  cases hget
  unfold Reformats
  rw [← htree] at htext ⊢
  refine ⟨text, result, htext, ?_⟩
  split at h
  next hwrites =>
    obtain ⟨u, desk₅, hset, h⟩ := exists_of_bind h
    cases hset
    obtain ⟨hchanges, rfl⟩ := of_pure h
    exact ⟨hresult, hchanges.symm, by rw [if_pos hwrites]⟩
  next hwrites =>
    obtain ⟨hchanges, rfl⟩ := of_pure h
    exact ⟨hresult, hchanges.symm, by rw [if_neg hwrites]⟩

/-- A job that lints a file leaves the desk alone and reports what the rules find in the text of the
file. -/
theorem of_lint {checks : List (String × Lint.Check)} {findings : Report.Findings}
    (h : (lint checks p).run.run desk = (.ok findings, desk')) :
    desk' = desk ∧ ∃ text found, desk.tree.readText p = .ok text ∧
      Lint.lint checks desk.settings.rules desk.settings.perFileIgnores text p.render = .ok found ∧
      findings = [(p.render, found)] := by
  obtain ⟨d, desk₁, hget, h⟩ := exists_of_bind h
  cases hget
  obtain ⟨text, desk₂, hread, h⟩ := exists_of_bind h
  obtain ⟨htext, rfl⟩ := of_lift hread
  obtain ⟨found, desk₃, hrules, h⟩ := exists_of_bind h
  obtain ⟨hfound, rfl⟩ := of_lift hrules
  obtain ⟨hfindings, rfl⟩ := of_pure h
  exact ⟨rfl, text, found, htext, hfound, hfindings.symm⟩

/-- What a job says and does about the format of a file. -/
def FormatStep (tools : Layout.Tools) (desk : Desk) (p : Path) (parts : List Report.Part)
    (desk' : Desk) : Prop :=
  if desk.settings.reformat.truthy || desk.settings.check.truthy then
    ∃ changes, parts = [.changes changes] ∧ Reformats tools desk p changes desk'
  else parts = [] ∧ desk' = desk

/-- What a job says about the findings in a file. -/
def LintStep (checks : List (String × Lint.Check)) (s : Settings) (t : Tree) (p : Path)
    (findings : List Report.Part) : Prop :=
  if s.lint.truthy then
    ∃ text found, t.readText p = .ok text ∧
      Lint.lint checks s.rules s.perFileIgnores text p.render = .ok found ∧
      findings = [.findings [(p.render, found)]]
  else findings = []

/-- Linting comes last and leaves the desk alone. -/
theorem of_findings {checks : List (String × Lint.Check)} {changes : List Report.Part}
    {report : Report.FileReport} (h : (do
      let findings ←
        if (← get).settings.lint.truthy then
          pure [Report.Part.findings (← lint checks p)]
        else pure []
      return changes ++ findings : Job Report.FileReport).run.run desk = (.ok report, desk')) :
    ∃ findings, report = changes ++ findings ∧ LintStep checks desk.settings desk.tree p findings ∧
        desk' = desk := by
  unfold LintStep
  obtain ⟨d, desk₀, hget, h⟩ := exists_of_bind h
  cases hget
  dsimp only at h
  split at h
  next hon =>
    obtain ⟨found, desk₁, hfound, h⟩ := exists_of_bind h
    obtain ⟨parts, desk₂, hparts, h⟩ := exists_of_bind h
    obtain ⟨hreport, rfl⟩ := of_pure h
    obtain ⟨rfl, rfl⟩ := of_pure hparts
    obtain ⟨rfl, text, findings, htext, hfindings, rfl⟩ := of_lint hfound
    refine ⟨_, hreport.symm, ?_, rfl⟩
    rw [if_pos hon]
    exact ⟨text, findings, htext, hfindings, rfl⟩
  next hoff =>
    obtain ⟨parts, desk₁, hparts, h⟩ := exists_of_bind h
    obtain ⟨hreport, rfl⟩ := of_pure h
    obtain ⟨rfl, rfl⟩ := of_pure hparts
    exact ⟨_, hreport.symm, by rw [if_neg hoff], rfl⟩

/-- All that a job says and does.  It lints by the settings that formatting leaves. -/
theorem of_process {checks : List (String × Lint.Check)} {report : Report.FileReport}
    (h : (process tools checks p).run.run desk = (.ok report, desk')) : ∃ changes findings,
      report = changes ++ findings ∧ FormatStep tools desk p changes desk' ∧
      LintStep checks desk'.settings desk'.tree p findings := by
  unfold FormatStep
  obtain ⟨d, desk₁, hget, h⟩ := exists_of_bind h
  cases hget
  dsimp only at h
  split at h
  next hon =>
    obtain ⟨changes, desk₂, hchanges, h⟩ := exists_of_bind h
    obtain ⟨parts, desk₃, hparts, h⟩ := exists_of_bind h
    obtain ⟨rfl, rfl⟩ := of_pure hparts
    obtain ⟨findings, hreport, hlint, rfl⟩ := of_findings h
    refine ⟨_, findings, hreport, ?_, hlint⟩
    rw [if_pos hon]
    exact ⟨changes, rfl, of_reformat hchanges⟩
  next hoff =>
    obtain ⟨parts, desk₂, hparts, h⟩ := exists_of_bind h
    obtain ⟨rfl, rfl⟩ := of_pure hparts
    obtain ⟨findings, hreport, hlint, rfl⟩ := of_findings h
    refine ⟨_, findings, hreport, ?_, hlint⟩
    rw [if_neg hoff]
    exact ⟨rfl, rfl⟩

section keeping

variable (htools : tools.Keeps)

include htools

theorem Reformats.same {changes : Report.Changes} (h : Reformats tools desk p changes desk') :
    SameButCode desk.settings desk'.settings := by
  obtain ⟨text, result, -, hresult, -⟩ := h
  have hsame := htools.format text desk.settings
  rwa [hresult] at hsame

theorem FormatStep.same {parts : List Report.Part} (h : FormatStep tools desk p parts desk') :
    SameButCode desk.settings desk'.settings := by
  unfold FormatStep at h
  split at h
  · obtain ⟨changes, -, h⟩ := h
    exact h.same htools
  · rw [h.2]
    exact .refl _

/-- The effect of a job on the tree. -/
theorem tree_of_process {checks : List (String × Lint.Check)} {report : Report.FileReport}
    {formats checksOnly : Bool} (hr : desk.settings.reformat = .bool formats)
    (hc : desk.settings.check = .bool checksOnly) (hstdin : desk.settings.stdin = false)
    (h : (process tools checks p).run.run desk = (.ok report, desk')) :
    if formats && !checksOnly then
      ∃ text result, desk.tree.readExactly p = .ok text ∧
        Layout.formatted tools desk.settings text = .ok result ∧
        desk'.tree = desk.tree.put p (.file (String.ofList result).toUTF8)
    else desk'.tree = desk.tree := by
  obtain ⟨changes, findings, -, hformat, -⟩ := of_process h
  have hsame := hformat.same htools
  unfold FormatStep at hformat
  split at hformat
  next hon =>
    obtain ⟨changes, -, text, result, htext, hresult, -, htree⟩ := hformat
    rw [hsame.check_eq, hsame.stdin_eq, hc, hstdin] at htree
    rw [hr, hc] at hon
    cases checksOnly with
    | true => simpa [Value.isBool] using htree
    | false =>
      rw [if_pos (by simpa [Value.truthy] using hon)]
      exact ⟨text, result, htext, congrArg Prod.fst hresult, by simpa [Value.isBool] using htree⟩
  next hoff =>
    rw [hr, hc] at hoff
    rw [if_neg (by simp_all [Value.truthy]), hformat.2]

end keeping

end Job

/-! ### A list of jobs -/

variable {checks : List (String × Lint.Check)} {s : Settings}

/-- One step of a list of jobs. -/
def processNext (tools : Layout.Tools) (checks : List (String × Lint.Check)) (s : Settings)
    (done : List (Outcome Report.FileReport) × Tree) (p : Path) :
    List (Outcome Report.FileReport) × Tree :=
  let ended := (Job.process tools checks p).run.run { tree := done.2, settings := s }
  (done.1 ++ [ended.1], ended.2.tree)

theorem processAll_eq (files : List Path) (t : Tree) : processAll tools checks s files t =
    (((files.foldl (processNext tools checks s) ([], t)).1.mapM id),
    (files.foldl (processNext tools checks s) ([], t)).2) :=
  rfl

theorem foldl_processNext (files : List Path) :
    ∀ (done : List (Outcome Report.FileReport)) (t : Tree),
    files.foldl (processNext tools checks s) (done, t) =
      (done ++ (files.foldl (processNext tools checks s) ([], t)).1,
      (files.foldl (processNext tools checks s) ([], t)).2) := by
  induction files with
  | nil => simp
  | cons p files ih =>
    intro done t
    simp only [List.foldl_cons, processNext]
    rw [ih, ih ([] ++ _)]
    simp

/-- A list of jobs that answers: the first job does, and so do the others on the tree that it
leaves. -/
theorem of_processAll_cons {p : Path} {files : List Path} {t : Tree}
    {reports : List Report.FileReport}
    (h : (processAll tools checks s (p :: files) t).1 = .ok reports) :
    ∃ report desk rest, (Job.process tools checks p).run.run { tree := t, settings := s } =
      (.ok report, desk) ∧
      (processAll tools checks s files desk.tree).1 = .ok rest ∧ reports = report :: rest ∧
      (processAll tools checks s (p :: files) t).2 =
      (processAll tools checks s files desk.tree).2 := by
  simp only [processAll_eq, List.foldl_cons, processNext] at h ⊢
  cases hp : (Job.process tools checks p).run.run { tree := t, settings := s } with
  | mk o desk =>
    rw [hp] at h
    rw [foldl_processNext] at h ⊢
    rw [List.nil_append, List.singleton_append, List.mapM_cons] at h
    obtain ⟨report, ho, h⟩ := Outcome.exists_of_bind h
    obtain ⟨rest, hrest, h⟩ := Outcome.exists_of_bind h
    exact ⟨report, desk, rest, by rw [← ho]; rfl, hrest, (Except.ok.inj h).symm, rfl⟩

/-- How often a list leads to the file of a path. -/
def Files.Tree.visits (t : Tree) (files : List Path) (f : Path) : Nat :=
  files.countP fun q => t.resolve q = t.resolve f

/-- Jobs that do not write leave the tree as it is. -/
theorem tree_of_processAll (htools : tools.Keeps) {formats checksOnly : Bool}
    (hr : s.reformat = .bool formats) (hc : s.check = .bool checksOnly) (hstdin : s.stdin = false)
    (hoff : (formats && !checksOnly) = false)
    (files : List Path) : ∀ {t : Tree} {reports : List Report.FileReport},
      (processAll tools checks s files t).1 = .ok reports →
      (processAll tools checks s files t).2 = t := by
  induction files with
  | nil => intro t reports _; rfl
  | cons p files ih =>
    intro t reports h
    obtain ⟨report, desk, rest, hp, hrest, -, htree⟩ := of_processAll_cons h
    have hjob := Job.tree_of_process htools hr hc hstdin hp
    rw [if_neg (by simp [hoff])] at hjob
    rw [htree, ih hrest, hjob]

/-- Jobs that write change each file as often as the list leads to it, and nothing else. -/
theorem entry?_of_processAll (htools : tools.Keeps) {formats checksOnly : Bool}
    (hr : s.reformat = .bool formats) (hc : s.check = .bool checksOnly) (hstdin : s.stdin = false)
    (hon : (formats && !checksOnly) = true)
    (f : Path) (files : List Path) : ∀ {t : Tree} {reports : List Report.FileReport},
      (processAll tools checks s files t).1 = .ok reports →
      (t.visits files f = 0 → Tree.entry? (processAll tools checks s files t).2 f = t.entry? f) ∧
      ∀ bytes, t.entry? f = some (.file bytes) → ∃ after,
        rewritten tools s (t.visits files f) bytes = .ok after ∧
        Tree.entry? (processAll tools checks s files t).2 f = some (.file after) := by
  induction files with
  | nil => exact fun _ => ⟨fun _ => rfl, fun bytes hf => ⟨bytes, rfl, hf⟩⟩
  | cons p files ih =>
    intro t reports h
    obtain ⟨report, desk, rest, hp, hrest, -, htree⟩ := of_processAll_cons h
    have hjob := Job.tree_of_process htools hr hc hstdin hp
    rw [if_pos hon] at hjob
    obtain ⟨text, result, htext, hresult, hput⟩ := hjob
    dsimp only at htext hresult hput
    obtain ⟨ihnone, ihfile⟩ := ih hrest
    have hvisits : desk.tree.visits files f = t.visits files f := by
      simp only [Tree.visits, hput, Tree.resolve_put]
    rw [hvisits] at ihnone ihfile
    rw [htree]
    obtain ⟨bytes, hbytes, hdecode⟩ := Tree.exists_of_readExactly htext
    by_cases hpf : t.resolve p = t.resolve f
    · -- The job writes the file, and the other jobs start from what it wrote.
      have hcount : t.visits (p :: files) f = t.visits files f + 1 := by
        simp [Tree.visits, hpf]
      have hf : t.entry? f = some (.file bytes) := by
        rw [← hbytes, Tree.entry?_congr hpf]
      have hnow : desk.tree.entry? f = some (.file (String.ofList result).toUTF8) := by
        rw [hput, Tree.entry?_put, if_pos ⟨hpf.symm, Tree.parts_ne_nil hf⟩]
      rw [hcount]
      refine ⟨fun h0 => absurd h0 (Nat.succ_ne_zero _), fun bytes' hf' => ?_⟩
      obtain rfl : bytes' = bytes := by
        rw [hf] at hf'
        cases hf'
        rfl
      rw [rewritten, hdecode, Outcome.ok_bind, hresult]
      exact ihfile _ hnow
    · have hcount : t.visits (p :: files) f = t.visits files f := by
        simp [Tree.visits, hpf]
      have hnow : desk.tree.entry? f = t.entry? f := by
        rw [hput, Tree.entry?_put, if_neg fun h => hpf h.1.symm]
      rw [hcount, ← hnow]
      exact ⟨ihnone, ihfile⟩

end TemplateTidy
