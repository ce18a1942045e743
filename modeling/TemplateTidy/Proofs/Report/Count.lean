import Mathlib
import TemplateTidy.Proofs.Outcome
import TemplateTidy.Report.Console

/-! # What reports count

A report that is told to the end answers with the number of files that formatting changes and of
findings (`ensures_tell`), whatever is said on the way. -/

namespace TemplateTidy.Report

open Stateful

namespace FileReport

/-- The number of files that formatting changes. -/
def changed (r : FileReport) : Nat :=
  match r.changes? with
  | some c => (c.filter fun x => !x.2.isEmpty).length
  | none => 0

/-- The number of findings in the first file. -/
def found (r : FileReport) : Nat :=
  match r.findings? with
  | some ((_, found) :: _) => found.length
  | _ => 0

end FileReport

variable (s : Settings)

theorem ensures_tellChanges (c : Changes) :
    Ensures (· = (c.filter fun x => !x.2.isEmpty).length) (tellChanges s c) := by
  cases c with
  | nil => exact .pure rfl
  | cons first rest =>
    unfold tellChanges
    dsimp only
    split
    · exact .bind fun _ => .bind fun _ => .pure rfl
    · exact .pure rfl

/-- Elements with their keys are the same elements. -/
theorem map_snd_of_keyed {α κ : Type} {key : α → Outcome κ} {as : List α} {keyed : List (κ × α)}
    (h : as.mapM (fun a => do return (← key a, a)) = .ok keyed) : keyed.map (·.2) = as := by
  refine Outcome.map_of_mapM (fun a k h => ?_) h
  obtain ⟨x, -, h⟩ := Outcome.exists_of_bind h
  rw [← Except.ok.inj h]

/-- Sorted findings are the same findings. -/
theorem perm_of_sortFindings {found sorted : List Lint.Finding}
    (h : sortFindings found = .ok sorted) : sorted.Perm found := by
  obtain ⟨keyed, hkeyed, h⟩ := Outcome.exists_of_bind h
  obtain rfl := Except.ok.inj h
  rw [← map_snd_of_keyed hkeyed]
  exact (List.mergeSort_perm keyed _).map _

theorem ensures_tellFindings (name : String) (found : List Lint.Finding) (rest : Findings) :
    Ensures (· = found.length) (tellFindings s ((name, found) :: rest)) := by
  unfold tellFindings
  refine (Ensures.lift _).seq fun sorted hsorted => ?_
  have hlength := (perm_of_sortFindings hsorted).length_eq
  split
  next hempty =>
    rw [List.isEmpty_iff.1 hempty] at hlength
    exact .pure hlength
  next =>
    refine .bind fun heading => ?_
    dsimp only
    split
    · exact .bind fun _ => .bind fun _ => .pure hlength
    · exact .bind fun _ => .pure hlength

/-- What is told about findings comes after what is told about changes, if anything is. -/
theorem ensures_tellFound (r : FileReport) {n : Nat} (hn : n = r.changed) :
    Ensures (· = (r.changed, r.found)) (match r.findings? with
      | some f => if f.isEmpty then do
            let found ← pure 0
            pure (n, found)
          else do
            let found ← tellFindings s f
            pure (n, found)
      | none => do
        let found ← pure 0
        pure (n, found) : Run (Nat × Nat)) := by
  subst hn
  unfold FileReport.found
  cases r.findings? with
  | none => exact .pure rfl
  | some f =>
    cases f with
    | nil => exact .pure rfl
    | cons first rest =>
      refine (ensures_tellFindings s first.1 first.2 rest).seq fun m hm => .pure ?_
      rw [hm]

theorem ensures_tellFile (hstdin : s.stdin = false) (r : FileReport) :
    Ensures (· = (r.changed, r.found)) (tellFile s r) := by
  unfold tellFile
  dsimp only
  rw [hstdin]
  cases hchanges : r.changes? with
  | none =>
    have hnone : r.changed = 0 := by rw [FileReport.changed, hchanges]
    exact ensures_tellFound s r hnone.symm
  | some c =>
    have hsome : r.changed = (c.filter fun x => !x.2.isEmpty).length := by
      rw [FileReport.changed, hchanges]
    exact (ensures_tellChanges s c).seq fun n hn => ensures_tellFound s r (hn.trans hsome.symm)

/-- Sorted reports are the same reports. -/
theorem perm_of_sortReports {reports sorted : List FileReport}
    (h : sortReports reports = .ok sorted) : sorted.Perm reports := by
  obtain ⟨named, hnamed, h⟩ := Outcome.exists_of_bind h
  obtain rfl := Except.ok.inj h
  rw [← map_snd_of_keyed hnamed]
  exact (List.mergeSort_perm named _).map _

/-- Telling the reports of files answers with the number of findings and of files that formatting
changes. -/
theorem ensures_tell (hstdin : s.stdin = false) (reports : List FileReport) (fileCount : Int) :
    Ensures (· = (reports.map FileReport.found).sum + (reports.map FileReport.changed).sum)
      (tell s reports fileCount) := by
  have hcounts : ∀ sorted counts, sortReports reports = .ok sorted →
      counts = sorted.map (fun r => (r.changed, r.found)) →
      (counts.map (·.2)).foldl (· + ·) 0 + (counts.map (·.1)).foldl (· + ·) 0 =
        (reports.map FileReport.found).sum + (reports.map FileReport.changed).sum := by
    rintro sorted counts hsorted rfl
    have hperm := perm_of_sortReports hsorted
    rw [List.map_map, List.map_map, ← List.sum_eq_foldl_nat, ← List.sum_eq_foldl_nat]
    rw [← (hperm.map FileReport.found).sum_nat, ← (hperm.map FileReport.changed).sum_nat]
    rfl
  unfold tell
  dsimp only
  -- The line before the reports is said or not; what follows is the same.
  split
  case' isTrue => refine .bind fun _ => ?_
  all_goals
    refine (Ensures.lift _).seq fun sorted hsorted => ?_
    refine (Ensures.mapM (ensures_tellFile s hstdin) sorted).seq fun counts hmap => ?_
    have hsum := hcounts sorted counts hsorted hmap
    -- What is said after the counting does not change the answer.
    repeat'
      first
      | exact .pure hsum
      | refine .bind fun _ => ?_
      | split

end TemplateTidy.Report
