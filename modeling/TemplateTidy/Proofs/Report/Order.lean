import Mathlib.Data.List.Nodup
import TemplateTidy.Proofs.Job
import TemplateTidy.Proofs.Layout.Total
import TemplateTidy.Proofs.Lint.Selection

/-! # Reports do not depend on the order of the jobs

Jobs may end in any order.  The reports of files with different names are sorted by name before they
are told (`sortReports_perm`), and the statistics count codes, whatever order they come in
(`tellStatistics_perm`).  So all that is said about a list of jobs, the number that comes out of it
and the failure that ends it are the same for every order (`tell_perm`). -/

namespace TemplateTidy

open Files

/-! ### Sorting by a text -/

/-- A list that is sorted by a text is in the order of the texts. -/
theorem pairwise_mergeSort_le {α : Type} (key : α → String) (l : List α) :
    (l.mergeSort fun a b => !decide (key b < key a)).Pairwise (key · ≤ key ·) := by
  have hle : ∀ a b : α, (!decide (key b < key a)) = true ↔ key a ≤ key b := by
    intro a b
    rw [Bool.not_eq_true', decide_eq_false_iff_not, String.not_lt]
  refine (List.pairwise_mergeSort (fun a b c hab hbc => ?_) (fun a b => ?_) l).imp fun {a b} =>
    (hle a b).1
  · rw [hle] at hab hbc ⊢
    exact String.le_trans hab hbc
  · rw [Bool.or_eq_true, hle, hle]
    exact String.le_total _ _

/-- Sorting by a text gives the same list for each order of elements whose texts differ. -/
theorem mergeSort_perm_of_nodup {α : Type} (key : α → String) {l l' : List α}
    (hnodup : (l.map key).Nodup)
    (hperm : l'.Perm l) : (l'.mergeSort fun a b => !decide (key b < key a)) =
      l.mergeSort fun a b => !decide (key b < key a) := by
  refine List.Perm.eq_of_pairwise (fun a b ha hb hab hba => ?_) (pairwise_mergeSort_le key l')
    (pairwise_mergeSort_le key l) ((List.mergeSort_perm l' _).trans
      (hperm.trans (List.mergeSort_perm l _).symm))
  have ha : a ∈ l := hperm.mem_iff.1 ((List.mergeSort_perm l' _).mem_iff.1 ha)
  have hb : b ∈ l := (List.mergeSort_perm l _).mem_iff.1 hb
  exact List.inj_on_of_nodup_map hnodup ha hb (String.le_antisymm hab hba)

theorem nodup_eraseDups {α : Type} [BEq α] [LawfulBEq α] : ∀ l : List α, l.eraseDups.Nodup
  | [] => List.nodup_nil
  | a :: l => by
      rw [List.eraseDups_cons, List.nodup_cons]
      exact ⟨by simp, nodup_eraseDups _⟩
termination_by l => l.length
decreasing_by exact Nat.lt_succ_of_le (List.length_filter_le _ _)

theorem sortedNames_perm {l l' : List String} (h : l'.Perm l) : sortedNames l' = sortedNames l := by
  have hperm : l'.eraseDups.Perm l.eraseDups := by
    rw [List.perm_ext_iff_of_nodup (nodup_eraseDups l') (nodup_eraseDups l)]
    intro a
    rw [List.mem_eraseDups, List.mem_eraseDups, h.mem_iff]
  exact mergeSort_perm_of_nodup id (by rw [List.map_id]; exact nodup_eraseDups l) hperm

namespace Report

/-! ### Statistics -/

theorem tally_perm {codes codes' : List String} (h : codes'.Perm codes) :
    tally codes' = tally codes := by
  unfold tally
  rw [sortedNames_perm h]
  congr 1
  funext c
  rw [h.count_eq]

/-- The findings of the first files. -/
def firstFindings (all : List (Option Findings)) : List Lint.Finding :=
  all.flatMap fun
    | some ((_, found) :: _) => found
    | _ => []

theorem codesOf_eq (all : List (Option Findings)) :
    codesOf all = .ok ((firstFindings all).map (·.code.render)) := by
  unfold codesOf
  show (firstFindings all).mapM _ = _
  induction firstFindings all with
  | nil => rfl
  | cons f found ih =>
    refine Outcome.mapM_cons_of_ok ?_ ih
    split
    next code hcode => simp only [hcode, Value.render]
    next => rfl

theorem tellStatistics_perm (s : Settings) {all all' : List (Option Findings)} (h : all'.Perm all) :
    tellStatistics s all' = tellStatistics s all := by
  have hcodes : ((firstFindings all').map (·.code.render)).Perm
      ((firstFindings all).map (·.code.render)) :=
    (h.flatMap_right _).map _
  have hempty : all'.isEmpty = all.isEmpty := by
    rw [Bool.eq_iff_iff, List.isEmpty_iff, List.isEmpty_iff]
    exact ⟨fun h' => List.perm_nil.1 (h' ▸ h.symm), fun h' => List.perm_nil.1 (h' ▸ h)⟩
  unfold tellStatistics
  rw [codesOf_eq, codesOf_eq, hempty]
  simp only [Stateful.lift, pure_bind, tally_perm hcodes, hcodes.length_eq]

/-! ### Reports of jobs -/

/-- A report that a job on a file may give under settings. -/
def IsReport (s : Settings) (p : Path) (r : FileReport) : Prop :=
  ∃ tools checks desk desk', desk.settings = s ∧
    (Job.process tools checks p).run.run desk = (.ok r, desk')

/-- The report of a job is sorted by the name of its file, unless the job has nothing to do. -/
theorem name_of_isReport {s : Settings} {p : Path} {r : FileReport} (h : IsReport s p r) :
    (s.reformat.truthy = false ∧ s.check.truthy = false ∧ s.lint.truthy = false ∧ r = []) ∨
      ((s.reformat.truthy || s.check.truthy || s.lint.truthy) = true ∧ r.name = .ok p.render) := by
  obtain ⟨tools, checks, desk, desk', rfl, h⟩ := h
  obtain ⟨changes, findings, rfl, hformat, hlint⟩ := Job.of_process h
  unfold Job.FormatStep at hformat
  unfold Job.LintStep at hlint
  split at hformat
  next hon =>
    obtain ⟨_, rfl, text, result, -, -, rfl, -⟩ := hformat
    exact .inr ⟨by rw [hon, Bool.true_or], rfl⟩
  next hoff =>
    rw [Bool.not_eq_true, Bool.or_eq_false_iff] at hoff
    obtain ⟨rfl, rfl⟩ := hformat
    split at hlint
    next hon =>
      obtain ⟨text, found, -, -, rfl⟩ := hlint
      exact .inr ⟨by rw [hon, Bool.or_true], rfl⟩
    next hnone =>
      exact .inl ⟨hoff.1, hoff.2, Bool.not_eq_true _ ▸ hnone, hlint⟩

/-- Reports with their names. -/
theorem sortReports_eq {done : List (Path × FileReport)}
    (h : ∀ d ∈ done, d.2.name = .ok d.1.render) : sortReports (done.map (·.2)) =
      .ok (((done.map fun d => (d.1.render, d.2)).mergeSort fun a b =>
      !decide (b.1 < a.1)).map (·.2)) := by
  have hnamed : (done.map (·.2)).mapM (fun r : FileReport =>
      (do return (← r.name, r) : Outcome (String × FileReport))) =
      .ok (done.map fun d => (d.1.render, d.2)) := by
    induction done with
    | nil => rfl
    | cons d done ih =>
      have hd := h d List.mem_cons_self
      have hrest := ih fun d' hd' => h d' (List.mem_cons_of_mem d hd')
      exact Outcome.mapM_cons_of_ok (by rw [hd]; rfl) hrest
  unfold sortReports
  rw [hnamed]
  rfl

/-- Reports of files with different names are sorted in the same way whatever order they come in. -/
theorem sortReports_perm {done done' : List (Path × FileReport)}
    (hname : ∀ d ∈ done, d.2.name = .ok d.1.render)
    (hnodup : (done.map (·.1.render)).Nodup) (hperm : done'.Perm done) :
    sortReports (done'.map (·.2)) = sortReports (done.map (·.2)) := by
  rw [sortReports_eq hname, sortReports_eq fun d hd => hname d (hperm.mem_iff.1 hd)]
  have hkeys : ((done.map fun d => (d.1.render, d.2)).map (·.1)).Nodup := by
    rw [List.map_map]
    exact hnodup
  have hsort := mergeSort_perm_of_nodup (fun a : String × FileReport => a.1) hkeys (hperm.map _)
  rw [hsort]

/-- What is told about jobs on files with different names does not depend on the order in which they
end: the same is said, and the answer or the failure is the same. -/
theorem tell_perm (s : Settings) (fileCount : Int) {done done' : List (Path × FileReport)}
    (hdone : ∀ d ∈ done, IsReport s d.1 d.2) (hnodup : (done.map (·.1.render)).Nodup)
    (hperm : done'.Perm done) :
    tell s (done'.map (·.2)) fileCount = tell s (done.map (·.2)) fileCount := by
  have hstatistics := tellStatistics_perm s ((hperm.map (·.2)).map FileReport.findings?)
  have hsort : sortReports (done'.map (·.2)) = sortReports (done.map (·.2)) := by
    cases hon : s.reformat.truthy || s.check.truthy || s.lint.truthy with
    | true =>
      refine sortReports_perm (fun d hd => ?_) hnodup hperm
      obtain ⟨h₁, h₂, h₃, -⟩ | ⟨-, hname⟩ := name_of_isReport (hdone d hd)
      · simp [h₁, h₂, h₃] at hon
      · exact hname
    | false =>
      -- Jobs with nothing to do all report the same.
      have hnone : ∀ l : List (Path × FileReport), (∀ d ∈ l, d ∈ done) →
          l.map (·.2) = List.replicate l.length [] := by
        intro l hl
        rw [← List.length_map (f := (·.2))]
        refine List.eq_replicate_of_mem fun r hr => ?_
        obtain ⟨d, hd, rfl⟩ := List.mem_map.1 hr
        obtain ⟨-, -, -, hr⟩ | ⟨hsome, -⟩ := name_of_isReport (hdone d (hl d hd))
        · exact hr
        · rw [hon] at hsome
          cases hsome
      rw [hnone done fun _ => id, hnone done' fun d => hperm.mem_iff.1, hperm.length_eq]
  unfold tell
  rw [hsort, hstatistics]

/-- Settings that lint with the rules on letters and count their codes. -/
def letterSettings : Settings :=
  { Settings.standard 4
    120 with lint := .bool true, statistics := .bool true, rules := Lint.letterRules }

/-- A tree with two files of two letters each. -/
def letterTree : Tree :=
  { current := ⟨true, ["site"]⟩,
    entries := [(⟨true, ["site", "a.html"]⟩, .file ⟨#[97, 98]⟩),
      (⟨true, ["site", "b.html"]⟩, .file ⟨#[97, 98]⟩)] }

/-- A job that lints a file and no more reports what the rules find. -/
theorem isReport_of_lint {checks : List (String × Lint.Check)} {s : Settings} {t : Tree} {p : Path}
    {text : List Char} {found : List Lint.Finding} (hr : s.reformat.truthy = false)
    (hc : s.check.truthy = false) (hl : s.lint.truthy = true) (hread : t.readText p = .ok text)
    (hfound : Lint.lint checks s.rules s.perFileIgnores text p.render = .ok found) :
    IsReport s p [.findings [(p.render, found)]] := by
  have hlint : (Job.lint checks p).run.run ⟨t, s⟩ = (.ok [(p.render, found)], ⟨t, s⟩) := by
    have htext : (Stateful.lift (t.readText p) : Job _).run.run ⟨t, s⟩ = (.ok text, ⟨t, s⟩) := by
      rw [Stateful.run_lift, hread]
    have hrules : (Stateful.lift (Lint.lint checks s.rules s.perFileIgnores text p.render) : Job
        _).run.run ⟨t, s⟩ = (.ok found, ⟨t, s⟩) := by
      rw [Stateful.run_lift, hfound]
    unfold Job.lint
    rw [Stateful.run_get_bind, Stateful.run_bind htext, Stateful.run_bind hrules]
    rfl
  refine ⟨.builtin, checks, ⟨t, s⟩, ⟨t, s⟩, rfl, ?_⟩
  unfold Job.process
  rw [Stateful.run_get_bind]
  simp only [hr, hc, Bool.or_self, Bool.false_eq_true, if_false, pure_bind]
  rw [Stateful.run_get_bind, if_pos hl, Stateful.run_bind hlint]
  rfl

theorem exists_isReport_letters {p : Path} (hp : letterTree.readText p = .ok ['a', 'b']) :
    ∃ r, IsReport letterSettings p r := by
  obtain ⟨found, hfound⟩ := Lint.exists_lint_letterRules p.render
  exact ⟨_, isReport_of_lint rfl rfl rfl hp hfound⟩

/-- Two files in both orders. -/
theorem tell_perm_letters : ∃ r r' : FileReport,
    IsReport letterSettings (.ofString "a.html") r ∧
      IsReport letterSettings (.ofString "b.html") r' ∧
      tell letterSettings [r', r] 2 = tell letterSettings [r, r'] 2 := by
  obtain ⟨r, hr⟩ := @exists_isReport_letters (.ofString "a.html") (by cbv)
  obtain ⟨r', hr'⟩ := @exists_isReport_letters (.ofString "b.html") (by cbv)
  have hdone : ∀ d ∈ [(Path.ofString "a.html", r), (.ofString "b.html", r')],
      IsReport letterSettings d.1 d.2 := by
    simp [hr, hr']
  have hnames : [(Path.ofString "a.html").render, (Path.ofString "b.html").render].Nodup := by
    rw [show (Path.ofString "a.html").render =
      "a.html" by cbv, show (Path.ofString "b.html").render = "b.html" by cbv]
    decide
  have hperm := tell_perm letterSettings 2 hdone hnames (List.Perm.swap _ _ _)
  simp only [List.map_cons, List.map_nil] at hperm
  exact ⟨r, r', hr, hr', hperm⟩

end Report

end TemplateTidy
