import TemplateTidy.Proofs.Command.Options
import TemplateTidy.Proofs.Job
import TemplateTidy.Proofs.Report.Count

/-! # What a run writes

Where evaluations leave the settings alone, a run on named sources writes only the files that it
works on, and only if it is asked to format and not to check (`run_writes`). -/

namespace TemplateTidy.Command

open Files Stateful

variable {tools : Layout.Tools}

/-- The settings and the files that a request with named sources works on. -/
def Request.work (request : Request) (t : Tree) : Run (Settings × List Path) := do
  let s ← Settings.load t (request.sources.headD "") request.overrides
  return (s, ← Discovery.discover s t (request.sources.map Path.ofString))

/-- The settings and the files that a command line works on; none if it asks for help or is not in
order. -/
def workOf (t : Tree) (args : List String) : Option (Settings × List Path) :=
  match Request.ofArguments t args with
  | .ok request => if request.help then none else ((request.work t).run.run {}).1.toOption
  | .error _ => none

namespace Act

variable {α : Type} {scene scene' : Scene}

theorem of_ofRun {r : Run α} {a : α} (h : (ofRun r).run.run scene = (.ok a, scene')) :
    r.run.run scene.journal = (.ok a, scene'.journal) ∧ scene'.tree = scene.tree := by
  obtain ⟨d, scene₁, hget, h⟩ := exists_of_bind h
  cases hget
  cases hr : r.run.run scene.journal with
  | mk o j =>
    rw [hr] at h
    obtain ⟨u, scene₂, hset, h⟩ := exists_of_bind h
    cases hset
    obtain ⟨rfl, rfl⟩ := of_lift h
    exact ⟨rfl, rfl⟩

end Act

/-- The wishes of a request are those of its settings, and its files are not the standard input. -/
theorem follows_of_work {request : Request} {t : Tree} {s : Settings}
    {files : List Path} {j j' : Journal}
    (h : (request.work t).run.run j = (.ok (s, files), j')) : s.Follows request.overrides := by
  obtain ⟨s', j₁, hload, h⟩ := exists_of_bind h
  obtain ⟨files', j₂, -, h⟩ := exists_of_bind h
  cases (of_pure h).1
  exact Settings.of_load _ _ _ _ _ _ hload

/-- The exit status that reports lead to. -/
def exitStatus (s : Settings) (reports : List Report.FileReport) : Nat :=
  let n := (reports.map Report.FileReport.found).sum + (reports.map Report.FileReport.changed).sum
  if n != 0 && s.warn.isBool false then 1 else 0

/-- The second half of a request: the jobs are done, and then nothing touches the tree any more.
The reports say how it ends. -/
theorem of_jobs {checks : List (String × Lint.Check)} {s : Settings} {files : List Path}
    {scene scene' : Scene} {status : Nat} (hstdin : s.stdin = false)
    (h : (do
      let scene ← get
      let (results, tree) := processAll tools checks s files scene.tree
      set { scene with tree }
      let reports ← Stateful.lift results
      if s.stdin && (s.reformat.truthy || s.check.truthy) then
        let text ← Stateful.lift (tree.readText inputPath)
        Act.ofRun (Run.hand (String.ofList (Text.stripRight text)))
      let n ← Act.ofRun (Report.tell s reports files.length)
      return if n != 0 && s.warn.isBool false then 1 else 0 :
        Act Nat).run.run scene = (.ok status, scene')) :
    ∃ reports, (processAll tools checks s files scene.tree).1 = .ok reports ∧
      scene'.tree = (processAll tools checks s files scene.tree).2 ∧
      status = exitStatus s reports := by
  obtain ⟨d, scene₁, hget, h⟩ := exists_of_bind h
  cases hget
  cases hall : processAll tools checks s files scene.tree with
  | mk results tree =>
    rw [hall] at h
    obtain ⟨u, scene₂, hset, h⟩ := exists_of_bind h
    cases hset
    obtain ⟨reports, scene₃, hlift, h⟩ := exists_of_bind h
    obtain ⟨hreports, rfl⟩ := of_lift hlift
    rw [hstdin] at h
    obtain ⟨n, scene₄, htell, h⟩ := exists_of_bind h
    obtain ⟨hstatus, rfl⟩ := of_pure h
    obtain ⟨htell, htree⟩ := Act.of_ofRun htell
    have hn := Report.ensures_tell s hstdin reports _ _ _ _ htell
    exact ⟨reports, hreports, htree, by rw [← hstatus, hn]; rfl⟩

/-- A request with named sources that is done has found its files and done all the jobs. -/
theorem of_perform {checks : List (String × Lint.Check)} {request : Request} {input : List Char}
    {scene scene' : Scene} {status : Nat} (hdash : "-" ∉ request.sources)
    (h : (perform tools checks request input).run.run scene = (.ok status, scene')) :
    ∃ s files j reports, (request.work scene.tree).run.run scene.journal = (.ok (s, files), j) ∧
      (processAll tools checks s files scene.tree).1 = .ok reports ∧
      scene'.tree = (processAll tools checks s files scene.tree).2 ∧
      status = exitStatus s reports := by
  obtain ⟨d, scene₁, hget, h⟩ := exists_of_bind h
  cases hget
  obtain ⟨s, scene₂, hload, h⟩ := exists_of_bind h
  obtain ⟨hload, htree₂⟩ := Act.of_ofRun hload
  obtain ⟨⟨s', files⟩, scene₃, hcollect, h⟩ := exists_of_bind h
  unfold collect at hcollect
  rw [if_pos (by simpa using hdash)] at hcollect
  obtain ⟨d, scene₄, hget, hcollect⟩ := exists_of_bind hcollect
  cases hget
  obtain ⟨files', scene₅, hdiscover, hcollect⟩ := exists_of_bind hcollect
  obtain ⟨hdiscover, htree₅⟩ := Act.of_ofRun hdiscover
  obtain ⟨hpair, rfl⟩ := of_pure hcollect
  cases hpair
  rw [htree₂] at hdiscover htree₅
  have hwork : (request.work scene.tree).run.run scene.journal =
      (.ok (s, files), scene₅.journal) := by
    unfold Request.work
    rw [run_bind hload, run_bind hdiscover]
    rfl
  have hstdin := (follows_of_work hwork).stdin
  dsimp only at h
  split at h
  next hempty =>
    rw [List.isEmpty_iff.1 hempty] at hwork
    obtain ⟨hstatus, rfl⟩ := of_pure h
    exact ⟨s, [], _, [], hwork, rfl, htree₅, hstatus.symm⟩
  next =>
    rw [← htree₅] at hwork ⊢
    split at h
    · obtain ⟨u, scene₆, hsay, h⟩ := exists_of_bind h
      rw [← (Act.of_ofRun hsay).2] at hwork ⊢
      exact ⟨s, files, _, _, hwork, (of_jobs hstdin h).choose_spec⟩
    · exact ⟨s, files, _, _, hwork, (of_jobs hstdin h).choose_spec⟩

/-- A run on named sources that does not fail leaves the tree alone and has no fault to tell, or
does the jobs that its command line asks for and ends as their reports say. -/
theorem ending_of_run {checks : List (String × Lint.Check)} {program : String} {args : List String}
    {input : List Char} {t : Tree} {r : Reading} (hr : readArguments args.length {} args = .ok r)
    (hdash : "-" ∉ r.sources)
    (hend : ∀ e, (runWith tools checks program args input t).ending ≠ .failed e) :
    (workOf t args = none ∧ (runWith tools checks program args input t).tree = t ∧
      ∀ status, (runWith tools checks program args input t).ending = .exit status →
        r.help = true ∧ status = 0) ∨
    ∃ request s files reports, Request.ofArguments t args = .ok request ∧ request.Follows r ∧
      workOf t args = some (s, files) ∧ s.Follows request.overrides ∧
      (processAll tools checks s files t).1 = .ok reports ∧
      (runWith tools checks program args input t).tree = (processAll tools checks s files t).2 ∧
      (runWith tools checks program args input t).ending = .exit (exitStatus s reports) := by
  unfold runWith workOf at *
  cases hrequest : Request.ofArguments t args with
  | error fault =>
    refine .inl ⟨rfl, rfl, fun status h => ?_⟩
    cases h
  | ok request =>
    simp only [hrequest] at hend ⊢
    cases hhelp : request.help with
    | true =>
      refine .inl ⟨rfl, rfl, fun status h => ?_⟩
      cases h
      exact ⟨help_of_ofArguments hr hrequest hhelp, rfl⟩
    | false =>
      have hfollows := follows_of_ofArguments hr hrequest hhelp
      simp only [hhelp, Bool.false_eq_true, if_false] at hend ⊢
      cases hperform : (perform tools checks request input).run.run { tree := t } with
      | mk o scene =>
        cases o with
        | error e => exact absurd (by rw [hperform]) (hend e)
        | ok status =>
          rw [← hfollows.sources] at hdash
          obtain ⟨s, files, j, reports, hwork, hreports, htree, rfl⟩ := of_perform hdash hperform
          refine .inr ⟨request, s, files, reports, rfl, hfollows, ?_, follows_of_work hwork,
            hreports, htree, rfl⟩
          rw [show ((request.work t).run.run {}) = _ from hwork]
          rfl

theorem of_run {checks : List (String × Lint.Check)} {program : String} {args : List String}
    {input : List Char} {t : Tree} {r : Reading} (hr : readArguments args.length {} args = .ok r)
    (hdash : "-" ∉ r.sources)
    (hend : ∀ e, (runWith tools checks program args input t).ending ≠ .failed e) :
    (workOf t args = none ∧ (runWith tools checks program args input t).tree = t) ∨
    ∃ s files reports, workOf t args = some (s, files) ∧ s.reformat = .bool (r.gives "--reformat") ∧
      s.check = .bool (r.gives "--check") ∧ s.stdin = false ∧
      (processAll tools checks s files t).1 = .ok reports ∧
      (runWith tools checks program args input t).tree = (processAll tools checks s files t).2 := by
  obtain ⟨hnone, htree, -⟩ | ⟨request, s, files, reports, -, hrequest, hsome, hfollows, hreports,
      htree, -⟩ :=
    ending_of_run hr hdash hend
  · exact .inl ⟨hnone, htree⟩
  · have hs := hfollows.reformat.trans hrequest.reformat
    have hc := hfollows.check.trans hrequest.check
    exact .inr ⟨s, files, reports, hsome, hs, hc, hfollows.stdin, hreports, htree⟩

/-- What a run on named sources leaves of a file: the file formatted as often as the run works on it
if the run formats and does not check, and the file as it was otherwise.  A path that the run does
not work on keeps what it leads to. -/
theorem run_writes (htools : tools.Keeps) (checks : List (String × Lint.Check)) (program : String)
    (args : List String) (input : List Char) (t : Tree) {r : Reading}
    (hr : readArguments args.length {} args = .ok r) (hdash : "-" ∉ r.sources)
    (hend : ∀ e, (runWith tools checks program args input t).ending ≠ .failed e) :
    (workOf t args = none → (runWith tools checks program args input t).tree = t) ∧
    ∀ s files, workOf t args = some (s, files) → ∀ f,
      (t.visits files f = 0 →
        (runWith tools checks program args input t).tree.entry? f = t.entry? f) ∧
      ∀ bytes, t.entry? f = some (.file bytes) →
        if r.gives "--reformat" ∧ ¬r.gives "--check" ∧ 0 < t.visits files f then
          ∃ text result, Tree.decode bytes = .ok text ∧
            Layout.formatTimes tools s (t.visits files f) text = .ok result ∧
            (runWith tools checks program args input t).tree.entry? f =
              some (.file (String.ofList result).toUTF8)
        else (runWith tools checks program args input t).tree.entry? f = some (.file bytes) := by
  obtain ⟨hnone, htree⟩ | ⟨s, files, reports, hsome, hs, hc, hstdin, hreports, htree⟩ :=
    of_run hr hdash hend
  · refine ⟨fun _ => htree, fun s files hsome => ?_⟩
    rw [hnone] at hsome
    cases hsome
  rw [hsome, htree]
  refine ⟨fun hnone => (by cases hnone), fun s' files' heq f => ?_⟩
  cases heq
  cases hwrites : r.gives "--reformat" && !r.gives "--check" with
  | false =>
    rw [tree_of_processAll htools hs hc hstdin hwrites files hreports]
    refine ⟨fun _ => rfl, fun bytes hf => ?_⟩
    rw [if_neg (by simp_all), hf]
  | true =>
    obtain ⟨hunlisted, hlisted⟩ := entry?_of_processAll htools hs hc hstdin hwrites f files hreports
    refine ⟨hunlisted, fun bytes hf => ?_⟩
    split
    next h =>
      obtain ⟨after, hafter, hentry⟩ := hlisted bytes hf
      obtain ⟨n, hn⟩ := Nat.exists_eq_succ_of_ne_zero (Nat.ne_of_gt h.2.2)
      rw [hn] at hafter ⊢
      obtain ⟨text, result, htext, hresult, rfl⟩ := exists_of_rewritten hafter
      exact ⟨text, result, htext, hresult, hentry⟩
    next h =>
      simp only [Bool.and_eq_true, Bool.not_eq_true'] at hwrites
      rw [hunlisted (by simpa [hwrites] using h), hf]

end TemplateTidy.Command
