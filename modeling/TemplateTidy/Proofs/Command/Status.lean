import TemplateTidy.Proofs.Command.Writes
import TemplateTidy.Proofs.Layout.Reuse
import TemplateTidy.Proofs.Report.Flaws

/-! # The exit status

Where evaluations neither see nor change the settings, a run on named sources ends with status 1
exactly if it is not asked to warn only and one of its files is flawed, and with status 0 otherwise.
The switches that say how to report have no influence on it: they set three options (`silent_set`)
that neither the loader of settings (`alike_load`) nor the layouts and rules look at
(`isFlawed_congr`).  Both are in `run_status`. -/

namespace TemplateTidy

open Files Stateful

/-! ### Flaws do not depend on how they are reported -/

variable {tools : Layout.Tools} (htools : tools.Blind)

include htools

theorem formatTimes_congr {s s' : Settings} (h : Layout.plainView s' = Layout.plainView s) :
    Layout.formatted tools s' = Layout.formatted tools s ∧
      Layout.formatTimes tools s' = Layout.formatTimes tools s := by
  have honce : Layout.formatted tools s' = Layout.formatted tools s := by
    funext text
    obtain ⟨o, ho⟩ := Layout.steady_format htools (Layout.isView_plainView s) text
    exact (ho s' h).1.trans (ho s rfl).1.symm
  refine ⟨honce, ?_⟩
  funext n
  induction n with
  | zero => rfl
  | succ n ih =>
    funext text
    rw [Layout.formatTimes, Layout.formatTimes, honce, ih]

theorem isFlawed_congr {s s' : Settings} (h : Layout.plainView s' = Layout.plainView s)
    (checks : List (String × Lint.Check)) (t : Tree) (formats checksOnly lints : Bool)
    (done : List Path) (p : Path) :
    IsFlawed tools checks s' t formats checksOnly lints done p ↔
    IsFlawed tools checks s t formats checksOnly lints done p := by
  obtain ⟨honce, htimes⟩ := formatTimes_congr htools h
  have hrules : (Layout.plainView s').rules = (Layout.plainView s).rules := by rw [h]
  have hignores : (Layout.plainView s').perFileIgnores = (Layout.plainView s).perFileIgnores := by
    rw [h]
  change s'.rules = s.rules at hrules
  change s'.perFileIgnores = s.perFileIgnores at hignores
  unfold IsFlawed FormatChanges RulesFind HasText
  rw [honce, htimes, hrules, hignores]

namespace Command

omit htools

/-! ### Switches that say how to report -/

/-- The switches that say how to report. -/
def reportSwitches : List String :=
  ["--quiet", "--statistics", "--linter-output-format"]

/-- Whether a use of a switch says what to do, not how to report. -/
def isOrder (u : Switch × List String) : Bool :=
  u.1.long ∉ reportSwitches

/-- Options with nothing said about reports. -/
def silent (o : Overrides) : Overrides :=
  { o with quiet := .bool false, statistics := .bool false, linterOutputFormat := .text "" }

theorem silent_set : ∀ w ∈ switches, ∀ (o : Overrides) (v : Value),
    silent (w.set o v) = if w.long ∈ reportSwitches then silent o else w.set (silent o) v := by
  simp only [switches, List.forall_mem_cons, List.not_mem_nil, false_imp_iff, implies_true,
    and_true]
  constructorm* _ ∧ _
  all_goals intro o v
  all_goals first | rfl | (split <;> rfl)

/-- What uses of switches set, apart from reports, is set by the orders among them. -/
theorem setAll_orders {t : Tree} : ∀ {uses : List (Switch × List String)} {o o' : Overrides},
    (∀ u ∈ uses, u.1 ∈ switches) → setAll t uses o = .ok o' → setAll t (uses.filter isOrder)
    (silent o) = .ok (silent o')
  | [], o, o', _, h => by
      cases h
      rfl
  | (w, args) :: uses, o, o', hknown, h => by
      obtain ⟨hw, hrest⟩ := List.forall_mem_cons.1 hknown
      obtain ⟨v, hv, h⟩ := of_setAll_cons h
      have hlater := setAll_orders hrest h
      rw [silent_set w hw] at hlater
      by_cases hreport : w.long ∈ reportSwitches
      · rw [List.filter_cons_of_neg (by simp [isOrder, hreport])]
        rwa [if_pos hreport] at hlater
      · rw [List.filter_cons_of_pos (by simp [isOrder, hreport])]
        rw [if_neg hreport] at hlater
        exact setAll_cons hv hlater

theorem eraseDups_filter (keep : String → Bool) : ∀ names : List String,
    (names.filter keep).eraseDups = names.eraseDups.filter keep
  | [] => rfl
  | name :: names => by
      have hrest := eraseDups_filter keep (names.filter fun other => !other == name)
      rw [List.filter_filter] at hrest
      rw [List.eraseDups_cons]
      cases hkeep : keep name with
      | true =>
        rw [List.filter_cons_of_pos hkeep, List.filter_cons_of_pos hkeep, List.eraseDups_cons,
          List.filter_filter, ← hrest]
        simp only [Bool.and_comm]
      | false =>
        rw [List.filter_cons_of_neg (by simp [hkeep]), List.filter_cons_of_neg (by simp [hkeep]),
          ← hrest]
        congr 1
        refine List.filter_congr fun other _ => ?_
        by_cases heq : other = name
        · simp [heq, hkeep]
        · simp [heq]
termination_by names => names.length
decreasing_by exact Nat.lt_succ_of_le (List.length_filter_le _ _)

/-- The uses of a switch that count. -/
def countedUses (uses : List (Switch × List String)) (name : String) :
    List (Switch × List String) :=
  match (uses.filter (·.1.long == name)).getLast? with
  | some u => if u.1.taking = .pair then uses.filter (·.1.long == name) else [u]
  | none => []

theorem lastUses_eq (uses : List (Switch × List String)) :
    lastUses uses = (uses.map (·.1.long)).eraseDups.flatMap (countedUses uses) :=
  rfl

theorem long_of_mem_countedUses {uses : List (Switch × List String)} {name : String}
    {u : Switch × List String} (h : u ∈ countedUses uses name) : u.1.long = name := by
  have hown : ∀ u ∈ uses.filter (·.1.long == name), u.1.long = name := fun u hu =>
    beq_iff_eq.1 (List.mem_filter.1 hu).2
  unfold countedUses at h
  split at h
  next last hlast =>
    split at h
    · exact hown u h
    · rw [List.mem_singleton.1 h]
      exact hown last (List.mem_of_getLast? hlast)
  next => exact absurd h List.not_mem_nil

/-- A switch counts among the orders as it counts among all uses, or is no order. -/
theorem countedUses_orders (uses : List (Switch × List String)) (name : String) :
    (countedUses uses name).filter isOrder =
      if name ∈ reportSwitches then [] else countedUses (uses.filter isOrder) name := by
  split
  next hreport =>
    refine List.filter_eq_nil_iff.2 fun u hu => ?_
    simp [isOrder, long_of_mem_countedUses hu, hreport]
  next horder =>
    have hown : (uses.filter isOrder).filter (·.1.long == name) = uses.filter
        (·.1.long == name) := by
      rw [List.filter_filter]
      refine List.filter_congr fun u _ => ?_
      by_cases heq : u.1.long = name
      · simp [isOrder, heq, horder]
      · simp [heq]
    have hsame : countedUses (uses.filter isOrder) name = countedUses uses name := by
      unfold countedUses
      rw [hown]
    rw [hsame]
    refine List.filter_eq_self.2 fun u hu => ?_
    simp [isOrder, long_of_mem_countedUses hu, horder]

/-- The orders that count are those that count among the orders. -/
theorem lastUses_orders (uses : List (Switch × List String)) :
    lastUses (uses.filter isOrder) = (lastUses uses).filter isOrder := by
  have hnames : (uses.filter isOrder).map (·.1.long) =
      (uses.map (·.1.long)).filter fun name => name ∉ reportSwitches := by
    rw [List.filter_map]
    rfl
  rw [lastUses_eq, lastUses_eq, hnames, eraseDups_filter, List.filter_flatMap]
  simp only [countedUses_orders]
  induction (uses.map (·.1.long)).eraseDups with
  | nil => rfl
  | cons name names ih =>
    rw [List.flatMap_cons, ← ih]
    by_cases hreport : name ∈ reportSwitches
    · rw [List.filter_cons_of_neg (by simp [hreport]), if_pos hreport, List.nil_append]
    · rw [List.filter_cons_of_pos (by simp [hreport]), if_neg hreport, List.flatMap_cons]

theorem gives_orders {r r' : Reading} (h : r'.uses.filter isOrder = r.uses.filter isOrder)
    {long : String} (hlong : long ∉ reportSwitches) : r'.gives long = r.gives long := by
  have horders : ∀ r : Reading, r.gives long = (r.uses.filter isOrder).any (·.1.long == long) := by
    intro r
    unfold Reading.gives
    rw [List.any_filter]
    congr 1
    funext u
    by_cases heq : u.1.long = long
    · simp [isOrder, heq, hlong]
    · simp [heq]
  rw [horders, horders, h]

/-! ### Settings and files do not depend on how to report -/

theorem alike_load (t : Tree) (src : String) {given given' : Overrides}
    (h : silent given' = silent given) :
    Alike (fun s s' => Layout.plainView s' = Layout.plainView s) (Settings.load t src given)
      (Settings.load t src given') := by
  have heq : given' = { given with
      quiet := given'.quiet
      statistics := given'.statistics
      linterOutputFormat := given'.linterOutputFormat } :=
    congrArg (fun o : Overrides => { o with
      quiet := given'.quiet
      statistics := given'.statistics
      linterOutputFormat := given'.linterOutputFormat }) h
  rw [heq]
  unfold Settings.load
  dsimp only
  -- Whichever way the loader takes, it takes the same way for both, and the records at its end look
  -- alike.
  repeat'
    first
    | exact .pure rfl
    | exact .throw _ _
    | refine .bind fun _ => ?_
    | split

theorem discover_congr {s s' : Settings} (h : Layout.plainView s' = Layout.plainView s) (t : Tree)
    (sources : List Path) : Discovery.discover s' t sources = Discovery.discover s t sources := by
  have hview : ∀ s : Settings, Discovery.discover (Layout.plainView s) t sources =
      Discovery.discover s t sources :=
    fun _ => rfl
  rw [← hview s', h, hview s]

theorem exists_of_workOf {t : Tree} {args : List String} {s : Settings} {files : List Path}
    (h : workOf t args = some (s, files)) : ∃ request j, Request.ofArguments t args = .ok request ∧
      request.help = false ∧ (request.work t).run.run {} = (.ok (s, files), j) := by
  unfold workOf at h
  split at h
  next request hrequest =>
    split at h
    · cases h
    next hhelp =>
      cases hrun : (request.work t).run.run {} with
      | mk o j =>
        rw [hrun] at h
        cases o with
        | error e => cases h
        | ok work =>
          obtain rfl := Option.some.inj h
          exact ⟨request, j, hrequest, Bool.not_eq_true _ ▸ hhelp, hrun⟩
  next => cases h

/-- Command lines that differ in what they say about reports work on the same files, under settings
that look alike. -/
theorem work_congr {t : Tree} {args args' : List String} {r r' : Reading} {s s' : Settings}
    {files files' : List Path} (hr : readArguments args.length {} args = .ok r)
    (hr' : readArguments args'.length {} args' = .ok r') (hsources : r'.sources = r.sources)
    (horders : r'.uses.filter isOrder = r.uses.filter isOrder)
    (h : workOf t args = some (s, files)) (h' : workOf t args' = some (s', files')) :
    Layout.plainView s' = Layout.plainView s ∧ files' = files := by
  have hknown : ∀ {args : List String} {r : Reading}, readArguments args.length {} args = .ok r →
      ∀ u ∈ lastUses r.uses, u.1 ∈ switches := fun hr u hu =>
    isKnown_of_readArguments (fun u hu => absurd hu List.not_mem_nil) hr u (mem_of_mem_lastUses hu)
  obtain ⟨request, j, hrequest, hhelp, hwork⟩ := exists_of_workOf h
  obtain ⟨request', j', hrequest', hhelp', hwork'⟩ := exists_of_workOf h'
  obtain ⟨o, ho, hoverrides, hsame, -⟩ := overrides_of_ofArguments hr hrequest hhelp
  obtain ⟨o', ho', hoverrides', hsame', -⟩ := overrides_of_ofArguments hr' hrequest' hhelp'
  have hset := setAll_orders (hknown hr) ho
  have hset' := setAll_orders (hknown hr') ho'
  rw [← lastUses_orders] at hset hset'
  rw [horders, hset] at hset'
  have hgiven : silent request'.overrides = silent request.overrides := by
    rw [hoverrides, hoverrides']
    exact congrArg Overrides.withDefaultJob (Except.ok.inj hset').symm
  obtain ⟨s₁, j₁, hload, hrest⟩ := exists_of_bind hwork
  obtain ⟨found, j₂, hfound, hrest⟩ := exists_of_bind hrest
  cases (of_pure hrest).1
  obtain ⟨s₂, j₁', hload', hrest'⟩ := exists_of_bind hwork'
  obtain ⟨found', j₂', hfound', hrest'⟩ := exists_of_bind hrest'
  cases (of_pure hrest').1
  rw [hsame', hsources] at hload' hfound'
  rw [hsame] at hload hfound
  obtain ⟨hview, rfl⟩ := alike_load _ _ hgiven _ _ _ _ _ hload hload'
  rw [discover_congr hview, hfound] at hfound'
  cases hfound'
  exact ⟨hview, rfl⟩

/-! ### The status -/

theorem exitStatus_le_one (s : Settings) (reports : List Report.FileReport) :
    exitStatus s reports ≤ 1 := by
  unfold exitStatus
  dsimp only
  split
  · exact Nat.le_refl 1
  · exact Nat.zero_le 1

theorem exitStatus_eq_one_iff {s : Settings} {warns : Bool} (hwarn : s.warn = .bool warns)
    (reports : List Report.FileReport) :
    exitStatus s reports = 1 ↔ warns = false ∧ ∃ r ∈ reports, r.found + r.changed ≠ 0 := by
  have hsum : ∀ reports : List Report.FileReport,
      (reports.map Report.FileReport.found).sum + (reports.map Report.FileReport.changed).sum ≠ 0 ↔
        ∃ r ∈ reports, r.found + r.changed ≠ 0 := by
    intro reports
    induction reports with
    | nil => simp
    | cons r reports ih =>
      simp only [List.map_cons, List.sum_cons, List.mem_cons, exists_eq_or_imp, ← ih]
      omega
  unfold exitStatus
  rw [hwarn, ← hsum]
  cases warns <;> simp [Value.isBool]

include htools

/-- The status of a run that works on files. -/
theorem status_of_run {checks : List (String × Lint.Check)} {program : String} {args : List String}
    {input : List Char} {t : Tree} {r : Reading} {status : Nat}
    (hr : readArguments args.length {} args = .ok r) (hdash : "-" ∉ r.sources)
    (hend : (runWith tools checks program args input t).ending = .exit status) :
    (workOf t args = none ∧ r.help = true ∧ status = 0) ∨
    ∃ s files, workOf t args = some (s, files) ∧ r.help = false ∧ status ≤ 1 ∧
      (status = 1 ↔ r.gives "--warn" = false ∧ ∃ done p later, files = done ++ p :: later ∧
        IsFlawed tools checks s t (r.gives "--reformat") (r.gives "--check") r.lints done p) := by
  have hdone : ∀ e, (runWith tools checks program args input t).ending ≠ .failed e := by
    intro e he
    rw [he] at hend
    cases hend
  obtain ⟨hnone, -, hstatus⟩ | ⟨request, s, files, reports, -, hrequest, hsome, hfollows, hreports,
      -, hexit⟩ :=
    ending_of_run hr hdash hdone
  · exact .inl ⟨hnone, hstatus status hend⟩
  · have hcounted := exists_counted_iff htools.keeps (hfollows.reformat.trans hrequest.reformat)
      (hfollows.check.trans hrequest.check) (hfollows.lint.trans hrequest.lint)
        hfollows.stdin files hreports
    rw [hend] at hexit
    obtain rfl : status = exitStatus s reports := by
      cases hexit
      rfl
    refine .inr ⟨s, files, hsome, hrequest.help, exitStatus_le_one s reports, ?_⟩
    rw [exitStatus_eq_one_iff (hfollows.warn.trans hrequest.warn), hcounted]

/-- A run on named sources that ends with an exit status ends with 0 if it is asked for help.
Otherwise it ends with 1 exactly if it is not asked to warn only and one of its files is flawed, and
with 0 if not.  How it is asked to report does not change the status. -/
theorem run_status (checks : List (String × Lint.Check)) (program : String) (args : List String)
    (input : List Char) (t : Tree) {r : Reading} {status : Nat}
    (hr : readArguments args.length {} args = .ok r) (hdash : "-" ∉ r.sources)
    (hend : (runWith tools checks program args input t).ending = .exit status) :
    (workOf t args = none → status = 0) ∧
    (∀ s files, workOf t args = some (s, files) → status ≤ 1 ∧
      (status = 1 ↔ r.gives "--warn" = false ∧ ∃ done p later, files = done ++ p :: later ∧
        IsFlawed tools checks s t (r.gives "--reformat") (r.gives "--check") r.lints done p)) ∧
    ∀ (program' : String) (args' : List String) (input' : List Char) (r' : Reading) (status' : Nat),
      readArguments args'.length {} args' = .ok r' → r'.sources = r.sources → r'.help = r.help →
      r'.uses.filter isOrder = r.uses.filter isOrder →
      (runWith tools checks program' args' input' t).ending = .exit status' → status' = status := by
  obtain ⟨hnone, hhelp, rfl⟩ | ⟨s, files, hsome, hhelp, hle, hiff⟩ :=
    status_of_run htools hr hdash hend
  · refine ⟨fun _ => rfl, fun s files hsome => ?_, ?_⟩
    · rw [hnone] at hsome
      cases hsome
    · intro program' args' input' r' status' hr' hsources hhelp' horders hend'
      rw [← hsources] at hdash
      obtain ⟨-, -, hstatus⟩ | ⟨s', files', -, hno, -⟩ := status_of_run htools hr' hdash hend'
      · exact hstatus
      · rw [hhelp', hhelp] at hno
        cases hno
  · refine ⟨fun hnone => ?_, fun s' files' hsome' => ?_, ?_⟩
    · rw [hsome] at hnone
      cases hnone
    · rw [hsome] at hsome'
      cases hsome'
      exact ⟨hle, hiff⟩
    · intro program' args' input' r' status' hr' hsources hhelp' horders hend'
      rw [← hsources] at hdash
      obtain ⟨-, hyes, -⟩ | ⟨s', files', hsome', -, hle', hiff'⟩ :=
        status_of_run htools hr' hdash hend'
      · rw [hhelp', hhelp] at hyes
        cases hyes
      · -- Both runs look for the same flaws in the same files.
        obtain ⟨hview, rfl⟩ := work_congr hr hr' hsources horders hsome hsome'
        have hlints : r'.lints = r.lints := by
          unfold Reading.lints
          rw [gives_orders horders (by decide), gives_orders horders (by decide),
            gives_orders horders (by decide)]
        rw [gives_orders horders (by decide), gives_orders horders (by decide),
          gives_orders horders (by decide), hlints] at hiff'
        simp only [isFlawed_congr htools hview] at hiff'
        have hsame : status' = 1 ↔ status = 1 := hiff'.trans hiff.symm
        omega

end Command

end TemplateTidy
