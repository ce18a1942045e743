import TemplateTidy.Proofs.Lint.RulesOff
import TemplateTidy.Proofs.Report.Count
import TemplateTidy.Proofs.Report.Order

/-! # Statistics agree with the listing

The statistics have a row for each code that occurs in the results of a lint, in the order of the
codes (`Tabulates`).  If the names of all rules are texts they are always told to the end, and they
come to the sum of the numbers that telling the findings file by file comes to
(`tellStatistics_agrees`).  A rule whose name is a list ends them with a failure
(`tellStatistics_listRule`). -/

namespace TemplateTidy

/-- The journal after some lines are said. -/
def Journal.saying (j : Journal) (lines : List String) : Journal :=
  { j with lines := (lines.map Text.plain).reverse ++ j.lines }

theorem Journal.saying_saying (j : Journal) (a b : List String) :
    (j.saying a).saying b = j.saying (a ++ b) := by
  simp [saying]

theorem Run.run_say (line : String) (j : Journal) :
    (Run.say line).run.run j = (.ok ⟨⟩, j.saying [line]) := rfl

/-- A loop that says a line for each element of a list. -/
theorem Run.run_forIn {α : Type} {line : α → String} {body : α → PUnit → Run (ForInStep PUnit)} :
    ∀ {l : List α},
    (∀ a ∈ l, ∀ j, (body a ⟨⟩).run.run j = (.ok (.yield ⟨⟩), j.saying [line a])) → ∀ j : Journal,
      (forIn l ⟨⟩ body : Run PUnit).run.run j = (.ok ⟨⟩, j.saying (l.map line))
  | [], _, _ => rfl
  | a :: l, h, j => by
      rw [List.forIn_cons, Stateful.run_bind (h a List.mem_cons_self j)]
      refine (run_forIn (fun a' ha' => h a' (List.mem_cons_of_mem a ha')) _).trans ?_
      rw [Journal.saying_saying]
      rfl

namespace Report

open Lint

variable {s : Settings} {rules : List Rule} {found : List Finding}
  {results : List (Option Findings)}

/-! ### Rows -/

/-- A row of the statistics. -/
structure Row where
  code : String
  count : Nat
  message : Value

/-- The greatest length of some texts. -/
def longest (texts : List String) : Nat :=
  (texts.map String.length).foldl max 0

/-- The line of a row among others.  Its columns have room for the name of each rule and the number
of each row. -/
def Row.line (rules : List Rule) (rows : List Row) (row : Row) : String :=
  row.code ++ " " ++ padding (longest (rules.map (·.name.render))) row.code ++ toString row.count ++
    " " ++
    padding (longest (rows.map (toString ·.count))) (toString row.count) ++ row.message.render

/-- The last rule of a name. -/
def IsLast (rules : List Rule) (name : String) (rule : Rule) : Prop :=
  ∃ before after : List Rule, rules = before ++ rule :: after ∧ rule.name = .text name ∧
    ∀ r ∈ after, r.name ≠ .text name

/-- The rows tell about each code that occurs, in increasing order, how often it occurs and the
message of the last rule of that name. -/
structure Tabulates (rules : List Rule) (found : List Finding) (rows : List Row) : Prop where
  increasing : rows.Pairwise (·.code < ·.code)
  occurs : ∀ code, (∃ row ∈ rows, row.code = code) ↔ ∃ f ∈ found, f.code = .text code
  count_eq : ∀ row ∈ rows, row.count = found.countP (·.code == .text row.code)
  message_last : ∀ row ∈ rows, ∃ rule, IsLast rules row.code rule ∧ rule.message = row.message

/-- The message of the last rule of a name. -/
def messageOf? (rules : List Rule) (code : String) : Option Value :=
  (rules.map fun r => (r.name.render, r.message)).reverse.lookup code

theorem exists_last (hnames : ∀ rule ∈ rules, ∃ name, rule.name = .text name) {code : String}
    (h : ∃ rule ∈ rules, rule.name = .text code) :
    ∃ rule, IsLast rules code rule ∧ messageOf? rules code = some rule.message := by
  induction rules using List.reverseRecOn with
  | nil => simp at h
  | append_singleton rules last ih =>
    obtain ⟨name, hname⟩ := hnames last (by simp)
    have hlookup : messageOf? (rules ++ [last]) code =
        if code == name then some last.message else messageOf? rules code := by
      simp only [messageOf?, List.map_append, List.map_cons, List.map_nil, List.reverse_append,
        List.reverse_singleton, List.singleton_append, List.lookup_cons, hname, Value.render]
      cases code == name <;> rfl
    by_cases hcode : code = name
    · subst hcode
      exact ⟨last, ⟨rules, [], rfl, hname, by simp⟩, by rw [hlookup, beq_self_eq_true, if_pos rfl]⟩
    · have hother : last.name ≠ .text code := by
        rw [hname]
        rintro ⟨⟩
        exact hcode rfl
      obtain ⟨rule, hrule, hrname⟩ := h
      obtain hrule | hrule := List.mem_append.1 hrule
      · obtain ⟨own, ⟨before, after, rfl, hown, hafter⟩, hmessage⟩ :=
          ih (fun r hr => hnames r (List.mem_append_left _ hr)) ⟨rule, hrule, hrname⟩
        refine ⟨own, ⟨before, after ++ [last], by simp, hown, fun r hr => ?_⟩, ?_⟩
        · obtain hr | hr := List.mem_append.1 hr
          · exact hafter r hr
          · rwa [List.mem_singleton.1 hr]
        · rw [hlookup, if_neg (by simpa using hcode), hmessage]
      · rw [List.mem_singleton.1 hrule] at hrname
        exact absurd hrname hother

theorem sortedNames_increasing (names : List String) : (sortedNames names).Pairwise (· < ·) := by
  have hnodup : (sortedNames names).Nodup :=
    (List.mergeSort_perm _ _).nodup_iff.2 (nodup_eraseDups names)
  exact ((pairwise_mergeSort_le id names.eraseDups).and hnodup).imp fun h => lt_of_le_of_ne h.1 h.2

/-- The row of a code with its number. -/
def rowOf (rules : List Rule) (c : String × Nat) : Row :=
  { code := c.1, count := c.2, message := (messageOf? rules c.1).getD .null }

/-- The rows of findings. -/
def rowsOf (rules : List Rule) (found : List Finding) : List Row :=
  (tally (found.map (·.code.render))).map (rowOf rules)

/-- The codes of the findings are the names of rules. -/
def Named (rules : List Rule) (found : List Finding) : Prop :=
  ∀ f ∈ found, ∃ rule ∈ rules, f.code = rule.name

section

variable (hnames : ∀ rule ∈ rules, ∃ name, rule.name = .text name) (hfound : Named rules found)

include hnames hfound

theorem render_eq_iff {f : Finding} (hf : f ∈ found) (code : String) :
    f.code.render = code ↔ f.code = .text code := by
  obtain ⟨rule, hrule, hcode⟩ := hfound f hf
  obtain ⟨name, hname⟩ := hnames rule hrule
  rw [hcode, hname, Value.render, Value.text.injEq]

theorem mem_sortedCodes_iff {code : String} :
    code ∈ sortedNames (found.map (·.code.render)) ↔ ∃ f ∈ found, f.code = .text code := by
  rw [sortedNames, (List.mergeSort_perm _ _).mem_iff, List.mem_eraseDups, List.mem_map]
  exact exists_congr fun f => and_congr_right fun hf => render_eq_iff hnames hfound hf code

/-- A code that occurs is the name of a last rule. -/
theorem exists_message {c : String × Nat} (hc : c ∈ tally (found.map (·.code.render))) :
    ∃ rule, IsLast rules c.1 rule ∧ messageOf? rules c.1 = some rule.message := by
  obtain ⟨code, hcode, rfl⟩ := List.mem_map.1 hc
  obtain ⟨f, hf, hfcode⟩ := (mem_sortedCodes_iff hnames hfound).1 hcode
  obtain ⟨rule, hrule, hname⟩ := hfound f hf
  exact exists_last hnames ⟨rule, hrule, hname.symm.trans hfcode⟩

theorem tabulates_rowsOf : Tabulates rules found (rowsOf rules found) where
  increasing := by
    rw [rowsOf, tally, List.map_map, List.pairwise_map]
    exact sortedNames_increasing _
  occurs code := by
    rw [← mem_sortedCodes_iff hnames hfound]
    simp [rowsOf, rowOf, tally]
  count_eq row hrow := by
    obtain ⟨c, hc, rfl⟩ := List.mem_map.1 hrow
    obtain ⟨code, -, rfl⟩ := List.mem_map.1 hc
    dsimp only [rowOf]
    rw [List.count, List.countP_map]
    refine List.countP_congr fun f hf => ?_
    rw [Function.comp, beq_iff_eq, Value.beq_text_iff]
    exact render_eq_iff hnames hfound hf code
  message_last row hrow := by
    obtain ⟨c, hc, rfl⟩ := List.mem_map.1 hrow
    obtain ⟨rule, hlast, hmessage⟩ := exists_message hnames hfound hc
    exact ⟨rule, hlast, by rw [rowOf, hmessage, Option.getD_some]⟩

end

/-! ### What is said -/

/-- The lines of the statistics. -/
def statisticsLines (rules : List Rule) (rows : List Row) : List String :=
  ["", "Statistics\n" ++ ruler width] ++ rows.map (Row.line rules rows)

theorem run_tellStatistics (hnames : ∀ rule ∈ s.rules, ∃ name, rule.name = .text name)
    (hfound : Named s.rules (firstFindings results)) (hsome : results ≠ []) (j : Journal) :
    (tellStatistics s results).run.run j = (.ok (firstFindings results).length,
      j.saying (statisticsLines s.rules (rowsOf s.rules (firstFindings results)))) := by
  have hall : ∀ p : Value → Bool, (∀ name, p (.text name) = true) →
      (s.rules.any fun r => !p r.name) = false := by
    intro p hp
    rw [List.any_eq_false]
    intro r hr
    obtain ⟨name, hname⟩ := hnames r hr
    simp [hname, hp]
  unfold tellStatistics
  rw [codesOf_eq, hall isKey fun _ => rfl, hall Value.isText fun _ => rfl]
  simp only [List.isEmpty_iff, hsome, if_false, Stateful.lift, pure_bind, Bool.false_eq_true]
  rw [Stateful.run_bind (Run.run_say _ _), Stateful.run_bind (Run.run_say _ _),
    Journal.saying_saying]
  set counts := tally ((firstFindings results).map (·.code.render)) with hcounts
  have hcode : ((s.rules.map fun r => (r.name.render, r.message)).map fun m =>
      m.1.length).foldl max 0 =
      longest (s.rules.map (·.name.render)) := by simp [longest, Function.comp_def]
  have hcount : (counts.map fun c => (toString c.2).length).foldl max 0 =
      longest ((rowsOf s.rules (firstFindings results)).map (toString ·.count)) := by
    simp only [longest, rowsOf, List.map_map, ← hcounts]
    rfl
  rw [hcode, hcount, List.length_map]
  split
  next =>
    have hline := @Run.run_forIn _ fun c =>
      (rowOf s.rules c).line s.rules (rowsOf s.rules (firstFindings results))
    refine (Stateful.run_bind (hline (fun c hc j => ?_) _) _).trans ?_
    · obtain ⟨rule, -, hmessage⟩ := exists_message hnames hfound hc
      have hrow : rowOf s.rules c = ⟨c.1, c.2, rule.message⟩ := by
        rw [rowOf, hmessage, Option.getD_some]
      rw [hrow]
      unfold messageOf? at hmessage
      rw [hmessage]
      rfl
    · rw [Journal.saying_saying, statisticsLines, rowsOf, List.map_map]
      rfl
  next hnone =>
    have hempty : counts = [] := by
      by_contra hne
      obtain ⟨c, hc⟩ := List.exists_mem_of_ne_nil _ hne
      obtain ⟨rule, ⟨before, after, hrules, -⟩, -⟩ := exists_message hnames hfound hc
      simp [hrules, hne] at hnone
    rw [rowsOf, ← hcounts, hempty]
    rfl

/-! ### Results of a lint -/

/-- What a lint under the settings gives for a file, or nothing. -/
def IsResult (s : Settings) (r : Option Findings) : Prop :=
  ∀ findings ∈ r, ∃ name text path found, findings = [(name, found)] ∧
    lint builtinChecks s.rules s.perFileIgnores text path = .ok found

/-- A rule that runs with the known checks is plain. -/
theorem isPlain_of_runRule {doc : Document} {rule : Rule}
    (h : runRule builtinChecks doc rule = .ok found) : rule.IsPlain := by
  intro name hname
  unfold runRule at h
  rw [hname] at h
  cases name with
  | text n =>
    by_cases hn : n = "djlint.rules.H025"
    · rw [hn]
    · have hnone : builtinChecks.lookup n = none := by
        rw [builtinChecks, List.lookup_cons, beq_false_of_ne hn]
        rfl
      dsimp only at h
      rw [hnone] at h
      cases h
  | _ => cases h

/-- A finding of a result comes from a span that counts for a rule. -/
theorem IsResult.exists_marks {r : Option Findings} (h : IsResult s r) {f : Finding}
    (hf : f ∈ firstFindings [r]) :
    ∃ text path, ∃ rule ∈ s.rules, (Document.ofText text path).Marks rule f := by
  cases r with
  | none => cases hf
  | some findings =>
    obtain ⟨name, text, path, found, rfl, hlint⟩ := h findings rfl
    have hf : f ∈ found := by simpa [firstFindings] using hf
    obtain ⟨rule, hrule, part, hpart, hf⟩ := exists_runRule_of_mem_lint hlint hf
    exact ⟨text, path, rule, hrule, marks_of_runRule rfl (isPlain_of_runRule hpart) hpart f hf⟩

theorem firstFindings_cons (r : Option Findings) (results : List (Option Findings)) :
    firstFindings (r :: results) = firstFindings [r] ++ firstFindings results := by
  simp [firstFindings]

theorem named_firstFindings (h : ∀ r ∈ results, IsResult s r) :
    Named s.rules (firstFindings results) := by
  intro f hf
  obtain ⟨r, hr, hf⟩ := List.mem_flatMap.1 hf
  obtain ⟨text, path, rule, hrule, hmarks⟩ :=
    (h r hr).exists_marks (List.mem_flatMap.2 ⟨r, List.mem_singleton_self r, hf⟩)
  exact ⟨rule, hrule, hmarks.code_eq⟩

/-! ### The listing -/

/-- The number that telling the findings of a result may come to. -/
def Lists (s : Settings) : Option Findings → Nat → Prop
  | none, n => n = 0
  | some findings, n => ∃ j j', (tellFindings s findings).run.run j = (.ok n, j')

theorem Lists.eq_length {r : Option Findings} {n : Nat} (h : Lists s r n) :
    n = (firstFindings [r]).length := by
  cases r with
  | none => exact h
  | some findings =>
    obtain ⟨j, j', h⟩ := h
    cases findings with
    | nil => cases h
    | cons first rest =>
      rw [ensures_tellFindings s first.1 first.2 rest j n j' h]
      simp [firstFindings]

theorem sum_of_lists {numbers : List Nat} (h : List.Forall₂ (Lists s) results numbers) :
    numbers.sum = (firstFindings results).length := by
  induction h with
  | nil => rfl
  | cons hr _ ih => rw [firstFindings_cons, List.length_append, List.sum_cons, ih, hr.eq_length]

/-- Findings whose places can be read are told to the end if the heading and the line of each of
them can be written. -/
theorem exists_tellFindings {name : String} (hplaces : ∀ f ∈ found, ∃ key, placeKey f = .ok key)
    (hheading : ∃ b, wantsHeading s = .ok b)
    (hlines : ∀ f ∈ found, ∃ line, findingLine s (relativeName s.projectRoot name) f = .ok line)
    (j : Journal) : ∃ j', (tellFindings s [(name, found)]).run.run j = (.ok found.length, j') := by
  have hsort : ∃ sorted, sortFindings found = .ok sorted :=
    Outcome.exists_bind (Outcome.exists_mapM fun f hf =>
      Outcome.exists_bind (hplaces f hf) fun key => ⟨_, rfl⟩)
      fun keyed => ⟨_, rfl⟩
  obtain ⟨sorted, hsorted⟩ := hsort
  obtain ⟨b, hb⟩ := hheading
  have hperm := perm_of_sortFindings hsorted
  choose! line hline using hlines
  have hloop : ∀ j : Journal, (forIn sorted ⟨⟩ fun f _ => do
      Run.say (← Stateful.lift (findingLine s (relativeName s.projectRoot name) f))
      pure (.yield ⟨⟩) : Run PUnit).run.run j = (.ok ⟨⟩, j.saying (sorted.map line)) := by
    refine Run.run_forIn fun f hf j => ?_
    rw [hline f (hperm.mem_iff.1 hf)]
    rfl
  have hlift : (Stateful.lift (sortFindings found)).run.run j = (.ok sorted, j) := by
    rw [hsorted]
    rfl
  have hwants : (Stateful.lift (wantsHeading s)).run.run j = (.ok b, j) := by
    rw [hb]
    rfl
  unfold tellFindings
  dsimp only
  rw [Stateful.run_bind hlift, ← hperm.length_eq]
  split
  next hempty => exact ⟨j, by rw [List.isEmpty_iff.1 hempty]; rfl⟩
  next =>
    rw [Stateful.run_bind hwants]
    cases b with
    | false =>
      refine ⟨_, (Stateful.run_bind (hloop j) _).trans rfl⟩
    | true =>
      rw [if_pos rfl, Stateful.run_bind (Run.run_say _ j)]
      exact ⟨_, (Stateful.run_bind (hloop _) _).trans rfl⟩

/-- The statistics agree with the listing.  If the names of all rules are texts, then for any
results of a lint, also missing and empty ones, the statistics are told to the end.  They answer
with the number of findings, and say a row for each code that occurs, in increasing order of the
codes, with the number of its findings and the message of the last rule of that name.  Whatever
numbers the listing comes to for the results, their sum is the same; and it does come to an end for
a result of which the heading and the lines can be written. -/
theorem tellStatistics_agrees (hnames : ∀ rule ∈ s.rules, ∃ name, rule.name = .text name)
    (hresults : ∀ r ∈ results, IsResult s r) (j : Journal) :
    (∃ rows, Tabulates s.rules (firstFindings results) rows ∧
      (tellStatistics s results).run.run j = (.ok (firstFindings results).length,
        j.saying (if results = [] then [] else statisticsLines s.rules rows))) ∧
    (∀ numbers, List.Forall₂ (Lists s) results numbers →
      numbers.sum = (firstFindings results).length) ∧
    ∀ name found, some [(name, found)] ∈ results → (∃ b, wantsHeading s = .ok b) →
      (∀ f ∈ found, ∃ line, findingLine s (relativeName s.projectRoot name) f = .ok line) →
      ∃ j', (tellFindings s [(name, found)]).run.run j = (.ok found.length, j') := by
  have hfound := named_firstFindings hresults
  refine ⟨⟨_, tabulates_rowsOf hnames hfound, ?_⟩, fun _ => sum_of_lists,
      fun name found hmem hheading hlines =>
    exists_tellFindings (fun f hf => ?_) hheading hlines j⟩
  · split
    next hnone =>
      subst hnone
      rfl
    next hsome => exact run_tellStatistics hnames hfound hsome j
  · have hf : f ∈ firstFindings [some [(name, found)]] := by simpa [firstFindings] using hf
    obtain ⟨text, path, rule, -, hmarks⟩ := (hresults _ hmem).exists_marks hf
    obtain ⟨span, -, -, hplace⟩ := hmarks.exists_place
    exact ⟨_, placeKey_eq hplace⟩

/-- The rules on letters, for a missing result and one with findings. -/
theorem tellStatistics_agrees_letters : ∃ found rows,
    lint builtinChecks letterSettings.rules letterSettings.perFileIgnores ['a', 'b'] "ab" =
      .ok found ∧
    Tabulates letterSettings.rules found rows ∧
    (tellStatistics letterSettings [none, some [("ab", found)]]).run.run {} =
      (.ok found.length, Journal.saying {} (statisticsLines letterSettings.rules rows)) := by
  obtain ⟨found, hfound⟩ := exists_lint_letterRules "ab"
  have hnames : ∀ rule ∈ letterSettings.rules, ∃ name, rule.name = .text name := by
    simp [letterSettings, letterRules]
  have hresults : ∀ r ∈ [none, some [("ab", found)]], IsResult letterSettings r := by
    intro r hr findings hfindings
    obtain rfl : r = some [("ab", found)] := by
      obtain rfl | hr := List.mem_cons.1 hr
      · cases hfindings
      · exact List.mem_singleton.1 hr
    cases hfindings
    exact ⟨"ab", _, "ab", found, rfl, hfound⟩
  have hfirst : firstFindings [none, some [("ab", found)]] = found := by simp [firstFindings]
  obtain ⟨⟨rows, hrows, hrun⟩, -⟩ := tellStatistics_agrees hnames hresults {}
  rw [hfirst] at hrows hrun
  exact ⟨found, rows, hfound, hrows, hrun⟩

/-- A rule whose name is a list, and finds nothing. -/
def listRule : Rule :=
  { name := .list [.int 5], message := .text "no letter", test := .patterns [] }

/-- A lint with a rule whose name is a list gives a result, but the statistics of the result
fail. -/
theorem tellStatistics_listRule :
    lint builtinChecks [listRule] letterSettings.perFileIgnores [] "a" = .ok [] ∧ ∀ j : Journal,
      (tellStatistics { letterSettings with rules := [listRule] } [some [("a", [])]]).run.run j =
      (.error .wrongType, j) :=
  ⟨rfl, fun _ => rfl⟩

end Report

end TemplateTidy
