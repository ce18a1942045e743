import TemplateTidy.Lint.Run
import TemplateTidy.Proofs.Outcome

/-! # Rules do not influence each other

All findings of a document go into one list, from which repeats are dropped at the end.  A finding
carries the code of its rule (`code_of_runRule`), and findings that repeat each other carry the same
code, so a selection of codes commutes with the removal of repeats (`filter_dropRepeats`) and with
the whole of a lint (`lint_filter`).  To look at one code only, or to switch codes off for a path,
changes nothing about the findings of other codes (`lint_independent`). -/

namespace TemplateTidy

namespace Lint

open Text

variable {checks : List (String × Check)} {doc : Document} {rule : Rule} {rules : List Rule}
  {found : List Finding}

/-! ### The code of a finding -/

/-- A rule that looks for patterns or for orphan tags. -/
def Rule.IsPlain (rule : Rule) : Prop :=
  ∀ name, rule.test = .check name → name = .text "djlint.rules.H025"

/-- A finding of a rule comes from a span that counts. -/
def Document.Marks (doc : Document) (rule : Rule) (f : Finding) : Prop :=
  ∃ s, doc.counts rule.name s = true ∧ doc.finding rule s = .ok f

theorem marks_of_findings {spans : List Span} (h : doc.findings rule spans = .ok found) :
    ∀ f ∈ found, doc.Marks rule f := by
  intro f hf
  obtain ⟨span, hspan, hfinding⟩ := Outcome.exists_of_mem_mapM h f hf
  exact ⟨span, (List.mem_filter.1 hspan).2, hfinding⟩

/-- Findings that are collected part by part come from spans that count if those of each part do. -/
theorem marks_of_flatten {α : Type} {as : List α} {find : α → Outcome (List Finding)}
    {parts : List (List Finding)}
    (hfind : ∀ a fs, find a = .ok fs → ∀ f ∈ fs, doc.Marks rule f) (h : as.mapM find = .ok parts) :
    ∀ f ∈ parts.flatten, doc.Marks rule f := by
  intro f hf
  obtain ⟨part, hpart, hf⟩ := List.mem_flatten.1 hf
  obtain ⟨a, -, ha⟩ := Outcome.exists_of_mem_mapM h part hpart
  exact hfind a part ha f hf

/-- What a plain rule finds comes from spans that count. -/
theorem marks_of_runRule (hchecks : checks.lookup "djlint.rules.H025" = some orphanCheck)
    (hrule : rule.IsPlain)
    (h : runRule checks doc rule = .ok found) : ∀ f ∈ found, doc.Marks rule f := by
  unfold runRule at h
  split at h
  next ps _ =>
    cases hparts : ps.mapM fun p => doc.findings rule (Region.spansOf p doc.text) with
    | error e =>
      rw [hparts] at h
      cases h
    | ok parts =>
      rw [hparts] at h
      rw [← Except.ok.inj h]
      exact marks_of_flatten (fun p fs => marks_of_findings) hparts
  next => exact marks_of_findings h
  next options patterns _ =>
    obtain ⟨elements, -, h⟩ := Outcome.exists_of_bind h
    obtain ⟨parts, hparts, h⟩ := Outcome.exists_of_bind h
    rw [← Except.ok.inj h]
    refine marks_of_flatten (fun pattern fs hfs => ?_) hparts
    obtain ⟨p, -, hfs⟩ := Outcome.exists_of_bind hfs
    exact marks_of_findings hfs
  next name hname =>
    -- The only check of a plain rule is the one for orphan tags.
    cases hrule _ hname
    rw [hchecks] at h
    obtain ⟨answer, hanswer, h⟩ := Outcome.exists_of_bind h
    obtain ⟨spans, hspans, hanswer⟩ := Outcome.exists_of_bind hanswer
    cases Except.ok.inj hanswer
    cases Except.ok.inj h
    exact marks_of_findings hspans
  next => cases h

theorem Document.Marks.code_eq {f : Finding} (h : doc.Marks rule f) : f.code = rule.name := by
  obtain ⟨s, -, hs⟩ := h
  obtain ⟨place, -, hs⟩ := Outcome.exists_of_bind hs
  rw [← Except.ok.inj hs]

/-- What a plain rule finds carries its code. -/
theorem code_of_runRule (hchecks : checks.lookup "djlint.rules.H025" = some orphanCheck)
    (hrule : rule.IsPlain)
    (h : runRule checks doc rule = .ok found) : ∀ f ∈ found, f.code = rule.name :=
  fun f hf => (marks_of_runRule hchecks hrule h f hf).code_eq

/-! ### Selections -/

/-- A choice of codes that does not tell equal codes apart. -/
def IsChoice (P : Value → Bool) : Prop :=
  ∀ a b : Value, (a == b) = true → P a = P b

/-- The removal of repeats, with the findings that are kept so far. -/
theorem filter_foldl_keep {P : Value → Bool} (hP : IsChoice P) (found : List Finding) :
    ∀ kept : List Finding,
    (found.foldl (fun kept f => if kept.any (·.same f) then kept else f :: kept) kept).filter
      (P ·.code) =
      (found.filter (P ·.code)).foldl (fun kept f =>
        if kept.any (·.same f) then kept else f :: kept)
        (kept.filter (P ·.code)) := by
  induction found with
  | nil => exact fun _ => rfl
  | cons f found ih =>
    intro kept
    rw [List.foldl_cons, ih, List.filter_cons]
    cases hf : P f.code with
    | false =>
      rw [if_neg Bool.false_ne_true]
      split
      · rfl
      · rw [List.filter_cons, hf, if_neg Bool.false_ne_true]
    | true =>
      rw [if_pos rfl, List.foldl_cons]
      -- A finding that `f` repeats has an equal code, so it is chosen like `f`.
      have hany : (kept.filter (P ·.code)).any (·.same f) = kept.any (·.same f) := by
        rw [List.any_filter]
        congr 1
        funext g
        cases hg : g.same f with
        | false => rw [Bool.and_false]
        | true =>
          have hcode : (g.code == f.code) = true := by
            simp only [Finding.same, Bool.and_eq_true] at hg
            exact hg.1.1.1
          rw [hP _ _ hcode, hf, Bool.and_true]
      rw [hany]
      split
      · rfl
      · rw [List.filter_cons, hf, if_pos rfl]

/-- Repeats can be dropped before or after a choice of codes. -/
theorem filter_dropRepeats {P : Value → Bool} (hP : IsChoice P) (found : List Finding) :
    (dropRepeats found).filter (P ·.code) = dropRepeats (found.filter (P ·.code)) := by
  unfold dropRepeats
  rw [List.filter_reverse, filter_foldl_keep hP found [], List.filter_nil]

/-- The chosen rules find what all rules find of the chosen codes. -/
theorem runRules_filter {P : Value → Bool}
    (hcode : ∀ rule ∈ rules, ∀ fs, runRule checks doc rule = .ok fs → ∀ f ∈ fs,
      f.code = rule.name) :
    ∀ {parts : List (List Finding)}, rules.mapM (runRule checks doc) = .ok parts →
      ∃ chosen, (rules.filter (P ·.name)).mapM (runRule checks doc) = .ok chosen ∧
        chosen.flatten = parts.flatten.filter (P ·.code) := by
  induction rules with
  | nil =>
    intro parts h
    cases h
    exact ⟨[], rfl, rfl⟩
  | cons rule rules ih =>
    intro parts h
    obtain ⟨own, rest, hown, hrest, rfl⟩ := Outcome.of_mapM_cons h
    obtain ⟨chosen, hchosen, heq⟩ := ih (fun r hr => hcode r (List.mem_cons_of_mem rule hr)) hrest
    have hsame : ∀ f ∈ own, P f.code = P rule.name := by
      intro f hf
      rw [hcode rule List.mem_cons_self own hown f hf]
    rw [List.filter_cons, List.flatten_cons, List.filter_append]
    split
    next hon =>
      have hall : own.filter (P ·.code) = own := List.filter_eq_self.2 fun f hf =>
        (hsame f hf).trans hon
      refine ⟨own :: chosen, Outcome.mapM_cons_of_ok hown hchosen, ?_⟩
      rw [List.flatten_cons, heq, hall]
    next hoff =>
      have hnone : own.filter (P ·.code) = [] := by
        rw [List.filter_eq_nil_iff]
        intro f hf
        rwa [hsame f hf]
      exact ⟨chosen, hchosen, by rw [heq, hnone, List.nil_append]⟩

/-- A lint with the chosen rules finds what a lint with all rules finds of the chosen codes. -/
theorem lint_filter (hchecks : checks.lookup "djlint.rules.H025" = some orphanCheck)
    (hrules : ∀ rule ∈ rules, rule.IsPlain) {P : Value → Bool} (hP : IsChoice P) {perFile : Value}
    {text : List Char} {path : String} (h : lint checks rules perFile text path = .ok found) :
    lint checks (rules.filter (P ·.name)) perFile text path = .ok (found.filter (P ·.code)) := by
  unfold lint at h ⊢
  obtain ⟨off, hoff, h⟩ := Outcome.exists_of_bind h
  obtain ⟨parts, hparts, h⟩ := Outcome.exists_of_bind h
  have hcode : ∀ rule ∈ rules.filter (!·.isOff off), ∀ fs,
      runRule checks (Document.ofText text path) rule = .ok fs → ∀ f ∈ fs, f.code = rule.name :=
    fun rule hrule fs => code_of_runRule hchecks (hrules rule (List.mem_filter.1 hrule).1)
  obtain ⟨chosen, hchosen, heq⟩ := runRules_filter (P := P) hcode hparts
  have hcomm : (rules.filter (!·.isOff off)).filter (P ·.name) = (rules.filter (P ·.name)).filter
      (!·.isOff off) := by
    rw [List.filter_filter, List.filter_filter]
    simp only [Bool.and_comm]
  rw [hcomm] at hchosen
  dsimp only
  rw [hoff, Outcome.ok_bind, hchosen, Outcome.ok_bind, ← Except.ok.inj h, filter_dropRepeats hP,
    heq]
  rfl

/-! ### Codes that are switched off -/

/-- The codes that one entry of the per-file settings switches off for a path. -/
def codesOffBy (path : String) (entry : Value × Value) : Outcome (List String) := do
  let p ← match entry.1 with
    | .text s => compile { verbose := true } s.toList
    | _ => .error .wrongType
  if p.occurs path.toList.toArray then
    match entry.2 with
    | .text s => return commaNames s
    | _ => .error .missingOperation
  else return []

theorem switchedOff_dict (entries : List (Value × Value)) (path : String) :
    switchedOff (.dict entries) path = (do return (← entries.mapM (codesOffBy path)).flatten) := rfl

/-- An entry adds its codes to those that the others switch off. -/
theorem switchedOff_insert {before after : List (Value × Value)}
    {entry : Value × Value} {path : String} {off own : List String}
    (hown : codesOffBy path entry = .ok own)
    (h : switchedOff (.dict (before ++ after)) path = .ok off) :
    ∃ a b, off = a ++ b ∧ switchedOff (.dict (before ++ entry :: after)) path =
    .ok (a ++ (own ++ b)) := by
  rw [switchedOff_dict, List.mapM_append] at h
  obtain ⟨parts, hparts, h⟩ := Outcome.exists_of_bind h
  obtain ⟨a, ha, hparts⟩ := Outcome.exists_of_bind hparts
  obtain ⟨b, hb, hparts⟩ := Outcome.exists_of_bind hparts
  rw [← Except.ok.inj hparts] at h
  refine ⟨a.flatten, b.flatten, by rw [← Except.ok.inj h, List.flatten_append], ?_⟩
  rw [switchedOff_dict, List.mapM_append, ha, Outcome.ok_bind, Outcome.mapM_cons_of_ok hown hb]
  show Except.ok (a ++ own :: b).flatten = _
  rw [List.flatten_append, List.flatten_cons]

/-- Whether a code is among some texts. -/
def isAmong (codes : List String) (code : Value) : Bool :=
  codes.any (code == .text ·)

theorem isOff_eq_isAmong (rule : Rule) (off : List String) :
    rule.isOff off = isAmong off rule.name := by
  unfold Rule.isOff isAmong
  rw [Bool.eq_iff_iff, List.any_eq_true]
  simp only [Value.beq_text_iff]
  split
  next s hs => simp [hs]
  next hs => simpa using fun s _ => hs s

theorem isAmong_append (a b : List String) (code : Value) :
    isAmong (a ++ b) code = (isAmong a code || isAmong b code) :=
  List.any_append

/-- Texts do not tell equal codes apart. -/
theorem isChoice_beq_text (s : String) : IsChoice (· == .text s) := by
  intro a b hab
  rw [Bool.eq_iff_iff, Value.beq_text_iff, Value.beq_text_iff]
  constructor
  · rintro rfl
    exact Value.text_beq_iff.1 hab
  · rintro rfl
    exact Value.beq_text_iff.1 hab

theorem isChoice_not_isAmong (codes : List String) : IsChoice (!isAmong codes ·) := by
  intro a b hab
  have hsame : (fun s : String => a == .text s) = fun s => b == .text s :=
    funext fun s => isChoice_beq_text s a b hab
  simp only [isAmong, hsame]

/-- An entry of the per-file settings takes away the findings of the codes that it switches off, and
no others. -/
theorem lint_insert (hchecks : checks.lookup "djlint.rules.H025" = some orphanCheck)
    (hrules : ∀ rule ∈ rules, rule.IsPlain) {before after : List (Value × Value)}
    {entry : Value × Value} {text : List Char} {path : String} {own : List String}
    (hown : codesOffBy path entry = .ok own)
    (h : lint checks rules (.dict (before ++ after)) text path = .ok found) :
    lint checks rules (.dict (before ++ entry :: after)) text path =
    .ok (found.filter (!isAmong own ·.code)) := by
  have hchosen := lint_filter hchecks hrules (isChoice_not_isAmong own) h
  unfold lint at hchosen ⊢
  obtain ⟨off, hoff, hchosen⟩ := Outcome.exists_of_bind hchosen
  obtain ⟨a, b, rfl, hall⟩ := switchedOff_insert hown hoff
  have hsame : rules.filter (!·.isOff (a ++ (own ++ b))) =
      (rules.filter (!isAmong own ·.name)).filter (!·.isOff (a ++ b)) := by
    rw [List.filter_filter]
    congr 1
    funext rule
    simp only [isOff_eq_isAmong, isAmong_append, Bool.not_or]
    ac_rfl
  dsimp only at hchosen ⊢
  rw [hall, Outcome.ok_bind, hsame]
  exact hchosen

/-- The rules of a document do not influence each other.  What is found of a code is what the rules
of that code find alone; an entry of the per-file settings whose pattern occurs in the path takes
away the findings of the codes that it lists and no others, and any other entry takes away
nothing. -/
theorem lint_independent (hchecks : checks.lookup "djlint.rules.H025" = some orphanCheck)
    (hrules : ∀ rule ∈ rules, rule.IsPlain) {perFile : Value} {text : List Char} {path : String}
    (h : lint checks rules perFile text path = .ok found) :
    (∀ code : String, lint checks (rules.filter (·.name == .text code)) perFile text path =
      .ok (found.filter (·.code == .text code))) ∧
    ∀ before after source codes p, perFile = .dict (before ++ after) →
      compile { verbose := true } source.toList = .ok p →
      lint checks rules (.dict (before ++ (.text source, .text codes) :: after)) text path =
        .ok (if p.occurs path.toList.toArray then
          found.filter fun f => !(commaNames codes).any (f.code == .text ·) else found) := by
  refine ⟨fun code => lint_filter hchecks hrules (isChoice_beq_text code) h, ?_⟩
  rintro before after source codes p rfl hp
  cases hoccurs : p.occurs path.toList.toArray with
  | true =>
    have hown : codesOffBy path (.text source, .text codes) = .ok (commaNames codes) := by
      simp only [codesOffBy, hp, Outcome.ok_bind, hoccurs, if_true]
      rfl
    exact lint_insert hchecks hrules hown h
  | false =>
    have hown : codesOffBy path (.text source, .text codes) = .ok [] := by
      simp only [codesOffBy, hp, Outcome.ok_bind, hoccurs, Bool.false_eq_true, if_false]
      rfl
    rw [lint_insert hchecks hrules hown h]
    simp [isAmong]

/-- Two rules that mark letters of a document of two letters; the second repeats itself. -/
def letterRules : List Rule :=
  [{ name := .text "X1", message := .text "first letter", test := .search fun _ => [⟨0, 1⟩] },
    { name := .text "X2", message := .text "any letter", test := .search fun _ => [⟨0, 1⟩, ⟨1, 2⟩, ⟨0, 1⟩] }]

theorem exists_lint_letterRules (path : String) :
    ∃ found, lint builtinChecks letterRules (.dict []) ['a', 'b'] path = .ok found := by
  have hfinds : ∀ rule, ∀ spans : List Span, (∀ s ∈ spans, s.start < 2) →
      ∃ found, (Document.ofText ['a', 'b'] path).findings rule spans = .ok found := by
    intro rule spans hspans
    refine Outcome.exists_mapM fun s hs => ?_
    have hs : s.start < 2 := hspans s (List.mem_filter.1 hs).1
    have hplace : ∃ place, placeOf s.start (Document.ofText ['a', 'b'] path).lines = .ok place :=
      ⟨_, if_pos (Int.ofNat_lt.2 hs)⟩
    exact Outcome.exists_bind hplace fun place => ⟨_, rfl⟩
  have hrules : ∃ parts, letterRules.mapM
      (runRule builtinChecks (Document.ofText ['a', 'b'] path)) = .ok parts := by
    refine Outcome.exists_mapM fun rule hrule => ?_
    simp only [letterRules, List.mem_cons, List.not_mem_nil, or_false] at hrule
    obtain rfl | rfl := hrule
    · exact hfinds _ [⟨0, 1⟩] (by decide)
    · exact hfinds _ [⟨0, 1⟩, ⟨1, 2⟩, ⟨0, 1⟩] (by decide)
  obtain ⟨parts, hparts⟩ := hrules
  have hoff : switchedOff (.dict []) path = .ok [] := rfl
  have hon : letterRules.filter (!·.isOff []) = letterRules := rfl
  refine ⟨dropRepeats parts.flatten, ?_⟩
  unfold lint
  dsimp only
  rw [hoff, Outcome.ok_bind, hon, hparts]
  rfl

/-- The rules on letters, one code at a time and with their codes switched off. -/
theorem lint_independent_letterRules : ∃ found,
    lint builtinChecks letterRules (.dict []) ['a', 'b'] "ab" = .ok found ∧
    lint builtinChecks (letterRules.filter (·.name == .text "X2")) (.dict []) ['a', 'b'] "ab" =
      .ok (found.filter (·.code == .text "X2")) ∧
    lint builtinChecks letterRules (.dict [(.text "b", .text "X1, X9")]) ['a', 'b'] "ab" =
      .ok (found.filter fun f => !(["X1", "X9"].any (f.code == .text ·))) := by
  obtain ⟨found, hfound⟩ := exists_lint_letterRules "ab"
  have hplain : ∀ rule ∈ letterRules, rule.IsPlain := by
    intro rule hrule name hname
    simp only [letterRules, List.mem_cons, List.not_mem_nil, or_false] at hrule
    obtain rfl | rfl := hrule <;> cases hname
  have hpattern : ((compile { verbose := true } ['b']).toOption.any (·.occurs #['a', 'b'])) =
      true := by
    decide +kernel
  have hind := lint_independent rfl hplain hfound
  cases hp : compile { verbose := true } ['b'] with
  | error e =>
    rw [hp] at hpattern
    cases hpattern
  | ok p =>
    rw [hp] at hpattern
    have hoccurs : p.occurs "ab".toList.toArray = true := hpattern
    have hnames : commaNames "X1, X9" = ["X1", "X9"] := by cbv
    have hentry := hind.2 [] [] "b" "X1, X9" p rfl hp
    rw [if_pos hoccurs, hnames] at hentry
    exact ⟨found, hfound, hind.1 "X2", hentry⟩

end Lint

end TemplateTidy
