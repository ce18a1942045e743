import TemplateTidy.Lint.Run
import TemplateTidy.Proofs.Layout.Embedded

/-! # Settings that are used again

The layouts of embedded code write the steps of indentation into the tables of options, and the
settings keep what they have written.  But whoever reads a table writes the steps first, so a use of
the settings sees no more of the tables than the other options: formatting is steady for settings
that differ in the steps only (`steady_format`).  One value of settings can serve any number of
texts (`session_eq_map`). -/

namespace TemplateTidy

open Stateful

namespace Layout

/-! ### Tables of options -/

/-- A table of options without its steps of indentation. -/
def withoutLevel (table : Value) : Value :=
  match table with
  | .dict entries => .dict (Value.put entries (.text "indent_level") .null)
  | v => v

theorem withLevel_withoutLevel (table : Value) (n : Int) :
    withLevel (withoutLevel table) n = withLevel table n := by
  cases table with
  | dict entries => simp only [withoutLevel, withLevel, Value.put_put]
  | _ => rfl

theorem withoutLevel_of_withLevel {table table' : Value} {n : Int}
    (h : withLevel table n = .ok table') : withoutLevel table' = withoutLevel table := by
  unfold withLevel at h
  split at h
  next entries =>
    obtain rfl := Except.ok.inj h
    simp only [withoutLevel, Value.put_put]
  next => cases h

/-- What a use of settings sees of them: all but how to report and the steps of indentation of
embedded code. -/
def plainView (s : Settings) : Settings :=
  { s with
    quiet := .null
    statistics := .null
    linterOutputFormat := .null
    cssConfig := withoutLevel s.cssConfig
    jsConfig := withoutLevel s.jsConfig }

variable {tools : Tools} {s v : Settings}

theorem cssConfig_of_plainView (h : plainView s = v) : withoutLevel s.cssConfig = v.cssConfig := by
  rw [← h]
  rfl

theorem jsConfig_of_plainView (h : plainView s = v) : withoutLevel s.jsConfig = v.jsConfig := by
  rw [← h]
  rfl

/-! ### Steady uses -/

/-- The computation has the same outcome for all settings that look like `v`. -/
abbrev IsSteady {α : Type} (v : Settings) (x : Editing α) : Prop :=
  Steady plainView v x

variable {α β : Type}

theorem steady_lift (o : Outcome α) : IsSteady v (Stateful.lift o) := by
  cases o with
  | error e => exact .throw e
  | ok a => exact .pure a

/-- Writing options of style sheets that look like those that are there. -/
theorem steady_putCss {o : Outcome Value} (ho : ∀ own, o = .ok own → withoutLevel own = v.cssConfig)
    {rest : Value → Editing β} (hrest : ∀ own, o = .ok own → IsSteady v (rest own)) :
    IsSteady v (do
      let own ← Stateful.lift o
      modify fun s => { s with cssConfig := own }
      rest own) := by
  cases o with
  | error e => exact .throw e
  | ok own =>
    refine (Steady.modify fun c hc => ?_).bind fun _ => hrest own rfl
    rw [← hc]
    simp only [plainView, ho own rfl, cssConfig_of_plainView hc]

/-- Writing options of scripts that look like those that are there. -/
theorem steady_putJs {o : Outcome Value} (ho : ∀ own, o = .ok own → withoutLevel own = v.jsConfig)
    {rest : Value → Editing β} (hrest : ∀ own, o = .ok own → IsSteady v (rest own)) :
    IsSteady v (do
      let own ← Stateful.lift o
      modify fun s => { s with jsConfig := own }
      rest own) := by
  cases o with
  | error e => exact .throw e
  | ok own =>
    refine (Steady.modify fun c hc => ?_).bind fun _ => hrest own rfl
    rw [← hc]
    simp only [plainView, ho own rfl, jsConfig_of_plainView hc]

/-- The options of style sheets with their steps of indentation are the same for all settings that
look alike. -/
theorem withLevel_cssConfig {c : Settings} (hc : plainView c = v) (n : Int) :
    withLevel c.cssConfig n = withLevel v.cssConfig n := by
  rw [← cssConfig_of_plainView hc, withLevel_withoutLevel]

theorem withLevel_jsConfig {c : Settings} (hc : plainView c = v) (n : Int) :
    withLevel c.jsConfig n = withLevel v.jsConfig n := by
  rw [← jsConfig_of_plainView hc, withLevel_withoutLevel]

/-- A view shows no steps of indentation. -/
def IsView (v : Settings) : Prop :=
  withoutLevel v.cssConfig = v.cssConfig ∧ withoutLevel v.jsConfig = v.jsConfig

theorem isView_plainView (s : Settings) : IsView (plainView s) := by
  have hidem : ∀ table : Value, withoutLevel (withoutLevel table) = withoutLevel table := by
    intro table
    cases table with
    | dict entries => simp only [withoutLevel, Value.put_put]
    | _ => rfl
  exact ⟨hidem _, hidem _⟩

theorem steady_styleLines (hv : IsView v) (code : List Char) :
    IsSteady v (tools.styleLines code) := by
  unfold Tools.styleLines
  refine .get_bind (fun c hc => by rw [withLevel_cssConfig hc]) ?_
  refine steady_putCss (fun own hown => (withoutLevel_of_withLevel hown).trans hv.1) fun own _ => ?_
  refine (steady_lift _).bind fun lines => ?_
  refine .get_bind (fun c hc => by rw [withLevel_jsConfig hc]) ?_
  refine steady_putJs (fun other hother => (withoutLevel_of_withLevel hother).trans hv.2)
    fun other _ => ?_
  exact (steady_lift _).bind fun deeper => .pure _

theorem steady_scriptLines (hv : IsView v) (code : List Char) :
    IsSteady v (tools.scriptLines code) := by
  unfold Tools.scriptLines
  refine .get_bind (fun c hc => by rw [withLevel_jsConfig hc]) ?_
  have hown : ∀ own, withLevel v.jsConfig 1 = .ok own → withoutLevel own = v.jsConfig :=
    fun own h => (withoutLevel_of_withLevel h).trans hv.2
  refine steady_putJs hown fun own h => ?_
  refine (steady_lift _).bind fun lines => ?_
  -- The second layout starts from the options that the first one has written.
  refine steady_putJs (fun other hother => (withoutLevel_of_withLevel hother).trans (hown own h))
    fun other _ => ?_
  exact (steady_lift _).bind fun deeper => .pure _

theorem steady_layElement {lay : List Char → Editing (List (List Char) × List (List Char))}
    (hlay : ∀ code, IsSteady v (lay code)) (text : Array Char) (m : Match) :
    IsSteady v (layElement lay text m) := by
  unfold layElement
  dsimp only
  split
  · exact .pure _
  · exact (hlay _).bind fun _ => .pure _

theorem steady_layElements {p : Pattern}
    {lay : List Char → Editing (List (List Char) × List (List Char))}
    (hlay : ∀ code, IsSteady v (lay code)) (text : List Char) :
    IsSteady v (layElements p lay text) := by
  unfold layElements Pattern.replaceAllM
  exact (Steady.mapM (fun m => (steady_layElement hlay _ m).bind fun _ => .pure _) _).bind fun _ =>
    .pure _

/-! ### What the stages see -/

/-- Settings that lay out like `s`, with what `other` says about reports and embedded code. -/
def mixed (s other : Settings) : Settings :=
  { s with
    quiet := other.quiet
    statistics := other.statistics
    linterOutputFormat := other.linterOutputFormat
    cssConfig := other.cssConfig
    jsConfig := other.jsConfig }

variable (other : Settings)

theorem alignLines_mixed (s : Settings) (ps : InnerPatterns) (spacing : Int) :
    ∀ (lines : List (List Char)) (level : Int),
    alignLines (mixed s other) ps spacing level lines = alignLines s ps spacing level lines
  | [], _ => rfl
  | line :: rest, level => by
      unfold alignLines
      simp only [alignLines_mixed s ps spacing rest]
      rfl

theorem alignTags_mixed (s : Settings) : alignTags (mixed s other) = alignTags s := by
  funext text spacing
  unfold alignTags
  simp only [alignLines_mixed]
  rfl

theorem layout_mixed (s : Settings) (margin : List Char) (a : Attribute) :
    a.layout (mixed s other) margin = a.layout s margin := by
  unfold Attribute.layout
  simp only [alignTags_mixed]
  rfl

theorem spreadAttributes_mixed (s : Settings) (line text : Array Char) (m : Match) :
    spreadAttributes (mixed s other) line text m = spreadAttributes s line text m := by
  unfold spreadAttributes
  simp only [layout_mixed]
  rfl

theorem indentLine_mixed (s : Settings) (ps : LinePatterns) (now : Indentation) (line : List Char) :
    indentLine (mixed s other) ps now line = indentLine s ps now line := by
  unfold indentLine
  have hspread : ∀ line text, spreadAttributes (mixed s other) line text =
      spreadAttributes s line text :=
    fun line text => funext (spreadAttributes_mixed other s line text)
  simp only [hspread]
  rfl

theorem indentFrom_mixed (s : Settings) (ps : LinePatterns) :
    ∀ (lines : List (List Char)) (now : Indentation),
    indentFrom (mixed s other) ps now lines = indentFrom s ps now lines
  | [], _ => rfl
  | line :: rest, now => by
      unfold indentFrom
      rw [indentLine_mixed]
      simp only [indentFrom_mixed s ps rest]

/-- What does not look at the options of reports and of embedded code is the same for settings that
look alike. -/
theorem eq_of_plainView {f : Settings → α} (hf : ∀ s other, f (mixed s other) = f s) {c : Settings}
    (hc : plainView c = v) : f c = f v := by
  rw [← hc]
  exact (hf c (plainView c)).symm

/-- What takes from the settings only something that does not look at those options. -/
theorem steady_gets {f : Settings → α} {k : α → Editing β}
    (hf : ∀ s other, f (mixed s other) = f s) (hk : IsSteady v (k (f v))) :
    IsSteady v (get >>= fun c => k (f c)) :=
  .get_bind (fun c hc => by rw [eq_of_plainView hf hc]) hk

/-! ### Formatting -/

/-- An evaluation neither sees the settings nor changes them. -/
def Tools.Blind (tools : Tools) : Prop :=
  ∀ scope, ∃ value?, ∀ s, tools.evaluate scope s = (value?, s)

theorem Tools.Blind.keeps (h : tools.Blind) : tools.Keeps := by
  intro scope s
  obtain ⟨value?, hvalue⟩ := h scope
  rw [hvalue]

section blind

variable (h : tools.Blind)

include h

theorem steady_tidyExpression (scope : Scope) : IsSteady v (tools.tidyExpression scope) := by
  obtain ⟨value?, hvalue⟩ := h scope
  refine ⟨((tools.tidyExpression scope).run.run v).1, fun c hc => ?_⟩
  simp only [Tools.tidyExpression, run_get_bind, hvalue]
  exact ⟨rfl, hc⟩

theorem steady_tidyData (scope : Scope) : IsSteady v (tools.tidyData scope) := by
  have hmost : ∀ c, plainView c = v → c.maxLineLength = v.maxLineLength := fun _ =>
    eq_of_plainView fun _ _ => rfl
  have hsize : ∀ c, plainView c = v → c.indentSize = v.indentSize := fun _ =>
    eq_of_plainView fun _ _ => rfl
  refine .bind (.get_bind (fun c hc => by rw [hmost c hc, hsize c hc]) ?_) fun _ => .pure _
  split
  · exact steady_tidyExpression h _
  · split
    · exact .pure _
    · split
      · exact .pure _
      · exact steady_tidyExpression h _

theorem steady_tidyAssignment (text : Array Char) (m : Match) :
    IsSteady v (tools.tidyAssignment text m) := by
  unfold Tools.tidyAssignment
  dsimp only
  split
  · exact .bind (.pure _) fun _ => .pure _
  · exact .bind (steady_tidyData h _) fun _ => .bind (.pure _) fun _ => .pure _

omit h in
theorem steady_tidyMatches {p : Pattern} {f : Array Char → Match → Editing (List Char)}
    (hf : ∀ chars m, IsSteady v (f chars m)) (text : List Char) :
    IsSteady v (tidyMatches p f text) := by
  unfold tidyMatches Pattern.replaceAllM
  refine .bind (.mapM (fun m => .bind ?_ fun _ => .pure _) _) fun _ => .pure _
  split
  · exact Steady.pure _
  · exact hf _ m

theorem steady_indent (text : List Char) : IsSteady v (tools.indent text) := by
  have hlines : ∀ c, plainView c = v → indentLines c (spaceTags c text) = indentLines v
      (spaceTags v text) := by
    intro c
    refine @eq_of_plainView v _ (fun s => indentLines s (spaceTags s text)) (fun s other => ?_) c
    unfold indentLines
    rw [indentFrom_mixed]
    rfl
  refine .get_bind (fun c hc => by rw [hlines c hc]) ?_
  refine (steady_lift _).bind fun a =>
    (steady_tidyMatches (steady_tidyAssignment h) a).bind fun b => ?_
  refine .bind (steady_tidyMatches (fun chars m => .bind (steady_tidyData h _) fun _ => .pure _) b)
    fun d => ?_
  have hkept : ∀ c, plainView c = v → c.preserveBlankLines = v.preserveBlankLines := fun _ =>
    eq_of_plainView fun _ _ => rfl
  exact .get_bind (fun c hc => by rw [hkept c hc]) (.pure _)

theorem steady_edit (stage : Stage) (text : List Char) : IsSteady v (stage.edit tools text) := by
  cases stage with
  | indent => exact steady_indent h text
  | flatten =>
    exact steady_gets (f := (flattenTags · text)) (k := Pure.pure) (fun _ _ => rfl) (.pure _)
  | separate =>
    exact steady_gets (f := (breakLines · text)) (k := lift) (fun _ _ => rfl) (steady_lift _)
  | trim =>
    exact steady_gets (f := (trimLines · text)) (k := lift) (fun _ _ => rfl) (steady_lift _)
  | join =>
    exact steady_gets (f := (joinShort · text)) (k := lift) (fun _ _ => rfl) (steady_lift _)

/-- Formatting has the same outcome for all settings that look alike, and leaves settings that look
the same. -/
theorem steady_format (hv : IsView v) (text : List Char) : IsSteady v (tools.format text) := by
  have hstyles : ∀ now, IsSteady v (tools.layAskedStyles now) := fun now => by
    refine .get_bind (fun c hc => by
      rw [eq_of_plainView (f := Settings.formatCss) (fun _ _ => rfl) hc]) ?_
    split
    · exact steady_layElements (steady_styleLines hv) now
    · exact .pure now
  have hscripts : ∀ now, IsSteady v (tools.layAskedScripts now) := fun now => by
    refine .get_bind (fun c hc => by
      rw [eq_of_plainView (f := Settings.formatJs) (fun _ _ => rfl) hc]) ?_
    split
    · exact steady_layElements (steady_scriptLines hv) now
    · exact .pure now
  unfold Tools.format
  split
  · exact .pure _
  · refine .bind (.bind (.foldlM (fun now stage => steady_edit h stage now) _ _)
      fun now => ?_) fun _ => .pure _
    exact (hstyles now).bind hscripts

end blind

/-! ### Sessions -/

/-- One use of settings. -/
inductive Use where
  | format (text : List Char)
  | lint (checks : List (String × Lint.Check)) (text : List Char) (path : String)

/-- What a use of settings answers. -/
inductive Answer where
  | text (t : List Char)
  | findings (found : List Lint.Finding)

/-- Does what a use asks for, with the settings as they are. -/
def Use.run (tools : Tools) : Use → Editing Answer
  | .format text => Answer.text <$> tools.format text
  | .lint checks text path => do
    let s ← get
    Stateful.lift ((Lint.lint checks s.rules s.perFileIgnores text path).map Answer.findings)

/-- The outcomes of uses of the same settings one after the other; each use finds the settings as
the one before has left them. -/
def session (tools : Tools) (s : Settings) : List Use → List (Outcome Answer)
  | [] => []
  | use :: rest => ((use.run tools).run.run s).1 :: session tools ((use.run tools).run.run s).2 rest

theorem steady_use (h : tools.Blind) (hv : IsView v) (use : Use) : IsSteady v (use.run tools) := by
  cases use with
  | format text =>
    show IsSteady v (tools.format text >>= fun result => pure (Answer.text result))
    exact (steady_format h hv text).bind fun _ => .pure _
  | lint checks text path =>
    have hrules : ∀ c, plainView c = v → c.rules = v.rules ∧
        c.perFileIgnores = v.perFileIgnores := by
      rintro c rfl
      exact ⟨rfl, rfl⟩
    exact .get_bind (fun c hc => by rw [(hrules c hc).1, (hrules c hc).2]) (steady_lift _)

/-- Where evaluations have nothing to do with the settings, each use of shared settings has the
outcome that it has with settings of its own. -/
theorem session_eq_map (h : tools.Blind) (s : Settings) (uses : List Use) :
    session tools s uses = uses.map fun use => ((use.run tools).run.run s).1 := by
  -- The settings on the way look like those at the beginning.
  have halike : ∀ (uses : List Use) (c : Settings), plainView c = plainView s →
      session tools c uses = uses.map fun use => ((use.run tools).run.run s).1 := by
    intro uses
    induction uses with
    | nil => exact fun _ _ => rfl
    | cons use rest ih =>
      intro c hc
      obtain ⟨o, ho⟩ := steady_use h (isView_plainView s) use
      rw [session, List.map_cons, (ho c hc).1, (ho s rfl).1, ih _ (ho c hc).2]
  exact halike uses s rfl

end Layout

end TemplateTidy
