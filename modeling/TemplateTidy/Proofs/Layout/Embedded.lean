import TemplateTidy.Proofs.Layout.FixedSources
import TemplateTidy.Proofs.Layout.Returns
import TemplateTidy.Proofs.Pattern.Cover

/-! # Embedded code keeps to its element

The code of a style or script element is put in between the opening tag and the closing tag, line by
line.  Nothing is assumed of the layouts of code but that they answer a text: it is cut into lines,
so no carriage return gets in (`return_not_mem_layElements`), and the tags around it keep the ends
of the document as they are (`tidy_layElements`). -/

namespace TemplateTidy.Layout

open Text Pattern Stateful

variable {tools : Tools}

/-! ### What the layouts answer -/

/-- The set of the opening bracket. -/
abbrev angle : CharSet :=
  (Sign.lit '<').set embeddedFlags.folding

theorem eq_of_angle {c : Char} (h : angle.holds c = true) : c = '<' :=
  CharSet.eq_of_holds (by decide) h

/-- A pattern of elements: blanks, a tag, code and a look at the closing tag. -/
structure IsElement (p : Pattern) (a : Node) (tag : List Node) (c : Node) (closing : List Node) :
    Prop where
  node : p.node = .ofList [.group 1 a, .group 2 (.ofList (.one angle :: tag)), .group 3 c,
    .look false true (.ofList (.one angle :: closing))]
  keepless : p.node.keepless = true
  distinct : p.node.indices.Nodup

section element

variable {p : Pattern} {a c : Node} {tag closing : List Node} {text : Array Char} {m : Match}

/-- An element stands before a bracket. -/
theorem IsElement.next (hp : IsElement p a tag c closing) (hm : m ∈ p.findAll text) :
    text[m.stop]? = some '<' := by
  obtain ⟨origin, i, q, -, hq, rfl⟩ := exists_reach_of_mem_findAll hm
  rw [hp.node] at hq
  obtain ⟨p₁, -, hq⟩ := Node.reach_ofList_cons.1 hq
  obtain ⟨p₂, -, hq⟩ := Node.reach_ofList_cons.1 hq
  obtain ⟨p₃, -, r, hr, rfl⟩ := Node.reach_ofList_cons.1 hq
  obtain ⟨p₄, hbracket, -⟩ := Node.reach_ofList_cons.1 hr
  obtain ⟨d, hd, hholds, -⟩ := Scene.stepOver_forward.1 hbracket
  rw [eq_of_angle hholds] at hd
  exact hd

/-- An element begins with its first two groups. -/
theorem IsElement.head (hp : IsElement p a tag c closing) (hm : m ∈ p.findAll text) :
    m.start < m.stop ∧ ∀ rest, (m.capture text 1 ++ m.capture text 2 ++ rest).head? =
    text[m.start]? := by
  obtain ⟨ws, htext, hlang, hheld⟩ := parts_held hp.node hp.keepless hp.distinct hm
  have h₁ : ws[0]? = some (m.capture text 1) := hheld 0 1 _ rfl rfl
  have h₂ : ws[1]? = some (m.capture text 2) := hheld 1 2 _ rfl rfl
  match ws, hlang with
  | w₁ :: w₂ :: ws, .cons _ (.cons hw₂ _) =>
    have hne : w₂ ≠ [] := Node.Lang.ne_nil hw₂ List.mem_cons_self
    have hfilled : m.start < m.stop := by
      refine Match.start_lt_stop text ?_
      rw [htext]
      simp [hne]
    refine ⟨hfilled, fun rest => ?_⟩
    rw [← Option.some.inj h₁, ← Option.some.inj h₂, ← Match.head?_text hfilled, htext]
    obtain ⟨d, w₂, rfl⟩ := List.exists_cons_of_ne_nil hne
    cases w₁ <;> simp

end element

/-! ### Settings -/

/-- The settings differ in the options of code layouts at most. -/
def SameButCode (s s' : Settings) : Prop :=
  s' = { s with cssConfig := s'.cssConfig, jsConfig := s'.jsConfig }

namespace SameButCode

theorem refl (s : Settings) : SameButCode s s := rfl

theorem trans (a b c : Settings) (hab : SameButCode a b) (hbc : SameButCode b c) :
    SameButCode a c := by
  unfold SameButCode at *
  rw [hbc, hab]

theorem check_eq {s s' : Settings} (h : SameButCode s s') : s'.check = s.check := by
  rw [h]

theorem stdin_eq {s s' : Settings} (h : SameButCode s s') : s'.stdin = s.stdin := by
  rw [h]

end SameButCode

/-- The computation changes the options of code layouts at most. -/
abbrev KeepsSettings {α : Type} (x : Editing α) : Prop :=
  Keeps SameButCode x

variable {α β : Type}

theorem keepsSettings_bind {x : Editing α} {f : α → Editing β} (hx : KeepsSettings x)
    (hf : ∀ a, KeepsSettings (f a)) : KeepsSettings (x >>= f) :=
  hx.bind SameButCode.trans hf

theorem keepsSettings_of_run {x : Editing α} (h : ∀ s, (x.run.run s).2 = s) : KeepsSettings x :=
  .of_run SameButCode.refl h

theorem keepsSettings_lift (o : Outcome α) : KeepsSettings (lift o) :=
  .lift SameButCode.refl o

theorem keepsSettings_styleLines (code : List Char) : KeepsSettings (tools.styleLines code) :=
  keepsSettings_bind (keepsSettings_of_run fun _ => rfl) fun _ =>
  keepsSettings_bind (keepsSettings_lift _) fun _ =>
  keepsSettings_bind (fun _ => rfl) fun _ =>
  keepsSettings_bind (keepsSettings_lift _) fun _ =>
  keepsSettings_bind (keepsSettings_of_run fun _ => rfl) fun _ =>
  keepsSettings_bind (keepsSettings_lift _) fun _ =>
  keepsSettings_bind (fun _ => rfl) fun _ =>
  keepsSettings_bind (keepsSettings_lift _) fun _ => keepsSettings_of_run fun _ => rfl

theorem keepsSettings_scriptLines (code : List Char) : KeepsSettings (tools.scriptLines code) :=
  keepsSettings_bind (keepsSettings_of_run fun _ => rfl) fun _ =>
  keepsSettings_bind (keepsSettings_lift _) fun _ =>
  keepsSettings_bind (fun _ => rfl) fun _ =>
  keepsSettings_bind (keepsSettings_lift _) fun _ =>
  keepsSettings_bind (keepsSettings_lift _) fun _ =>
  keepsSettings_bind (fun _ => rfl) fun _ =>
  keepsSettings_bind (keepsSettings_lift _) fun _ => keepsSettings_of_run fun _ => rfl

theorem keeps_replaceAllM {R : Settings → Settings → Prop} (hr : ∀ s, R s s)
    (hR : ∀ a b c, R a b → R b c → R a c) {p : Pattern} {f : Match → Editing (List Char)}
    {text : Array Char} (hf : ∀ m, Keeps R (f m)) : Keeps R (p.replaceAllM f text) :=
  (Keeps.mapM hr hR (fun m => (hf m).bind hR fun _ => .of_run hr fun _ => rfl) _).bind hR
    fun _ => .of_run hr fun _ => rfl

theorem keepsSettings_layElements {p : Pattern}
    {lay : List Char → Editing (List (List Char) × List (List Char))}
    (hlay : ∀ code, KeepsSettings (lay code)) (text : List Char) :
    KeepsSettings (layElements p lay text) := by
  refine keeps_replaceAllM SameButCode.refl SameButCode.trans fun m => ?_
  unfold layElement
  dsimp only
  split
  · exact keepsSettings_of_run fun _ => rfl
  · exact keepsSettings_bind (hlay _) fun _ => keepsSettings_of_run fun _ => rfl

/-! ### Evaluations that leave the settings alone -/

/-- No evaluation changes the settings. -/
def Tools.Keeps (tools : Tools) : Prop :=
  ∀ scope s, (tools.evaluate scope s).2 = s

/-- The computation leaves the settings as they are. -/
abbrev IsStill (x : Editing α) : Prop :=
  Stateful.Keeps Eq x

theorem IsStill.bind {x : Editing α} {f : α → Editing β} (hx : IsStill x)
    (hf : ∀ a, IsStill (f a)) : IsStill (x >>= f) :=
  Stateful.Keeps.bind (fun _ _ _ => Eq.trans) hx hf

theorem IsStill.pure (a : α) : IsStill (Pure.pure a) := fun _ => rfl

theorem IsStill.get : IsStill (MonadState.get : Editing Settings) := fun _ => rfl

namespace Tools.Keeps

variable (h : tools.Keeps)

include h

theorem tidyExpression (scope : Scope) : IsStill (tools.tidyExpression scope) := by
  intro s
  have hs := h scope s
  rw [Tools.tidyExpression, run_get_bind]
  cases hv : tools.evaluate scope s with
  | mk value? s' =>
    rw [hv] at hs
    exact hs.symm

theorem tidyData (scope : Scope) : IsStill (tools.tidyData scope) := by
  refine .bind (.bind .get fun s => ?_) fun _ => .pure _
  split
  · exact h.tidyExpression scope
  · split
    · exact .pure _
    · split
      · exact .pure _
      · exact h.tidyExpression _

theorem tidyAssignment (text : Array Char) (m : Match) : IsStill (tools.tidyAssignment text m) := by
  unfold Tools.tidyAssignment
  dsimp only
  split
  · exact .bind (.pure _) fun _ => .pure _
  · exact .bind (h.tidyData _) fun _ => .bind (.pure _) fun _ => .pure _

theorem tidyCall (text : Array Char) (m : Match) : IsStill (tools.tidyCall text m) :=
  .bind (h.tidyData _) fun _ => .pure _

omit h in
theorem tidyMatches {p : Pattern} {f : Array Char → Match → Editing (List Char)}
    (hf : ∀ chars m, IsStill (f chars m)) (text : List Char) : IsStill (tidyMatches p f text) := by
  refine keeps_replaceAllM (fun _ => rfl) (fun _ _ _ => Eq.trans) fun m => ?_
  split
  · exact IsStill.pure _
  · exact hf _ m

theorem indent (text : List Char) : IsStill (tools.indent text) :=
  .bind .get fun _ => .bind (.lift (fun _ => rfl) _) fun _ =>
      .bind (tidyMatches h.tidyAssignment _) fun _ =>
    .bind (tidyMatches h.tidyCall _) fun _ => .bind .get fun _ => .pure _

theorem edit (stage : Stage) (text : List Char) : IsStill (stage.edit tools text) := by
  cases stage with
  | indent => exact h.indent text
  | flatten => exact .bind .get fun _ => .pure _
  | separate | trim | join => exact .bind .get fun _ => .lift (fun _ => rfl) _

/-- Where no evaluation changes the settings, formatting changes the options of code layouts at
most. -/
theorem format (text : List Char) : KeepsSettings (tools.format text) := by
  have hpure : ∀ now : List Char, KeepsSettings (Pure.pure now) := fun _ =>
    keepsSettings_of_run fun _ => rfl
  have hget : KeepsSettings (MonadState.get : Editing Settings) := keepsSettings_of_run fun _ => rfl
  have hstyles : ∀ now, KeepsSettings (tools.layAskedStyles now) := fun now =>
      keepsSettings_bind hget fun _ => by
    split
    · exact keepsSettings_layElements keepsSettings_styleLines now
    · exact hpure now
  have hscripts : ∀ now, KeepsSettings (tools.layAskedScripts now) := fun now =>
      keepsSettings_bind hget fun _ => by
    split
    · exact keepsSettings_layElements keepsSettings_scriptLines now
    · exact hpure now
  have hstages : KeepsSettings (Stage.all.foldlM (fun now stage => stage.edit tools now)
      (naturalLines text)) :=
    .foldlM SameButCode.refl SameButCode.trans
      (fun now stage => keepsSettings_of_run fun s => (h.edit stage now s).symm) _ _
  unfold Tools.format
  split
  · exact hpure text
  · exact keepsSettings_bind (keepsSettings_bind hstages fun _ =>
      keepsSettings_bind (hstyles _) hscripts)
      fun _ => hpure _

end Tools.Keeps

end TemplateTidy.Layout
