import TemplateTidy.Proofs.Code.Levels
import TemplateTidy.Proofs.Layout.Reuse

/-! # Style sheets in their elements

The code of a style element is laid out a second time to see which lines a further step of
indentation changes, and a line is written if the second layout has one in its place
(`indentChanged_laid`).  The options of both layouts are the same for all elements of a document, so
each element holds the lines of the first layout up to the number of lines of the second one
(`layStyles_images`).  Where the options of scripts lay out style sheets like those of style sheets,
that is all lines (`layStyles_keeps_lines`). -/

namespace TemplateTidy.Layout

open Text Stateful

/-! ### Lines that are written -/

/-- The text has these lines in this order, each behind nothing or behind the indentation. -/
def Laid (indent : List Char) (lines : List (List Char)) (text : List Char) : Prop :=
  ∃ leads : List (List Char), leads.length = lines.length ∧
    (∀ lead ∈ leads, lead = [] ∨ lead = indent) ∧
    text = (List.zipWith (fun lead line => '\n' :: (lead ++ line)) leads lines).flatten

/-- Lines are written as long as there are other lines beside them. -/
theorem indentChanged_laid (indent : List Char) : ∀ lines deeper : List (List Char),
    Laid indent (lines.take deeper.length) (indentChanged indent lines deeper)
  | [], _ => ⟨[], by simp, by simp, by simp [indentChanged]⟩
  | _ :: _, [] => ⟨[], by simp, by simp, by simp [indentChanged]⟩
  | line :: lines, other :: deeper => by
      obtain ⟨leads, hlength, hleads, hrest⟩ := indentChanged_laid indent lines deeper
      have hcons : indentChanged indent (line :: lines) (other :: deeper) =
          '\n' :: (if line == other then line else indent ++ line) ++
          indentChanged indent lines deeper := rfl
      rw [hcons, hrest]
      by_cases hsame : (line == other) = true
      · refine ⟨[] :: leads, by simp [hlength], by simpa using hleads, ?_⟩
        simp [hsame]
      · refine ⟨indent :: leads, by simp [hlength], by simpa using hleads, ?_⟩
        simp [hsame]

/-! ### Elements of one document -/

/-- The computation answers `a` for some settings that look like `v`. -/
def Editing.GivesIn {α : Type} (v : Settings) (x : Editing α) (a : α) : Prop :=
  ∃ c c', plainView c = v ∧ x.run.run c = (.ok a, c')

variable {v : Settings} {tools : Tools}

/-- Steady computations one after the other answer for settings that look alike. -/
theorem forall₂_of_mapM_steady {α β : Type} {f : α → Editing β} (hf : ∀ a, IsSteady v (f a)) :
    ∀ {as : List α} {bs : List β} {c c' : Settings}, plainView c = v →
      (as.mapM f).run.run c = (.ok bs, c') → List.Forall₂ (fun a b => (f a).GivesIn v b) as bs
  | [], bs, c, c', _, h => by
      rw [List.mapM_nil] at h
      rw [← (of_pure h).1]
      exact .nil
  | a :: as, bs, c, c', hc, h => by
      rw [List.mapM_cons] at h
      obtain ⟨b, d, hb, h⟩ := exists_of_bind h
      obtain ⟨bs', d', hbs, h⟩ := exists_of_bind h
      have hd : plainView d = v := by
        obtain ⟨o, ho⟩ := hf a
        have := (ho c hc).2
        rwa [hb] at this
      rw [← (of_pure h).1]
      exact .cons ⟨c, d, hc, hb⟩ (forall₂_of_mapM_steady hf hd hbs)

/-- Each element of a document is laid out for settings that look like those of the document. -/
theorem images_of_layElements {p : Pattern}
    {lay : List Char → Editing (List (List Char) × List (List Char))}
    (hlay : ∀ code, IsSteady v (lay code)) {text result : List Char} {c c' : Settings}
    (hc : plainView c = v) (h : (layElements p lay text).run.run c = (.ok result, c')) :
    ∃ images : List (Match × List Char), images.map Prod.fst = p.findAll text.toArray ∧
      (∀ x ∈ images, (layElement lay text.toArray x.1).GivesIn v x.2) ∧
      result = splice text.toArray 0 images := by
  unfold layElements Pattern.replaceAllM at h
  obtain ⟨images, d, himages, h⟩ := exists_of_bind h
  have hsteps := forall₂_of_mapM_steady
    (fun m => (steady_layElement hlay text.toArray m).bind fun _ => .pure _) hc himages
  have hall : List.Forall₂ (fun m x => x.1 = m ∧ (layElement lay text.toArray m).GivesIn v x.2)
      (p.findAll text.toArray) images := by
    refine hsteps.imp fun m x hx => ?_
    obtain ⟨e, e', he, hx⟩ := hx
    obtain ⟨image, e'', himage, hx⟩ := exists_of_bind hx
    rw [← (of_pure hx).1]
    exact ⟨rfl, e, e'', he, himage⟩
  refine ⟨images, ?_, ?_, (of_pure h).1.symm⟩
  all_goals
    clear himages hsteps h
    generalize p.findAll text.toArray = ms at hall
    induction hall with
    | nil => simp
    | cons hx _ ih => simp_all

/-! ### Style elements -/

theorem of_lift_bind {α β : Type} {o : Outcome α} {f : α → Editing β} {b : β} {c c' : Settings}
    (h : (Stateful.lift o >>= f).run.run c = (.ok b, c')) :
    ∃ a, o = .ok a ∧ (f a).run.run c = (.ok b, c') := by
  obtain ⟨a, d, ha, h⟩ := exists_of_bind h
  obtain ⟨ho, rfl⟩ := of_lift ha
  exact ⟨a, ho, h⟩

theorem of_modify_bind {β : Type} {g : Settings → Settings} {f : PUnit → Editing β}
    {b : β} {c c' : Settings}
    (h : (modify g >>= f).run.run c = (.ok b, c')) : (f ⟨⟩).run.run (g c) = (.ok b, c') := h

/-- The two layouts of a style sheet. -/
theorem of_styleLines {code : List Char} {lines deeper : List (List Char)} {c c' : Settings}
    (h : (tools.styleLines code).run.run c = (.ok (lines, deeper), c')) :
    ∃ own other, withLevel c.cssConfig 1 = .ok own ∧ withLevel c.jsConfig 2 = .ok other ∧
      layWith tools.style own code = .ok lines ∧ layWith tools.style other code = .ok deeper := by
  unfold Tools.styleLines at h
  obtain ⟨own, hown, h⟩ := of_lift_bind ((run_get_bind _ _).symm.trans h)
  obtain ⟨shown, hshown, h⟩ := of_lift_bind (of_modify_bind h)
  obtain ⟨other, hother, h⟩ := of_lift_bind ((run_get_bind _ _).symm.trans h)
  obtain ⟨again, hagain, h⟩ := of_lift_bind (of_modify_bind h)
  obtain ⟨rfl, rfl⟩ := Prod.mk.inj (of_pure h).1
  exact ⟨own, other, hown, hother, hshown, hagain⟩

/-- A style element as it is written: its tag, some lines and the indentation of its closing tag. -/
def IsStyled (text : Array Char) (m : Match) (lines : List (List Char)) (image : List Char) :
    Prop :=
  ∃ body, Laid (List.replicate (m.capture text 1).length ' ') lines body ∧
    image = m.capture text 1 ++ m.capture text 2 ++ body ++ '\n' :: List.replicate
      (m.capture text 1).length ' '

/-- Style elements stay as they are, or hold the lines of their layout up to the number of lines
that the layout with the options of scripts has. -/
theorem layStyles_images {s s' : Settings} {text result : List Char}
    (h : (tools.layStyles text).run.run s = (.ok result, s')) :
    ∃ images : List (Match × List Char), images.map Prod.fst = styleElement.findAll text.toArray ∧
      result = splice text.toArray 0 images ∧ ∀ x ∈ images, x.2 = x.1.text text.toArray ∨
        ∃ own other lines deeper,
          withLevel s.cssConfig 1 = .ok own ∧ withLevel s.jsConfig 2 = .ok other ∧
          layWith tools.style own (x.1.capture text.toArray 3) = .ok lines ∧
          layWith tools.style other (x.1.capture text.toArray 3) = .ok deeper ∧
          IsStyled text.toArray x.1 (lines.take deeper.length) x.2 := by
  have hview := isView_plainView s
  obtain ⟨images, hmatches, himages, hresult⟩ :=
    images_of_layElements (steady_styleLines hview) rfl h
  refine ⟨images, hmatches, hresult, fun x hx => ?_⟩
  obtain ⟨c, c', hc, hx⟩ := himages x hx
  unfold layElement at hx
  dsimp only at hx
  split at hx
  · exact .inl (of_pure hx).1.symm
  · obtain ⟨⟨lines, deeper⟩, d, hlines, hx⟩ := exists_of_bind hx
    obtain ⟨own, other, hown, hother, hshown, hagain⟩ := of_styleLines hlines
    rw [withLevel_cssConfig hc, ← withLevel_cssConfig rfl] at hown
    rw [withLevel_jsConfig hc, ← withLevel_jsConfig rfl] at hother
    exact .inr ⟨own, other, lines, deeper, hown, hother, hshown, hagain, _,
      indentChanged_laid _ _ _, (of_pure hx).1.symm⟩

theorem of_layWith_style {table : Value} {o : Code.Options} {code : List Char}
    {lines : List (List Char)} (ho : Code.Options.ofTable table = .ok o)
    (h : layWith Tools.builtin.style table code = .ok lines) :
    ∃ shown, Code.Style.layout o code = .ok shown ∧ splitLines shown = lines := by
  obtain ⟨shown, hshown, h⟩ := Outcome.exists_of_bind h
  simp only [Tools.builtin, ho, Outcome.ok_bind] at hshown
  exact ⟨shown, hshown, Except.ok.inj h⟩

/-- Where the options of scripts lay out style sheets like the options of style sheets do but for
the level, each style element stays as it is or holds all lines of its layout. -/
theorem layStyles_keeps_lines {s s' : Settings} {text result : List Char} {own other : Value}
    {o o' : Code.Options} (hown : withLevel s.cssConfig 1 = .ok own)
    (hother : withLevel s.jsConfig 2 = .ok other) (ho : Code.Options.ofTable own = .ok o)
    (ho' : Code.Options.ofTable other = .ok o') (hmatch : o.Matches o')
    (hunit : ∀ c ∈ o.indentUnit, isLineEnd c = false) (hlevel : 0 < o.level)
    (hlevel' : 0 < o'.level) (h : (layStyles text).run.run s = (.ok result, s')) :
    ∃ images : List (Match × List Char), images.map Prod.fst = styleElement.findAll text.toArray ∧
      result = splice text.toArray 0 images ∧ ∀ x ∈ images, x.2 = x.1.text text.toArray ∨
        ∃ shown, Code.Style.layout o (x.1.capture text.toArray 3) = .ok shown ∧
          IsStyled text.toArray x.1 (splitLines shown) x.2 := by
  obtain ⟨images, hmatches, hresult, himages⟩ := layStyles_images h
  refine ⟨images, hmatches, hresult, fun x hx => (himages x hx).imp_right ?_⟩
  rintro ⟨own', other', lines, deeper, hown', hother', hlines, hdeeper, hstyled⟩
  obtain rfl := Except.ok.inj (hown.symm.trans hown')
  obtain rfl := Except.ok.inj (hother.symm.trans hother')
  obtain ⟨shown, hshown, rfl⟩ := of_layWith_style ho hlines
  obtain ⟨again, hagain, rfl⟩ := of_layWith_style ho' hdeeper
  have hagree := Code.Style.layout_agree hmatch hunit hlevel hlevel' (x.1.capture text.toArray 3)
  rw [hshown, hagain] at hagree
  have hlength : (splitLines shown).length = (splitLines again).length := hagree
  rw [← hlength, List.take_length] at hstyled
  exact ⟨shown, hshown, hstyled⟩

/-- Empty tables of options, at the levels one and two. -/
example : ([1, 2].map fun n => ((withLevel (.dict []) n).bind Code.Options.ofTable).toOption.map
    fun o =>
      (o.level, o.indentUnit, o.maxBreaks)) =
    [1, 2].map fun n => some (n, [' ', ' ', ' ', ' '], 32786) := by
  decide +kernel

end TemplateTidy.Layout
