import TemplateTidy.Proofs.Layout.InnerTags
import TemplateTidy.Proofs.Layout.Total

/-! # The one failure of formatting

Where all names in the settings can be read, formatting fails for one reason only: a tag that is
long enough to be spread has an attribute whose value is laid out as a list, and the attribute has
no value (`format_fails_only`).  So it answers where no tag is long (`exists_format`). -/

namespace TemplateTidy

theorem Outcome.ne_error {α : Type} {x : Outcome α} (h : ∃ a, x = .ok a) (e : Failure) :
    x ≠ .error e := by
  obtain ⟨a, rfl⟩ := h
  exact fun h => nomatch h

/-- A sequence fails where its first part does, or where the second does on its answer. -/
theorem Outcome.error_of_bind {α β : Type} {x : Outcome α} {f : α → Outcome β} {e : Failure}
    (h : (x >>= f) = .error e) : x = .error e ∨ ∃ a, x = .ok a ∧ f a = .error e := by
  cases x with
  | error e' => exact .inl (congrArg _ (Except.error.inj h))
  | ok a => exact .inr ⟨a, rfl, h⟩

theorem Outcome.error_of_mapM {α β : Type} {f : α → Outcome β} {e : Failure} :
    ∀ {as : List α}, as.mapM f = .error e → ∃ a ∈ as, f a = .error e
  | [], h => by cases h
  | a :: as, h => by
      rw [List.mapM_cons] at h
      obtain h | ⟨b, -, h⟩ := error_of_bind h
      · exact ⟨a, List.mem_cons_self, h⟩
      obtain h | ⟨bs, -, h⟩ := error_of_bind h
      · obtain ⟨a', ha', h⟩ := error_of_mapM h
        exact ⟨a', List.mem_cons_of_mem a ha', h⟩
      · cases h

theorem Outcome.error_of_replaceAllM {p : Pattern} {f : Match → Outcome (List Char)}
    {text : Array Char} {e : Failure}
    (h : p.replaceAllM f text = .error e) : ∃ m ∈ p.findAll text, f m = .error e := by
  obtain h | ⟨images, -, h⟩ := error_of_bind h
  · obtain ⟨m, hm, h⟩ := error_of_mapM h
    obtain h | ⟨image, -, h⟩ := error_of_bind h
    · exact ⟨m, hm, h⟩
    · cases h
  · cases h

namespace Layout

open Text Pattern

variable {s : Settings} {html blocks kept : List (List Char)} {e : Failure}

/-! ### Attributes -/

/-- An attribute that should list something has no value. -/
def Attribute.IsBare (a : Attribute) : Prop :=
  a.value = none ∧ ∃ n ∈ a.name, String.ofList (lower n) ∈ ["style", "srcset", "data-srcset",
    "sizes"]

/-- The attributes are long enough to be spread, and one of them is bare. -/
def LacksValue (s : Settings) (written : List Char) : Prop :=
  s.maxAttributeLength ≤ written.length ∧ ∃ a ∈ attributesIn written, a.IsBare

theorem bare_of_spreadValue {name value : Option (List Char)} {space : List Char}
    (h : spreadValue name space value = .error e) : e = .missingOperation ∧ value = none ∧
      ∃ n ∈ name, String.ofList (lower n) ∈ ["style", "srcset", "data-srcset", "sizes"] := by
  unfold spreadValue at h
  dsimp only at h
  cases value with
  | some v => split_ifs at h <;> cases h
  | none =>
    split_ifs at h with hstyle hlist
    · obtain ⟨n, rfl, hn⟩ := Option.map_eq_some_iff.1 (eq_of_beq hstyle)
      exact ⟨(Except.error.inj h).symm, rfl, n, rfl, hn ▸ List.mem_cons_self⟩
    · obtain ⟨low, hlow, hmem⟩ := (Option.any_eq_true _ _).1 hlist
      obtain ⟨n, rfl, rfl⟩ := Option.map_eq_some_iff.1 hlow
      exact ⟨(Except.error.inj h).symm, rfl, n, rfl,
        List.mem_cons_of_mem _ (List.contains_iff_mem.1 hmem)⟩
    · cases h

theorem Attribute.bare_of_layout (h : Adds s html blocks kept) {a : Attribute} {margin : List Char}
    (hr : a.layout s margin = .error e) : e = .missingOperation ∧ a.IsBare := by
  have halign : ∀ text spacing, ∃ aligned, (some <$> alignTags s text spacing) = .ok aligned := by
    intro text spacing
    obtain ⟨result, hresult, -⟩ := exists_alignTags h text spacing
    exact ⟨some result, by rw [hresult]; rfl⟩
  obtain hr | ⟨value, -, hr⟩ := Outcome.error_of_bind hr
  · exact bare_of_spreadValue hr
  refine absurd hr (Outcome.ne_error ?_ e)
  refine Outcome.exists_ite (Outcome.exists_bind (halign _ _) fun value => ?_)
    (Outcome.exists_bind ⟨_, rfl⟩ fun value => ?_)
  all_goals
    exact Outcome.exists_ite (Outcome.exists_bind (halign _ _) fun _ =>
      Outcome.exists_ite ⟨_, rfl⟩ ⟨_, rfl⟩)
      (Outcome.exists_bind ⟨_, rfl⟩ fun _ => Outcome.exists_ite ⟨_, rfl⟩ ⟨_, rfl⟩)

theorem lacksValue_of_spreadAttributes (h : Adds s html blocks kept) {line chars : Array Char}
    {m : Match} (hr : spreadAttributes s line chars m = .error e) :
    e = .missingOperation ∧ LacksValue s (strip (m.capture chars 3)) := by
  rw [spreadAttributes] at hr
  generalize Region.childOfIgnored line m.span = ignored at hr
  obtain ⟨-, hr⟩ | ⟨hlong, hr⟩ := ite_eq_iff.1 hr
  · cases hr
  obtain hr | ⟨parts, -, hr⟩ := Outcome.error_of_bind hr
  · obtain ⟨a, ha, hr⟩ := Outcome.error_of_mapM hr
    obtain ⟨he, hbare⟩ := Attribute.bare_of_layout h hr
    simp only [Bool.or_eq_true, decide_eq_true_eq, not_or, not_lt] at hlong
    exact ⟨he, hlong.2, a, ha, hbare⟩
  · cases hr

/-! ### Lines -/

section lines

variable {ps : LinePatterns} (h : Adds s html blocks kept) (hps : AllRead ps)
include h hps

theorem lacksValue_of_indentLine {now : Indentation} {line : List Char}
    (hr : indentLine s ps now line = .error e) :
    e = .missingOperation ∧ ∃ w ∈ handedOn s ps now line, LacksValue s w := by
  obtain hr | ⟨move, hmove, hr⟩ := Outcome.error_of_bind hr
  · exact absurd hr (Outcome.ne_error (exists_moveOf hps _ _ _ _ _) e)
  obtain ⟨-, hr⟩ | ⟨hout, hr⟩ := ite_eq_iff.1 hr
  · exact absurd hr (Outcome.ne_error ⟨_, rfl⟩ e)
  obtain hr | ⟨tag, htag, hr⟩ := Outcome.error_of_bind hr
  · exact absurd hr (Outcome.ne_error hps.attributedTag e)
  obtain hr | ⟨written, -, hr⟩ := Outcome.error_of_bind hr
  · obtain ⟨m, hm, hr⟩ := Outcome.error_of_replaceAllM hr
    obtain ⟨he, hlacks⟩ := lacksValue_of_spreadAttributes h hr
    refine ⟨he, _, ?_, hlacks⟩
    simp only [handedOn, hmove]
    rw [if_neg hout, attributeTexts, htag]
    exact List.mem_map_of_mem hm
  · cases hr

theorem lacksValue_of_indentFrom : ∀ {lines : List (List Char)} {now : Indentation},
    indentFrom s ps now lines = .error e →
      e = .missingOperation ∧ ∃ w ∈ handed s ps now lines, LacksValue s w
  | [], _, hr => by cases hr
  | line :: lines, now, hr => by
      obtain hr | ⟨⟨written, next⟩, hw, hr⟩ := Outcome.error_of_bind hr
      · obtain ⟨he, w, hmem, hlacks⟩ := lacksValue_of_indentLine h hps hr
        exact ⟨he, w, List.mem_append_left _ hmem, hlacks⟩
      obtain hr | ⟨later, -, hr⟩ := Outcome.error_of_bind hr
      · obtain ⟨he, w, hmem, hlacks⟩ := lacksValue_of_indentFrom hr
        refine ⟨he, w, ?_, hlacks⟩
        rw [handed, hw]
        exact List.mem_append_right _ hmem
      · cases hr

/-- The indentation answers on lines without long tags. -/
theorem exists_indentFrom {lines : List (List Char)} {now : Indentation}
    (hshort : ∀ w ∈ handed s ps now lines, (w.length : Int) < s.maxAttributeLength) :
    ∃ result, indentFrom s ps now lines = .ok result := by
  cases hr : indentFrom s ps now lines with
  | ok result => exact ⟨result, rfl⟩
  | error e =>
    obtain ⟨-, w, hw, hlong, -⟩ := lacksValue_of_indentFrom h hps hr
    exact absurd (hshort w hw) (not_lt.2 hlong)

end lines

/-! ### Data -/

section data

open Stateful

variable (tools : Tools)

theorem answers_tidyExpression (scope : Scope) : Answers (tools.tidyExpression scope) := by
  intro s
  rw [Tools.tidyExpression, run_get_bind]
  exact ⟨_, _, rfl⟩

theorem answers_tidyData (scope : Scope) : Answers (tools.tidyData scope) := by
  refine .bind (fun s => ?_) fun _ => .pure _
  rw [Tools.tidyValue, run_get_bind]
  split
  · exact answers_tidyExpression tools _ s
  · split
    · exact ⟨_, _, rfl⟩
    · split
      · exact ⟨_, _, rfl⟩
      · exact answers_tidyExpression tools _ s

theorem answers_tidyAssignment (text : Array Char) (m : Match) :
    Answers (tools.tidyAssignment text m) := by
  unfold Tools.tidyAssignment
  dsimp only
  split
  · exact .bind (.pure _) fun _ => .pure _
  · exact .bind (answers_tidyData tools _) fun _ => .bind (.pure _) fun _ => .pure _

theorem answers_tidyCall (text : Array Char) (m : Match) : Answers (tools.tidyCall text m) :=
  .bind (answers_tidyData tools _) fun _ => .pure _

theorem answers_tidyMatches {p : Pattern} {f : Array Char → Match → Editing (List Char)}
    (hf : ∀ chars m, Answers (f chars m)) (text : List Char) : Answers (tidyMatches p f text) := by
  refine .bind (.mapM (fun m => .bind ?_ fun _ => .pure _) _) fun _ => .pure _
  split
  · exact .pure _
  · exact hf _ m

/-- Data is always laid out, with whatever tools. -/
theorem answers_indent {text a : List Char} (ha : indentLines s (spaceTags s text) = .ok a) :
    ∃ out s', (tools.indent text).run.run s = (.ok out, s') := by
  obtain ⟨b, t, hb⟩ := answers_tidyMatches (answers_tidyAssignment tools) a s
  obtain ⟨c, s', hc⟩ := answers_tidyMatches (answers_tidyCall tools) b t
  exact ⟨_, s', run_indent ha hb hc⟩

end data

/-! ### Documents -/

/-- Once the lines of a document are indented, its data is laid out too, and the settings stay. -/
def Settles (tools : Tools) (s : Settings) (text : List Char) : Prop :=
  ∀ trimmed a, trimmedText s text = .ok trimmed → indentLines s (spaceTags s trimmed) = .ok a →
    ∃ out, (tools.indent trimmed).run.run s = (.ok out, s)

theorem Tools.Keeps.settles {tools : Tools} (h : tools.Keeps) (s : Settings) (text : List Char) :
    Settles tools s text := fun trimmed _ _ ha => by
  obtain ⟨out, s', hrun⟩ := answers_indent tools ha
  have hstill := h.indent trimmed s
  rw [hrun] at hstill
  exact ⟨out, hrun.trans (by rw [show s' = s from hstill.symm])⟩

section

variable {tools : Tools} (h : Readable s html blocks kept) (hcss : s.formatCss.truthy = false)
  (hjs : s.formatJs.truthy = false)

include h hcss hjs

theorem format_of_settles {text : List Char} (hsettles : Settles tools s text) :
    (∃ result, (tools.format text).run.run s = (.ok result, s)) ∨
      (tools.format text).run.run s = (.error .missingOperation, s) ∧ ∃ trimmed,
        trimmedText s text = .ok trimmed ∧
        ∃ w ∈ handed s (.of s) {} ((spaceTags s trimmed).splitOn '\n'), LacksValue s w := by
  by_cases hne : text = []
  · exact .inl ⟨[], by rw [hne]; rfl⟩
  obtain ⟨-, -, -, b, hb, -⟩ := exists_spread_breakLines h.adds (flattenTags s (naturalLines text))
  obtain ⟨c, hc⟩ := exists_trimLines h b
  have htrimmed : trimmedText s text = .ok c := by rw [trimmedText_eq, hb, Outcome.ok_bind, hc]
  cases hd : indentLines s (spaceTags s c) with
  | ok d =>
    obtain ⟨out, hindent⟩ := hsettles c d htrimmed hd
    obtain ⟨result, hresult⟩ := exists_joinShort h out
    exact .inl ⟨_, run_format hne hcss hjs htrimmed hindent hresult⟩
  | error e =>
    obtain ⟨rfl, hlacks⟩ := lacksValue_of_indentFrom h.adds (allRead_of h.adds) hd
    refine .inr ⟨?_, c, htrimmed, hlacks⟩
    have hindent : (tools.indent c).run.run s = (.error .missingOperation, s) := run_indent_error hd
    have hstill : ∀ t, trimmedText s text = .ok t → ((tools.indent t).run.run s).2 = s := by
      intro t ht
      rw [htrimmed] at ht
      cases ht
      rw [hindent]
    rw [run_format_eq hne hcss hjs hstill, htrimmed, Outcome.ok_bind, hindent]
    rfl

/-- Where no evaluation changes the settings, a document is formatted, or a long tag of it lacks a
value and the formatter stops there. -/
theorem format_fails_only (htools : tools.Keeps) (text : List Char) :
    (∃ result, (tools.format text).run.run s = (.ok result, s)) ∨
      (tools.format text).run.run s = (.error .missingOperation, s) ∧ ∃ trimmed,
        trimmedText s text = .ok trimmed ∧
        ∃ w ∈ handed s (.of s) {} ((spaceTags s trimmed).splitOn '\n'), LacksValue s w :=
  format_of_settles h hcss hjs (htools.settles s text)

/-- The formatter answers on a document without long tags, and leaves the settings alone. -/
theorem exists_format {text : List Char} (hsettles : Settles tools s text)
    (hshort : ShortAttributes s text) :
    ∃ result, (tools.format text).run.run s = (.ok result, s) := by
  obtain hresult | ⟨-, trimmed, htrimmed, w, hw, hlong, -⟩ := format_of_settles h hcss hjs hsettles
  · exact hresult
  · exact absurd (hshort trimmed htrimmed w hw) (not_lt.2 hlong)

end

end Layout

end TemplateTidy
