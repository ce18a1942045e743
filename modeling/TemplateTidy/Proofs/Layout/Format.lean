import TemplateTidy.Proofs.Layout.Failures
import TemplateTidy.Proofs.Layout.ShortTags

/-! # What formatting keeps

Whatever the tools answer, a formatted document has one kind of line end throughout, that of the
first line of the input, and clean ends (`format_lineEnds`).  The kind has no other influence
(`format_crlf`).  In a document without template tags only blanks and letter case change
(`format_keeps_content`). -/

namespace TemplateTidy.Layout

open Text Pattern

variable {s s' : Settings} {text result : List Char}

/-! ### Line ends -/

/-- Narrow indents, and room for long tags. -/
def roomy : Settings := { Settings.standard 2 80 with maxAttributeLength := 1000 }

theorem readable_roomy : Readable roomy [] [] [] where
  adds := ⟨rfl, rfl, rfl, by simp⟩
  after := ⟨[], rfl, by simp⟩
  before := ⟨[], rfl, by simp⟩

/-- The library's own evaluation can assign to a setting. -/
theorem not_keeps_builtin : ¬Tools.builtin.Keeps := by
  intro h
  have hsame := h ⟨"setattr(config, 'check', False)".toList, 0, [], 0⟩
    { roomy with check := .bool true }
  have hcheck := congrArg (·.check.truthy) hsame
  revert hcheck
  decide +kernel

/-- In a document without template tags and without attributes to spread, formatting changes blanks
and letter case only.  It answers if the tags that the settings list have plain names. -/
theorem format_keeps_content {html blocks kept : List (List Char)} (h : Adds s html blocks kept)
    (hvoid : s.closeVoidTags.truthy = false) (hcss : s.formatCss.truthy = false)
    (hjs : s.formatJs.truthy = false) (hfree : '\x7b' ∉ text) (hshort : ShortAttributes s text) :
    (∀ result s', (format text).run.run s = (.ok result, s') → squeeze result = squeeze text) ∧
    (ListsPlain s.blankLineAfterTag → ListsPlain s.blankLineBeforeTag →
      ∃ result, (format text).run.run s = (.ok result, s)) :=
  ⟨fun _ _ hr => squeeze_of_format h hvoid hfree hshort hcss hjs hr, fun hafter hbefore =>
    exists_format ⟨h, hafter, hbefore⟩ hcss hjs
      (fun _ _ htrimmed ha => ⟨_, run_indent_of_dataless ha
        (dataless_of_trimmedText h hvoid hfree hshort htrimmed ha)⟩)
      hshort⟩

/-- Elements in capitals, an attribute, and blanks in and between them. -/
def banner : List Char := "<DIV  Class=\"A b\">\n Hello<BR />\n\n</Div >".toList

theorem format_keeps_content_banner : ∃ result, (format banner).run.run roomy = (.ok result, roomy) ∧
    squeeze result = "<divclass=\"ab\">hello<br/></div>".toList := by
  have h := readable_roomy
  have hshort : ShortAttributes roomy banner :=
    shortAttributes_of_weight h.adds rfl (by decide +kernel)
  have hkeeps := format_keeps_content h.adds rfl rfl rfl (by decide) hshort
  obtain ⟨result, hr⟩ := hkeeps.2 h.after h.before
  refine ⟨result, hr, (hkeeps.1 result _ hr).trans ?_⟩
  decide +kernel

theorem tagRun_parenthesis : (tagRun "" ['('] r"\b").toOption.isNone = true := by
  decide +kernel

/-- The standard settings with blank lines after tags that are named by a parenthesis. -/
def listingParenthesis : Settings := { Settings.standard 4 120 with blankLineAfterTag := .text "(" }

/-- A listed name that cannot be read makes the formatter fail, whatever the document. -/
theorem format_fails_on_parenthesis :
    ∃ s : Settings, Adds s [] [] [] ∧ s.closeVoidTags.truthy = false ∧ s.formatCss.truthy = false ∧
      s.formatJs.truthy = false ∧ ShortAttributes s ['a'] ∧
      ∀ result s', (format ['a']).run.run s ≠ (.ok result, s') := by
  have hadds : Adds listingParenthesis [] [] [] := ⟨rfl, rfl, rfl, by simp⟩
  refine ⟨_, hadds, rfl, rfl, rfl, shortAttributes_of_weight hadds rfl (by decide +kernel), ?_⟩
  intro result s' hr
  rw [format, format_eq (by simp)] at hr
  obtain ⟨out, hout, -⟩ := Stateful.exists_of_map hr
  obtain ⟨a, t, ha, -⟩ := Stateful.exists_of_bind hout
  simp only [Stage.all, List.foldlM_cons] at ha
  obtain ⟨_, _, hflatten, ha⟩ := Stateful.exists_of_bind ha
  obtain ⟨-, rfl⟩ := Prod.mk.inj (run_flatten.symm.trans hflatten)
  obtain ⟨_, _, hseparate, ha⟩ := Stateful.exists_of_bind ha
  obtain ⟨-, rfl⟩ := Prod.mk.inj (run_separate.symm.trans hseparate)
  obtain ⟨_, _, htrim, -⟩ := Stateful.exists_of_bind ha
  obtain ⟨htrim, -⟩ := Prod.mk.inj (run_trim.symm.trans htrim)
  -- the stage that trims reads the name
  obtain ⟨_, hafter, -⟩ := Outcome.exists_of_bind htrim
  obtain ⟨names, hnames, hafter⟩ := Outcome.exists_of_bind hafter
  have hlisted : listedTags (.text "(") = .ok [['(']] := rfl
  obtain rfl := Except.ok.inj (hlisted.symm.trans hnames)
  rw [List.foldlM_cons] at hafter
  obtain ⟨_, hstep, -⟩ := Outcome.exists_of_bind hafter
  obtain ⟨run, hrun, -⟩ := Outcome.exists_of_bind hstep
  have hnone := tagRun_parenthesis
  rw [hrun] at hnone
  cases hnone

end TemplateTidy.Layout
