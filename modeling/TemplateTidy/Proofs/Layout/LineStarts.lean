import TemplateTidy.Proofs.Layout.Failures
import TemplateTidy.Proofs.Layout.LineKinds
import TemplateTidy.Proofs.Layout.ShortTags

/-! # Starts of lines

In a document without template tags and without attributes to spread, the indentation writes each
line behind a number of indents and changes nothing else (`indentDocument_indents_lines`).  No
attributes are to be spread if the lines are short (`shortTags_of_short_lines`).  A name in the
settings that cannot be read makes the indentation fail (`indentDocument_fails_on_parenthesis`). -/

namespace TemplateTidy.Layout

open Text Pattern

variable {s : Settings} {ps : LinePatterns} {text result : List Char}

/-- Lines behind their indents, each with its line feed. -/
def indented (s : Settings) (levels : List Nat) (lines : List (List Char)) : List Char :=
  (List.zipWith (fun n line => indents s n ++ (line ++ ['\n'])) levels lines).flatten

/-- No tag on the lines of a text has attributes that are spread over several lines. -/
def ShortTags (s : Settings) (text : List Char) : Prop :=
  ∀ w ∈ handed s (.of s) {} (text.splitOn '\n'), (w.length : Int) < s.maxAttributeLength

/-! ### Lines -/

theorem placed_eq_indents (level : Option Nat) (line : List Char) :
    placed s level line = indents s (level.getD 0 : Nat) ++ line := by
  cases level with
  | none => simp [placed, indents]
  | some n => rfl

/-- Line by line, the indentation puts a number of indents before each. -/
theorem exists_levels_of_indentFrom : ∀ {lines : List (List Char)} {now : Indentation}
    {result : List Char}, (∀ w ∈ handed s ps now lines, (w.length : Int) < s.maxAttributeLength) →
    indentFrom s ps now lines = .ok result →
      ∃ levels : List Nat, levels.length = lines.length ∧ result = indented s levels lines
  | [], now, result, _, hr => ⟨[], rfl, (Except.ok.inj hr).symm⟩
  | line :: lines, now, result, hshort, hr => by
      obtain ⟨⟨written, next⟩, hw, hr⟩ := Outcome.exists_of_bind hr
      obtain ⟨later, hlater, hr⟩ := Outcome.exists_of_bind hr
      rw [handed, hw] at hshort
      obtain ⟨level, rfl⟩ := exists_placed_of_indentLine (fun w h =>
        hshort w (List.mem_append_left _ h)) hw
      obtain ⟨levels, hlength, rfl⟩ :=
        exists_levels_of_indentFrom (fun w h => hshort w (List.mem_append_right _ h)) hlater
      refine ⟨level.getD 0 :: levels, by simp [hlength], ?_⟩
      rw [← Except.ok.inj hr, placed_eq_indents]
      simp [indented]

/-- What the indentation answers: the lines behind their indents, stripped at the ends of the
document. -/
theorem exists_levels_of_indentDocument (hfree : '\x7b' ∉ text) (hshort : ShortTags s text)
    (hr : indentDocument s text = .ok result) :
    ∃ levels : List Nat, levels.length = (text.splitOn '\n').length ∧
      result = stripRight (if s.preserveBlankLines.truthy then indented s levels (text.splitOn '\n')
        else stripLeft (indented s levels (text.splitOn '\n'))) ++ ['\n'] := by
  obtain ⟨a, ha, hr⟩ := exists_of_indentDocument hr
  rw [spaceTags_eq hfree] at ha
  have hbrace : '\x7b' ∉ a := brace_not_mem hfree ((squeeze_indentFrom hshort ha).trans
    (squeeze_splitOn text))
  obtain ⟨levels, hlength, rfl⟩ := exists_levels_of_indentFrom hshort ha
  exact ⟨levels, hlength, hr (dataless_of_not_mem hbrace)⟩

theorem exists_indentDocument {html blocks kept : List (List Char)} (h : Adds s html blocks kept)
    (hfree : '\x7b' ∉ text) (hshort : ShortTags s text) :
    ∃ result, indentDocument s text = .ok result := by
  obtain ⟨a, ha⟩ := exists_indentFrom h (allRead_of h) hshort
  have hbrace : '\x7b' ∉ a := brace_not_mem hfree ((squeeze_indentFrom hshort ha).trans
    (squeeze_splitOn text))
  have hlines : indentLines s (spaceTags s text) = .ok a := by rwa [spaceTags_eq hfree]
  exact ⟨_, indentDocument_of_dataless hlines (dataless_of_not_mem hbrace)⟩

/-- A document with short lines has no attributes to spread. -/
theorem shortTags_of_short_lines {k : Nat} (hlines : ∀ l ∈ text.splitOn '\n', l.length ≤ k)
    (hk : ((k + 1 : Nat) : Int) < s.maxAttributeLength) : ShortTags s text := by
  intro w hw
  have hle := length_le_of_handed hlines w hw
  omega

/-! ### Documents -/

/-- The indentation changes only the starts of lines: whatever it answers on a document without
template tags and without attributes to spread is the lines behind their indents, stripped at both
ends of the document, with one line feed.  It answers if the names in the settings are plain. -/
theorem indentDocument_indents_lines (hfree : '\x7b' ∉ text) (hshort : ShortTags s text) :
    (∀ result, indentDocument s text = .ok result →
      ∃ levels : List Nat, levels.length = (text.splitOn '\n').length ∧
        result = stripRight
          (if s.preserveBlankLines.truthy then indented s levels (text.splitOn '\n')
          else stripLeft (indented s levels (text.splitOn '\n'))) ++ ['\n']) ∧
    (∀ html blocks kept, Adds s html blocks kept → ∃ result, indentDocument s text = .ok result) :=
  ⟨fun _ hr => exists_levels_of_indentDocument hfree hshort hr,
    fun _ _ _ h => exists_indentDocument h hfree hshort⟩

theorem indentDocument_indents_lines_paragraph :
    ∃ (result : List Char) (levels : List Nat),
      indentDocument (.standard 4 120) "<p id=\"a\">\nb\n</p>".toList = .ok result ∧
      levels.length = 3 ∧
      result = stripRight (stripLeft (indented (.standard 4 120) levels
        ["<p id=\"a\">".toList, ['b'], "</p>".toList])) ++ ['\n'] := by
  have hsplit : "<p id=\"a\">\nb\n</p>".toList.splitOn '\n' = ["<p id=\"a\">".toList, ['b'],
      "</p>".toList] := by
    decide
  have hshort : ShortTags (.standard 4 120) "<p id=\"a\">\nb\n</p>".toList :=
    shortTags_of_short_lines (k := 10) (by rw [hsplit]; decide) (by decide)
  have hindents := indentDocument_indents_lines (by decide) hshort
  obtain ⟨result, hr⟩ := hindents.2 _ _ _ (readable_standard 4 120).adds
  obtain ⟨levels, hlength, hresult⟩ := hindents.1 result hr
  rw [hsplit] at hlength hresult
  exact ⟨result, levels, hr, hlength, hresult⟩

/-! ### Names that cannot be read -/

/-- Outside the regions each line is searched for tags. -/
theorem exists_attributedTag_of_indentLine {now next : Indentation} {line written : List Char}
    (hstanding : Standing.of line.toArray = .quiet) (hout : now.inRegion = false)
    (h : indentLine s ps now line = .ok (written, next)) : ∃ tag, ps.attributedTag = .ok tag := by
  obtain ⟨move, -, h⟩ := Outcome.exists_of_bind h
  obtain ⟨hregion, -⟩ | ⟨-, h⟩ := Outcome.branch_of_ite h
  · rw [hstanding, hout] at hregion
    cases hregion
  · obtain ⟨tag, htag, -⟩ := Outcome.exists_of_bind h
    exact ⟨tag, htag⟩

/-- The standard settings with an opening parenthesis as the name of an element. -/
def withParenthesis : Settings := { Settings.standard 4 120 with customHtml := "|(" }

theorem attributedTag_parenthesis : (attributedTag withParenthesis).toOption.isNone = true := by
  have helements : (elements withParenthesis).toList = (words false (tagWords [])).print ++
      ['|', '('] := by
    have hstandard := toList_elements (readable_standard 4 120).adds
    rw [elements, String.toList_append] at hstandard ⊢
    rw [← hstandard]
    simp [withParenthesis, Settings.standard]
  rw [attributedTag, compileSource, String.toList_append, String.toList_append,
    String.toList_append, helements]
  repeat rw [String.toList_ofList]
  decide +kernel

/-- A name that cannot be read makes the indentation fail, even where no line holds a tag. -/
theorem indentDocument_fails_on_parenthesis :
    ∃ (s : Settings) (text : List Char), '\x7b' ∉ text ∧ ShortTags s text ∧
      ∀ result, indentDocument s text ≠ .ok result := by
  have hnone : ∀ tag, (LinePatterns.of withParenthesis).attributedTag ≠ .ok tag := by
    intro tag htag
    have hfails := attributedTag_parenthesis
    simp only [LinePatterns.of] at htag
    rw [htag] at hfails
    cases hfails
  have hsplit : ['a'].splitOn '\n' = [['a']] := List.splitOn_eq_singleton (by decide)
  refine ⟨withParenthesis, ['a'], by decide, ?_, fun result hr => ?_⟩
  · exact shortTags_of_short_lines (k := 1) (by rw [hsplit]; decide) (by decide)
  · obtain ⟨lines, hlines, -⟩ := exists_of_indentDocument hr
    rw [spaceTags_eq (by decide), indentLines, hsplit] at hlines
    obtain ⟨⟨written, next⟩, hline, -⟩ := Outcome.exists_of_bind hlines
    have htext : textOutlook.Holds ['a'] :=
      ⟨⟨['a'], rfl, by simp [textOutlook, markup]⟩, by simp [textOutlook]⟩
    have hquiet : Standing.of ['a'].toArray = .quiet :=
      standing_of_quiet htext (by simp [quietOutlooks])
    obtain ⟨tag, htag⟩ := exists_attributedTag_of_indentLine hquiet rfl hline
    exact hnone tag htag

end TemplateTidy.Layout
