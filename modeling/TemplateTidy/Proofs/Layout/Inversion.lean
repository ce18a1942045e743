import TemplateTidy.Layout.Document
import TemplateTidy.Proofs.Stateful

/-! # What the stages answer

A stage that answers has gone through all of its steps, and each of them has answered.  The lemmas
here take an answer apart: for a sequence, a choice and a fold, for the indentation of a line and
for a short element.  `handed` lists the attribute texts that the indentation hands over to be
spread over several lines. -/

namespace TemplateTidy

/-- What a sequence answers comes from an answer of its first part. -/
theorem Outcome.exists_of_bind {ε α β : Type} {x : Except ε α} {f : α → Except ε β} {b : β}
    (h : x >>= f = .ok b) : ∃ a, x = .ok a ∧ f a = .ok b := by
  cases x with
  | error e => cases h
  | ok a => exact ⟨a, rfl, h⟩

@[simp] theorem Outcome.ok_bind {α β : Type} (a : α) (f : α → Outcome β) :
    (Except.ok a >>= f) = f a := rfl

/-- What a choice answers is an answer of the branch that it takes. -/
theorem Outcome.branch_of_ite {α : Type} {c : Prop} [Decidable c] {x y : Outcome α} {a : α}
    (h : (if c then x else y) = .ok a) : (c ∧ x = .ok a) ∨ (¬c ∧ y = .ok a) := by
  split at h
  next hc => exact .inl ⟨hc, h⟩
  next hc => exact .inr ⟨hc, h⟩

/-- What each step of a fold keeps, the fold keeps. -/
theorem Outcome.foldlM_keeps {α β : Type} {P : β → Prop} {f : β → α → Outcome β}
    (hf : ∀ b a b', P b → f b a = .ok b' → P b') :
    ∀ {as : List α} {b b' : β}, P b → as.foldlM f b = .ok b' → P b'
  | [], b, b', hb, h => by
      rw [List.foldlM_nil] at h
      rwa [← Except.ok.inj h]
  | a :: as, b, b', hb, h => by
      rw [List.foldlM_cons] at h
      obtain ⟨m, hm, h⟩ := exists_of_bind h
      exact foldlM_keeps hf (hf b a m hb hm) h

/-- What the replacements of each pass over a text keep, a pass for each name keeps. -/
theorem Outcome.passes_keep {P : List Char → Prop} {names : Outcome (List (List Char))}
    {run : List Char → Outcome Pattern} {image : List Char → Match → List Char}
    {text result : List Char}
    (hP : ∀ now (p : Pattern), P now → P (p.replaceAll (image now) now.toArray)) (h : P text)
    (hr : (do (← names).foldlM (fun now name => do return (← run name).replaceAll (image now) now.toArray) text) =
      .ok result) : P result := by
  obtain ⟨names, -, hr⟩ := exists_of_bind hr
  refine foldlM_keeps (fun now name next hnow hnext => ?_) h hr
  obtain ⟨p, -, hnext⟩ := exists_of_bind hnext
  rw [← Except.ok.inj hnext]
  exact hP now p hnow

/-! ### Answers of the parts -/

theorem Outcome.exists_bind {α β : Type} {x : Outcome α} {f : α → Outcome β} (hx : ∃ a, x = .ok a)
    (hf : ∀ a, ∃ b, f a = .ok b) : ∃ b, x >>= f = .ok b := by
  obtain ⟨a, rfl⟩ := hx
  exact hf a

theorem Outcome.exists_branch {α : Type} {c : Prop} [Decidable c] {x y : Outcome α}
    (hx : c → ∃ a, x = .ok a) (hy : ¬c → ∃ a, y = .ok a) : ∃ a, (if c then x else y) = .ok a := by
  split
  next hc => exact hx hc
  next hc => exact hy hc

theorem Outcome.exists_ite {α : Type} {c : Prop} [Decidable c] {x y : Outcome α}
    (hx : ∃ a, x = .ok a) (hy : ∃ a, y = .ok a) : ∃ a, (if c then x else y) = .ok a :=
  exists_branch (fun _ => hx) fun _ => hy

/-- A fold answers if each of its steps does. -/
theorem Outcome.exists_foldlM {α β : Type} {f : β → α → Outcome β} : ∀ {as : List α},
    (∀ a ∈ as, ∀ b, ∃ b', f b a = .ok b') → ∀ b, ∃ b', as.foldlM f b = .ok b'
  | [], _, b => ⟨b, rfl⟩
  | a :: as, h, b => by
      rw [List.foldlM_cons]
      exact exists_bind (h a List.mem_cons_self b)
        (exists_foldlM fun a' ha' => h a' (List.mem_cons_of_mem _ ha'))

namespace Layout

variable {s : Settings}

/-! ### Lines -/

/-- The attribute texts of the tags on a written line. -/
def attributeTexts (ps : LinePatterns) (written : List Char) : List (List Char) :=
  match ps.attributedTag with
  | .ok tag => (tag.findAll written.toArray).map fun m => Text.strip (m.capture written.toArray 3)
  | .error _ => []

/-- The attribute texts that the indentation of a line hands over; in a region it hands over
none. -/
def handedOn (s : Settings) (ps : LinePatterns) (now : Indentation) (line : List Char) :
    List (List Char) :=
  let chars := line.toArray
  let standing := Standing.of chars
  let depth := now.depth + (if standing.opens then 1 else 0)
  let depth := if standing.closesSafely then depth - 1 else depth
  let inRegion := (now.inRegion || standing.opens) && !(standing.closesSafely && depth == 0)
  match moveOf s ps now.inSet inRegion (standing.opens && !now.inRegion) standing chars with
  | .ok move =>
    if inRegion || standing.opens then []
    else attributeTexts ps (placed s (move.lineLevel now.level) line ++ ['\n'])
  | .error _ => []

/-- The attribute texts that the indentation of lines hands over. -/
def handed (s : Settings) (ps : LinePatterns) (now : Indentation) :
    List (List Char) → List (List Char)
  | [] => []
  | line :: rest =>
    handedOn s ps now line ++
      match indentLine s ps now line with
      | .ok (_, next) => handed s ps next rest
      | .error _ => []

/-- A line is written in its place; outside the regions its tags are handed over to be spread. -/
theorem indentLine_cases {ps : LinePatterns} {now next : Indentation} {line written : List Char}
    (h : indentLine s ps now line = .ok (written, next)) :
    ∃ level, written = placed s level line ++ ['\n'] ∨
      ∃ tag, ps.attributedTag = .ok tag ∧
        tag.replaceAllM (spreadAttributes s line.toArray (placed s level line ++ ['\n']).toArray)
          (placed s level line ++ ['\n']).toArray = .ok written ∧
        handedOn s ps now line = attributeTexts ps (placed s level line ++ ['\n']) := by
  obtain ⟨move, hmove, h⟩ := Outcome.exists_of_bind h
  refine ⟨move.lineLevel now.level, ?_⟩
  obtain ⟨-, h⟩ | ⟨hout, h⟩ := Outcome.branch_of_ite h
  · obtain ⟨w, hw, h⟩ := Outcome.exists_of_bind h
    obtain rfl : w = written := (Prod.mk.inj (Except.ok.inj h)).1
    exact .inl (Except.ok.inj hw).symm
  · obtain ⟨tag, htag, h⟩ := Outcome.exists_of_bind h
    obtain ⟨w, hw, h⟩ := Outcome.exists_of_bind h
    obtain rfl : w = written := (Prod.mk.inj (Except.ok.inj h)).1
    refine .inr ⟨tag, htag, hw, ?_⟩
    simp only [handedOn, hmove]
    exact if_neg hout

/-! ### The document -/

section document

open Stateful

variable {tools : Tools} {s' t : Settings} {text a b c result : List Char}

/-- An indented document with its ends put right. -/
def endsRight (s : Settings) (text : List Char) : List Char :=
  Text.stripRight (if s.preserveBlankLines.truthy then text else Text.stripLeft text) ++ ['\n']

theorem exists_of_indent (h : (tools.indent text).run.run s = (.ok result, s')) :
    ∃ a b c t, indentLines s (spaceTags s text) = .ok a ∧ (tools.tidyAssignments a).run.run s =
      (.ok b, t) ∧ (tools.tidyCalls b).run.run t = (.ok c, s') ∧ result = endsRight s' c := by
  obtain ⟨s₀, s₁, hget, h⟩ := exists_of_bind h
  obtain ⟨rfl, rfl⟩ := of_get hget
  obtain ⟨a, s₂, ha, h⟩ := exists_of_bind h
  obtain ⟨hlines, rfl⟩ := of_lift ha
  obtain ⟨b, t, hb, h⟩ := exists_of_bind h
  obtain ⟨c, s₃, hc, h⟩ := exists_of_bind h
  obtain ⟨s₄, s₅, hget, h⟩ := exists_of_bind h
  obtain ⟨rfl, rfl⟩ := of_get hget
  obtain ⟨rfl, rfl⟩ := of_pure h
  exact ⟨a, b, c, t, hlines, hb, hc, rfl⟩

theorem run_indent (ha : indentLines s (spaceTags s text) = .ok a)
    (hb : (tools.tidyAssignments a).run.run s = (.ok b, t))
    (hc : (tools.tidyCalls b).run.run t = (.ok c, s')) :
    (tools.indent text).run.run s = (.ok (endsRight s' c), s') := by
  rw [Tools.indent, run_get_bind, ha, run_bind (run_lift _ _), run_bind hb, run_bind hc]
  rfl

theorem run_indent_error {e : Failure} (h : indentLines s (spaceTags s text) = .error e) :
    (tools.indent text).run.run s = (.error e, s) := by
  rw [Tools.indent, run_get_bind, h]
  rfl

/-- The text holds no data to be laid out. -/
structure Dataless (text : List Char) : Prop where
  assignment : assignment.findAll text.toArray = []
  call : call.findAll text.toArray = []

theorem run_tidyMatches_of_nil {p : Pattern} (h : p.findAll text.toArray = [])
    (f : Array Char → Match → Editing (List Char)) :
    (tidyMatches p f text).run.run s = (.ok text, s) := by
  have hall : splice text.toArray 0 [] = text := by simp [splice, Span.of]
  rw [tidyMatches, Pattern.replaceAllM, h]
  exact congrArg (fun all => (Except.ok all, s)) hall

/-- Where there is no data, the indented lines are the document. -/
theorem run_indent_of_dataless (ha : indentLines s (spaceTags s text) = .ok a)
    (hdata : Dataless a) : (tools.indent text).run.run s = (.ok (endsRight s a), s) :=
  run_indent ha (run_tidyMatches_of_nil hdata.assignment _) (run_tidyMatches_of_nil hdata.call _)

theorem still_indent (h : ∀ a, indentLines s (spaceTags s text) = .ok a → Dataless a) :
    ((tools.indent text).run.run s).2 = s := by
  cases ha : indentLines s (spaceTags s text) with
  | error e => rw [run_indent_error ha]
  | ok a => rw [run_indent_of_dataless ha (h a ha)]

theorem indentDocument_of_dataless (ha : indentLines s (spaceTags s text) = .ok a)
    (hdata : Dataless a) : indentDocument s text = .ok (endsRight s a) := by
  rw [indentDocument, run_indent_of_dataless ha hdata]

theorem exists_of_indentDocument (h : indentDocument s text = .ok result) :
    ∃ a, indentLines s (spaceTags s text) = .ok a ∧ (Dataless a → result = endsRight s a) := by
  obtain ⟨a, b, c, t, ha, -⟩ := exists_of_indent (Prod.ext h rfl)
  refine ⟨a, ha, fun hdata => ?_⟩
  rw [indentDocument_of_dataless ha hdata] at h
  exact (Except.ok.inj h).symm

end document

/-! ### Short elements -/

section joining

variable {ignored : List Span} {chars : Array Char} {m : Match} {image : List Char}

/-- A short element stays as it is, or it is joined: outside the ignored spans, below the line
length, and with none of the tags that ask for blank lines. -/
theorem joined_inversion (h : joined s ignored chars m = .ok image) :
    image = m.text chars ∨
      image = m.capture chars 1 ++ m.capture chars 3 ++ m.capture chars 4 ∧
        ignored.any (Region.within m.span) = false ∧
        (joinedLength s (m.capture chars 1) (m.capture chars 3) (m.capture chars 4) : Int) <
        s.maxLineLength ∧
        freeOf s.blankLineAfterTag (m.capture chars 3) = .ok true ∧
        freeOf s.blankLineBeforeTag (m.capture chars 3) = .ok true := by
  unfold joined at h
  simp only at h
  split at h
  next hguard =>
    rw [Bool.and_eq_true, Bool.not_eq_true', decide_eq_true_eq] at hguard
    obtain ⟨a, ha, h⟩ := Outcome.exists_of_bind h
    split at h
    next hafter =>
      obtain ⟨b, hb, h⟩ := Outcome.exists_of_bind h
      split at h
      next hbefore =>
        subst hafter hbefore
        exact .inr ⟨(Except.ok.inj h).symm, hguard.1, hguard.2, ha, hb⟩
      next => exact .inl (Except.ok.inj h).symm
    next => exact .inl (Except.ok.inj h).symm
  next => exact .inl (Except.ok.inj h).symm

theorem joined_cases (h : joined s ignored chars m = .ok image) :
    image = m.text chars ∨ image = m.capture chars 1 ++ m.capture chars 3 ++ m.capture chars 4 :=
  (joined_inversion h).imp_right And.left

end joining

end Layout

end TemplateTidy
