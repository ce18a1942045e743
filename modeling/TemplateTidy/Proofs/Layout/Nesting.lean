import TemplateTidy.Proofs.Layout.LineKinds
import TemplateTidy.Proofs.Layout.SpacedTags

/-! # Indentation of nested documents

A document whose elements, template blocks, scripts and styles are nested, one tag or text on a
line.  Each line is indented by the number of elements and blocks that it lies in, and the lines of
scripts and styles are kept (`indentDocument_nested`).  One step of the indenter is known for each
kind of line; `Runs` puts steps together, and the induction follows the document.  All regions keep
their lines that way (`runs_region`). -/

namespace TemplateTidy.Layout

open Text

/-! ### Nested documents -/

/-- A nested document. -/
inductive Nested where
  | empty
  | text (t : TextLine) (rest : Nested)
  | element (n : ElementName) (inner rest : Nested)
  | conditional (w : PlainWord) (inner rest : Nested)
  | alternative (w : PlainWord) (inner other rest : Nested)
  | loop (w v : PlainWord) (inner rest : Nested)
  | raw (n : RawName) (lines : List RawLine) (rest : Nested)

/-- The contents of the tag that opens a conditional block. -/
def ifBody (w : PlainWord) : List Char :=
  "if ".toList ++ w.chars

/-- The contents of the tag that opens a loop. -/
def forBody (w v : PlainWord) : List Char :=
  "for ".toList ++ (w.chars ++ (" in ".toList ++ v.chars))

namespace Nested

/-- The lines of a document that lies in `level` elements and blocks, each with its own number of
them, or with nothing if it is kept as it is. -/
def lines (level : Nat) : Nested → List (Option Nat × List Char)
  | .empty => []
  | .text t rest => (some level, t.chars) :: rest.lines level
  | .element n inner rest =>
    (some level, openTag n.name.toList) :: (inner.lines (level + 1) ++
      (some level, closeTag n.name.toList) :: rest.lines level)
  | .conditional w inner rest =>
    (some level, percentText (ifBody w)) :: (inner.lines (level + 1) ++
      (some level, percentText "endif".toList) :: rest.lines level)
  | .alternative w inner other rest =>
    (some level, percentText (ifBody w)) :: (inner.lines (level + 1) ++
      (some level, percentText "else".toList) :: (other.lines (level + 1) ++
        (some level, percentText "endif".toList) :: rest.lines level))
  | .loop w v inner rest =>
    (some level, percentText (forBody w v)) :: (inner.lines (level + 1) ++
      (some level, percentText "endfor".toList) :: rest.lines level)
  | .raw n ls rest =>
    (some level, openTag n.name.toList) :: (ls.map (fun l => (none, l.chars)) ++
      (some level, closeTag n.name.toList) :: rest.lines level)

end Nested

/-! ### Runs of the indenter -/

section runs

variable {s : Settings} {now next last : Indentation} {ls ls' : List (Option Nat × List Char)}

/-- Lines as they are written, each with its line feed. -/
def written (s : Settings) (ls : List (Option Nat × List Char)) : List Char :=
  ls.flatMap fun l => placed s l.1 l.2 ++ ['\n']

/-- The indenter writes the lines with their indents, whatever follows, and then stands at
`next`. -/
def Runs (s : Settings) (now : Indentation) (ls : List (Option Nat × List Char))
    (next : Indentation) : Prop :=
  ∀ rest, indentFrom s plainPatterns now (ls.map Prod.snd ++ rest) =
    (indentFrom s plainPatterns next rest).map (written s ls ++ ·)

theorem Runs.nil : Runs s now [] now := by
  intro rest
  cases h : indentFrom s plainPatterns now rest <;> simp [h, written, Except.map]

theorem Runs.cons {level : Option Nat} {line : List Char}
    (hline : indentLine s plainPatterns now line = .ok (placed s level line ++ ['\n'], next))
    (h : Runs s next ls last) : Runs s now ((level, line) :: ls) last := by
  intro rest
  rw [List.map_cons, List.cons_append, indentFrom, hline, Outcome.ok_bind]
  dsimp only
  rw [h rest]
  cases indentFrom s plainPatterns last rest with
  | error e => rfl
  | ok r =>
    simp only [Except.map, Outcome.ok_bind, written, List.flatMap_cons, List.append_assoc]
    rfl

theorem Runs.append (h : Runs s now ls next) (h' : Runs s next ls' last) :
    Runs s now (ls ++ ls') last := by
  intro rest
  rw [List.map_append, List.append_assoc, h, h' rest]
  cases indentFrom s plainPatterns last rest with
  | error e => rfl
  | ok r => simp [Except.map, written]

theorem Runs.result (h : Runs s now ls next) :
    indentFrom s plainPatterns now (ls.map Prod.snd) = .ok (written s ls) := by
  have hend := h []
  simpa [indentFrom, pure, Except.pure, Except.map] using hend

/-- Lines that lie in a region `depth` deep, none of which ends it. -/
def WithinRegion : (depth : Nat) → List (List Char) → Prop
  | _, [] => True
  | depth, line :: lines => depthAfter depth line ≠ 0 ∧ WithinRegion (depthAfter depth line) lines

theorem Runs.within {lines : List (List Char)} : ∀ {now : Indentation}, now.inRegion = true →
    WithinRegion now.depth lines →
    Runs s now (lines.map (none, ·)) { now with depth := lines.foldl depthAfter now.depth } := by
  induction lines with
  | nil => exact fun _ _ => .nil
  | cons line lines ih =>
    intro now hnow h
    rw [List.foldl_cons]
    exact .cons (indentLine_within hnow h.1)
      (@ih { now with depth := depthAfter now.depth line } hnow h.2)

/-- The lines behind one that opens a region are kept, as long as none of them ends it. -/
theorem runs_region {level : Nat} {line : List Char} {lines : List (List Char)}
    (hline : Standing.of line.toArray = ⟨true, false, false⟩) (hlines : WithinRegion 1 lines) :
    Runs s (outside level) ((some level, line) :: lines.map (none, ·))
      { inside level with depth := lines.foldl depthAfter 1 } :=
  .cons (indentLine_opening hline) (.within rfl hlines)

end runs

/-! ### The lines of a nested document -/

namespace Nested

variable {s : Settings}

/-- What follows the head of a tag that opens a block. -/
theorem strange_not_mem {c : Char} (hc : c ∈ strange) :
    (∀ w : PlainWord, c ∉ w.chars) ∧ c ∉ " in %\x7d".toList := by
  have hall : (strange.all fun c =>
      !(c.isAlphanum || c == '_') && !" in %\x7d".toList.contains c) = true := rfl
  have h := List.all_eq_true.1 hall c hc
  simp only [Bool.and_eq_true, Bool.not_eq_true'] at h
  refine ⟨fun w hmem => ?_, by simpa using h.2⟩
  rw [w.plain c hmem] at h
  cases h.1

theorem indentLine_if (w : PlainWord) (level : Nat) :
    indentLine s plainPatterns (outside level) (percentText (ifBody w)) =
      .ok (placed s (some level) (percentText (ifBody w)) ++ ['\n'], outside (level + 1)) := by
  have h : indentLine s plainPatterns (outside level) _ = _ :=
    indentLine_openPercent "if " (by simp [openingHeads]) (w.chars ++ [' ', '%', '}'])
      fun c hc hmem => by
      obtain ⟨h₁, h₂⟩ := strange_not_mem hc
      simp_all
  simpa [percentText, ifBody] using h

theorem indentLine_for (w v : PlainWord) (level : Nat) :
    indentLine s plainPatterns (outside level) (percentText (forBody w v)) =
      .ok (placed s (some level) (percentText (forBody w v)) ++ ['\n'], outside (level + 1)) := by
  have h : indentLine s plainPatterns (outside level) _ = _ :=
    indentLine_openPercent "for " (by simp [openingHeads])
      (w.chars ++ (" in ".toList ++ (v.chars ++ [' ', '%', '}']))) fun c hc hmem => by
        obtain ⟨h₁, h₂⟩ := strange_not_mem hc
        simp_all
  simpa [percentText, forBody] using h

theorem indentLine_end (level : Nat) {body : String} (hbody : body ∈ ["endif", "endfor"]) :
    indentLine s plainPatterns (outside (level + 1)) (percentText body.toList) =
      .ok (placed s (some level) (percentText body.toList) ++ ['\n'], outside level) := by
  simp only [List.mem_cons, List.not_mem_nil, or_false] at hbody
  obtain rfl | rfl := hbody
  · exact indentLine_closePercent "endif %\x7d" (by simp [closingHeads])
  · exact indentLine_closePercent "endfor %\x7d" (by simp [closingHeads])

theorem runs_raw (level : Nat) : ∀ ls : List RawLine,
    Runs s (inside level) (ls.map fun l => (none, l.chars)) (inside level)
  | [] => .nil
  | l :: ls => .cons (indentLine_raw l) (runs_raw level ls)

/-- The lines of a document are written with their indents, and the level is as before. -/
theorem runs (hs : s.preserveLeadingSpace.truthy = false) (doc : Nested) :
    ∀ level, Runs s (outside level) (doc.lines level) (outside level) := by
  induction doc with
  | empty => exact fun level => .nil
  | text t rest ih => exact fun level => .cons (indentLine_text hs t) (ih level)
  | element n inner rest ihinner ihrest =>
    intro level
    exact .cons (indentLine_open n) ((ihinner (level + 1)).append
      (.cons (indentLine_close n) (ihrest level)))
  | conditional w inner rest ihinner ihrest =>
    intro level
    exact .cons (indentLine_if w level)
      ((ihinner (level + 1)).append (.cons (indentLine_end level (by simp)) (ihrest level)))
  | alternative w inner other rest ihinner ihother ihrest =>
    intro level
    have hother : Runs s (outside (level + 1)) (other.lines (level + 1) ++
        (some level, percentText "endif".toList) :: rest.lines level) (outside level) :=
      (ihother (level + 1)).append (.cons (indentLine_end level (by simp)) (ihrest level))
    exact .cons (indentLine_if w level)
      ((ihinner (level + 1)).append (.cons indentLine_divide hother))
  | loop w v inner rest ihinner ihrest =>
    intro level
    exact .cons (indentLine_for w v level)
      ((ihinner (level + 1)).append (.cons (indentLine_end level (by simp)) (ihrest level)))
  | raw n ls rest ih =>
    intro level
    exact .cons (indentLine_opening (standing_openRaw n))
      ((runs_raw level ls).append (.cons (indentLine_closeRaw n) (ih level)))

theorem firm_of_ends {a b : Char} (ha : isBlank a = false) (hb : isBlank b = false)
    (mid : List Char) : Firm (a :: (mid ++ [b])) := by
  constructor
  · simp [ha]
  · rw [← List.cons_append, List.getLast?_concat]
    simp [hb]

/-- What is known of a line wherever it stands. -/
structure Fit (l : Option Nat × List Char) : Prop where
  oneLine : '\n' ∉ l.2
  spaced : ∀ r, Spaced r → Spaced (l.2 ++ r)
  firm : l.1 ≠ none → Firm l.2

theorem fit_text (level : Nat) (t : TextLine) : Fit (some level, t.chars) where
  oneLine := t.plain '\n' (by simp)
  spaced := fun _ hr => hr.append (t.plain '{' (by simp [markup]))
  firm := fun _ => t.firm

theorem fit_raw (l : RawLine) : Fit (none, l.chars) where
  oneLine := l.plain '\n' (by simp)
  spaced := fun _ hr => hr.append (l.plain '{' (by simp))
  firm := fun h => absurd rfl h

theorem fit_openTag (level : Nat) {n : String} (hn : n ∈ Markup.tagNames) :
    Fit (some level, openTag n.toList) where
  oneLine := by simpa [openTag] using bracket_not_mem_name hn (c := '\n') (by decide)
  spaced := fun _ hr =>
    hr.append (by simpa [openTag] using bracket_not_mem_name hn (c := '{') (by decide))
  firm := fun _ => firm_of_ends rfl rfl n.toList

theorem fit_closeTag (level : Nat) {n : String} (hn : n ∈ Markup.tagNames) :
    Fit (some level, closeTag n.toList) where
  oneLine := by simpa [closeTag] using bracket_not_mem_name hn (c := '\n') (by decide)
  spaced := fun _ hr =>
    hr.append (by simpa [closeTag] using bracket_not_mem_name hn (c := '{') (by decide))
  firm := fun _ => firm_of_ends rfl rfl ('/' :: n.toList)

theorem fit_percentText (level : Nat) {body : List Char} (h : TagBody body) :
    Fit (some level, percentText body) where
  oneLine := by
    have hbody : '\n' ∉ body := fun hmem => h.ne_of_mem hmem (d := '\n') (by decide) rfl
    simp [percentText, hbody]
  spaced := fun _ hr => .tag h hr
  firm := fun _ => by
    have hfirm := firm_of_ends (a := '{') (b := '}') rfl rfl ('%' :: ' ' :: (body ++ [' ', '%']))
    simpa [percentText] using hfirm

/-- The contents of a tag without names. -/
theorem tagBody_word {body : String} (h : body ∈ ["else", "endif", "endfor"]) :
    TagBody body.toList where
  chars := by
    have hall : (["else", "endif", "endfor"].all fun b : String =>
      b.toList.all fun c => c.isAlphanum || c == '_' || c == ' ') = true := rfl
    exact List.all_eq_true.1 (List.all_eq_true.1 hall body h)
  head := ⟨body, by grind [tagHeads], List.prefix_rfl⟩
  stops := by
    simp only [List.mem_cons, List.not_mem_nil, or_false] at h
    obtain rfl | rfl | rfl := h
    · exact ⟨['e', 'l', 's'], 'e', rfl, by decide⟩
    · exact ⟨['e', 'n', 'd', 'i'], 'f', rfl, by decide⟩
    · exact ⟨['e', 'n', 'd', 'f', 'o'], 'r', rfl, by decide⟩

theorem PlainWord.stops (w : PlainWord) (a : List Char) :
    ∃ b c, a ++ w.chars = b ++ [c] ∧ c ≠ ' ' := by
  obtain ⟨b, c, hw⟩ : ∃ b c, w.chars = b ++ [c] :=
    ⟨_, _, (List.dropLast_append_getLast w.ne_nil).symm⟩
  refine ⟨a ++ b, c, by rw [hw, List.append_assoc], ?_⟩
  rintro rfl
  exact absurd (w.plain ' ' (by simp [hw])) (by decide)

theorem PlainWord.chars_ok (w : PlainWord) :
    ∀ c ∈ w.chars, (c.isAlphanum || c == '_' || c == ' ') = true := by
  intro c hc
  rw [w.plain c hc]
  rfl

theorem tagBody_if (w : PlainWord) : TagBody (ifBody w) where
  chars := by
    intro c hc
    obtain hc | hc := List.mem_append.1 hc
    · have hall : ("if ".toList.all fun c => c.isAlphanum || c == '_' || c == ' ') = true := rfl
      exact List.all_eq_true.1 hall c hc
    · exact PlainWord.chars_ok w c hc
  head := ⟨"if ", by simp [tagHeads], List.prefix_append _ _⟩
  stops := PlainWord.stops w _

theorem tagBody_for (w v : PlainWord) : TagBody (forBody w v) where
  chars := by
    intro c hc
    have hall : ("for in ".toList.all fun c => c.isAlphanum || c == '_' || c == ' ') = true := rfl
    simp only [forBody, List.mem_append] at hc
    obtain hc | hc | hc | hc := hc
    · exact List.all_eq_true.1 hall c (by revert hc; simp; grind)
    · exact PlainWord.chars_ok w c hc
    · exact List.all_eq_true.1 hall c (by revert hc; simp; grind)
    · exact PlainWord.chars_ok v c hc
  head := ⟨"for ", by simp [tagHeads], List.prefix_append _ _⟩
  stops := by
    have := PlainWord.stops v ("for ".toList ++ w.chars ++ " in ".toList)
    simpa [forBody] using this

theorem fit_of_mem_lines (doc : Nested) : ∀ level, ∀ l ∈ doc.lines level, Fit l := by
  induction doc with
  | empty => exact fun level l hl => absurd hl List.not_mem_nil
  | text t rest ih => exact fun level => List.forall_mem_cons.2 ⟨fit_text level t, ih level⟩
  | element n inner rest ihinner ihrest =>
    intro level
    refine List.forall_mem_cons.2 ⟨fit_openTag level n.known,
      List.forall_mem_append.2 ⟨ihinner (level + 1), ?_⟩⟩
    exact List.forall_mem_cons.2 ⟨fit_closeTag level n.known, ihrest level⟩
  | conditional w inner rest ihinner ihrest =>
    intro level
    refine List.forall_mem_cons.2 ⟨fit_percentText level (tagBody_if w),
      List.forall_mem_append.2 ⟨ihinner (level + 1), ?_⟩⟩
    exact List.forall_mem_cons.2 ⟨fit_percentText level (tagBody_word (by simp)), ihrest level⟩
  | alternative w inner other rest ihinner ihother ihrest =>
    intro level
    refine List.forall_mem_cons.2 ⟨fit_percentText level (tagBody_if w),
      List.forall_mem_append.2 ⟨ihinner (level + 1), ?_⟩⟩
    refine List.forall_mem_cons.2 ⟨fit_percentText level (tagBody_word (by simp)),
      List.forall_mem_append.2 ⟨ihother (level + 1), ?_⟩⟩
    exact List.forall_mem_cons.2 ⟨fit_percentText level (tagBody_word (by simp)), ihrest level⟩
  | loop w v inner rest ihinner ihrest =>
    intro level
    refine List.forall_mem_cons.2 ⟨fit_percentText level (tagBody_for w v),
      List.forall_mem_append.2 ⟨ihinner (level + 1), ?_⟩⟩
    exact List.forall_mem_cons.2 ⟨fit_percentText level (tagBody_word (by simp)), ihrest level⟩
  | raw n ls rest ih =>
    intro level
    have hraw : ∀ l ∈ ls.map fun l : RawLine => ((none : Option Nat), l.chars), Fit l := by
      intro _ hmem
      obtain ⟨l, -, rfl⟩ := List.mem_map.1 hmem
      exact fit_raw l
    refine List.forall_mem_cons.2 ⟨fit_openTag level n.mem_tagNames,
      List.forall_mem_append.2 ⟨hraw, ?_⟩⟩
    exact List.forall_mem_cons.2 ⟨fit_closeTag level n.mem_tagNames, ih level⟩

/-- The first line of a document lies in no more elements and blocks than the document. -/
theorem head_lines (doc : Nested) (level : Nat) :
    ∀ l ∈ (doc.lines level).head?, l.1 = some level := by
  cases doc <;> simp [lines]

theorem getLast_lines (doc : Nested) (level : Nat) :
    ∀ l ∈ (doc.lines level).getLast?, l.1 = some level := by
  -- the last line is the one that closes, unless something follows
  have hclose : ∀ (ls rest : List (Option Nat × List Char)) (line : List Char),
      (∀ l ∈ rest.getLast?, l.1 = some level) →
      ∀ l ∈ (ls ++ (some level, line) :: rest).getLast?, l.1 = some level := by
    intro ls rest line hrest l hl
    rw [List.getLast?_append, List.getLast?_cons] at hl
    cases hr : rest.getLast? with
    | none =>
      obtain rfl : (some level, line) = l := by simpa [hr] using hl
      rfl
    | some l' =>
      obtain rfl : l' = l := by simpa [hr] using hl
      exact hrest l' hr
  induction doc with
  | empty => simp [lines]
  | text t rest ih => exact hclose [] _ _ ih
  | element n inner rest _ ih | conditional w inner rest _ ih | loop w v inner rest _ ih =>
    exact hclose (_ :: _) _ _ ih
  | alternative w inner other rest _ _ ih => exact hclose (_ :: _) _ _ (hclose _ _ _ ih)
  | raw n ls rest ih => exact hclose (_ :: _) _ _ ih

end Nested

/-! ### The document -/

section document

variable {s : Settings} {ls : List (Option Nat × List Char)}

theorem spaced_joinWith : ∀ {ls : List (List Char)}, (∀ l ∈ ls, ∀ r, Spaced r → Spaced (l ++ r)) →
    Spaced (joinWith ['\n'] ls)
  | [], _ => .nil
  | [l], h => by simpa [joinWith] using h l (by simp) [] .nil
  | l :: l' :: ls, h => by
      rw [joinWith, List.append_assoc]
      have hrest : Spaced (joinWith ['\n'] (l' :: ls)) := spaced_joinWith fun l hl =>
        h l (by simp [hl])
      exact h l (by simp) _ (hrest.append (by decide))

theorem spaced_written (h : ∀ l ∈ ls, Nested.Fit l) : Spaced (written s ls) := by
  induction ls with
  | nil => exact .nil
  | cons l ls ih =>
    have hrest : Spaced ('\n' :: written s ls) := (ih fun l hl => h l (by simp [hl])).append
      (a := ['\n']) (by decide)
    have hline := (h l (by simp)).spaced _ hrest
    have hindent : ∀ level : Nat, '{' ∉ indents s level := by simp [indents, Settings.indent]
    rw [show written s (l :: ls) = placed s l.1 l.2 ++ ('\n' :: written s ls) by simp [written]]
    obtain ⟨level, line⟩ := l
    cases level with
    | none => exact hline
    | some n =>
      rw [placed, List.append_assoc]
      exact hline.append (hindent n)

theorem written_eq (hne : ls ≠ []) :
    written s ls = joinWith ['\n'] (ls.map fun l => placed s l.1 l.2) ++ ['\n'] := by
  rw [joinWith_append_singleton (by simpa using hne), List.flatMap_map]
  rfl

theorem getLast?_joinWith {sep : List Char} {good : Char → Bool} :
    ∀ {parts : List (List Char)}, parts ≠ [] → (∀ l ∈ parts.getLast?, l.getLast?.any good = true) →
      (joinWith sep parts).getLast?.any good = true
  | [], hne, _ => absurd rfl hne
  | [a], _, h => h a rfl
  | a :: b :: parts, _, h => by
      have hrest : (joinWith sep (b :: parts)).getLast?.any good = true :=
        getLast?_joinWith (by simp) fun l hl => h l (by rw [List.getLast?_cons_cons]; exact hl)
      rw [joinWith, List.getLast?_append]
      cases hlast : (joinWith sep (b :: parts)).getLast? with
      | none => simp [hlast] at hrest
      | some c => simpa [hlast] using hrest

/-- Lines are firm together if the outermost ones are. -/
theorem firm_joinWith {parts : List (List Char)} (hne : parts ≠ [])
    (hhead : ∀ l ∈ parts.head?, Firm l)
    (hlast : ∀ l ∈ parts.getLast?, Firm l) : Firm (joinWith ['\n'] parts) := by
  refine ⟨?_, getLast?_joinWith hne fun l hl => (hlast l hl).2⟩
  obtain ⟨a, parts, rfl⟩ := List.exists_cons_of_ne_nil hne
  have hstart := (hhead a rfl).1
  obtain ⟨c, a, rfl⟩ : ∃ c r, a = c :: r :=
    List.exists_cons_of_ne_nil (by rintro rfl; simp at hstart)
  cases parts with
  | nil => exact hstart
  | cons b parts => simpa [joinWith] using hstart

theorem Nested.firm_joined (doc : Nested) (hne : doc.lines 0 ≠ []) :
    Firm (joinWith ['\n'] ((doc.lines 0).map fun l => placed s l.1 l.2)) := by
  have houter : ∀ l ∈ doc.lines 0, l.1 = some 0 → Firm (placed s l.1 l.2) := by
    rintro ⟨level, line⟩ hl rfl
    simpa [placed, indents] using (doc.fit_of_mem_lines 0 _ hl).firm (by simp)
  refine firm_joinWith (by simpa using hne) (fun line hline => ?_) (fun line hline => ?_)
  · rw [List.head?_map, Option.mem_def, Option.map_eq_some_iff] at hline
    obtain ⟨l, hl, rfl⟩ := hline
    exact houter l (List.mem_of_head? hl) (doc.head_lines 0 l hl)
  · rw [List.getLast?_map, Option.mem_def, Option.map_eq_some_iff] at hline
    obtain ⟨l, hl, rfl⟩ := hline
    exact houter l (List.mem_of_getLast? hl) (doc.getLast_lines 0 l hl)

theorem Nested.indentLines_eq (hadds : Adds s [] [] [])
    (hpreserve : s.preserveLeadingSpace.truthy = false) (doc : Nested) (hne : doc.lines 0 ≠ []) :
    indentLines s (joinWith ['\n'] ((doc.lines 0).map Prod.snd)) =
    .ok (written s (doc.lines 0)) := by
  have hlines : ∀ l ∈ (doc.lines 0).map Prod.snd, '\n' ∉ l := by
    intro _ hmem
    obtain ⟨l, hl, rfl⟩ := List.mem_map.1 hmem
    exact (doc.fit_of_mem_lines 0 l hl).oneLine
  rw [indentLines, linePatterns_eq hadds, splitOn_joinWith hlines (by simpa using hne)]
  exact (doc.runs hpreserve 0).result

/-- A document without lines is written as one empty line. -/
theorem indentDocument_nil (hadds : Adds s [] [] [])
    (hpreserve : s.preserveLeadingSpace.truthy = false) : indentDocument s [] = .ok ['\n'] := by
  have hline : indentLine s plainPatterns {} [] = .ok (['\n'], outside 0) :=
    indentLine_nil hpreserve
  have hspaced : Spaced ['\n'] := Spaced.nil.append (a := ['\n']) (by decide)
  have hlines : indentLines s (spaceTags s []) = .ok ['\n'] := by
    rw [spaceTags_of_spaced .nil, indentLines, linePatterns_eq hadds,
      show ([] : List Char).splitOn '\n' = [[]] from rfl, indentFrom, hline]
    rfl
  rw [indentDocument_of_dataless hlines (dataless_of_spaced hspaced), endsRight]
  split <;> rfl

/-- Each line of a nested document is indented by the number of elements and blocks that it lies in,
and the lines of scripts and styles are kept. -/
theorem indentDocument_nested (hhtml : s.customHtml = "") (hblocks : s.customBlocks = "")
    (hkept : s.ignoreBlocks = none) (hpreserve : s.preserveLeadingSpace.truthy = false)
    (doc : Nested) : indentDocument s (joinWith ['\n'] ((doc.lines 0).map Prod.snd)) =
      .ok (joinWith ['\n'] ((doc.lines 0).map fun l => placed s l.1 l.2) ++ ['\n']) := by
  have hadds : Adds s [] [] [] := ⟨by simp [hhtml], by simp [hblocks], by simp [hkept], by simp⟩
  have hspaced : Spaced (joinWith ['\n'] ((doc.lines 0).map Prod.snd)) := by
    refine spaced_joinWith fun _ hmem => ?_
    obtain ⟨l, hl, rfl⟩ := List.mem_map.1 hmem
    exact (doc.fit_of_mem_lines 0 l hl).spaced
  have hspaced' : Spaced (written s (doc.lines 0)) := spaced_written fun l hl =>
    doc.fit_of_mem_lines 0 l hl
  by_cases hne : doc.lines 0 = []
  · simpa [hne, joinWith] using indentDocument_nil hadds hpreserve
  · have hlines := doc.indentLines_eq hadds hpreserve hne
    rw [← spaceTags_of_spaced hspaced] at hlines
    rw [indentDocument_of_dataless hlines (dataless_of_spaced hspaced'), endsRight, written_eq hne]
    have hfirm := doc.firm_joined (s := s) hne
    have hblank : ∀ c ∈ ['\n'], isBlank c = true := by simp [isBlank, isSpace]
    have hstrip : stripRight (joinWith ['\n'] ((doc.lines 0).map fun l => placed s l.1 l.2) ++
        ['\n']) =
        joinWith ['\n'] ((doc.lines 0).map fun l => placed s l.1 l.2) :=
        stripRight_of_firm hfirm hblank
    split <;> simp only [stripLeft_of_firm hfirm, hstrip]

end document

/-- A page with a block in an element, elements in a loop, and a script in the other half of the
block. -/
def greeting : Nested :=
  .element ⟨"div", by decide, by decide, by decide⟩
    (.alternative ⟨"user".toList, by decide, List.all_eq_true.1 rfl⟩
      (.text ⟨"Hello, you!".toList, ⟨rfl, rfl⟩, by simp [markup]⟩
        (.element ⟨"ul", by decide, by decide, by decide⟩
          (.loop ⟨"item".toList, by decide, List.all_eq_true.1 rfl⟩
            ⟨"list_2".toList, by decide, List.all_eq_true.1 rfl⟩
            (.element ⟨"li", by decide, by decide, by decide⟩ .empty .empty) .empty)
          .empty))
      (.raw ⟨"script", .inl rfl⟩ [⟨"  let a = [1]; /* # */ ".toList, by simp⟩,
        ⟨[], by simp⟩] .empty)
      .empty)
    .empty

theorem greeting_indented :
    (Settings.standard 2 120).customHtml = "" ∧ (Settings.standard 2 120).customBlocks = "" ∧
      (Settings.standard 2 120).ignoreBlocks = none ∧
      (Settings.standard 2 120).preserveLeadingSpace.truthy = false ∧
      indentDocument (.standard 2 120)
          (joinWith ['\n'] (["<div>", "\x7b% if user %\x7d", "Hello, you!", "<ul>",
          "\x7b% for item in list_2 %\x7d", "<li>", "</li>", "\x7b% endfor %\x7d", "</ul>",
          "\x7b% else %\x7d", "<script>", "  let a = [1]; /* # */ ", "", "</script>",
          "\x7b% endif %\x7d", "</div>"].map String.toList)) =
        .ok (joinWith ['\n'] (["<div>", "  \x7b% if user %\x7d", "    Hello, you!", "    <ul>",
          "      \x7b% for item in list_2 %\x7d", "        <li>", "        </li>",
          "      \x7b% endfor %\x7d", "    </ul>", "  \x7b% else %\x7d", "    <script>",
          "  let a = [1]; /* # */ ", "", "    </script>", "  \x7b% endif %\x7d", "</div>"].map String.toList) ++ ['\n']) :=
  ⟨rfl, rfl, rfl, rfl, indentDocument_nested rfl rfl rfl rfl greeting⟩

end TemplateTidy.Layout
