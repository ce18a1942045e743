import TemplateTidy.Proofs.Layout.FullLines
import TemplateTidy.Proofs.Layout.LineKinds
import TemplateTidy.Proofs.Pattern.Pieces

/-! # Comments on lines of their own

Tags are spaced in two passes, and both leave a tag alone that stands in a region.  A tag stands on
one line, so each pass rewrites line by line (`OneLine.exists_line`).  But the places of the second
pass are those of the text that the first one made, and the regions are those of the text before.
So a line in a region is kept if it holds no brace, or if nothing before it is moved by the first
pass (`spaceTags_keeps_line`).  A comment that holds no bracket, in addition, holds no attributes
that the indenter would spread, so it is kept as a whole (`indentLines_keeps_comment`). -/

namespace TemplateTidy

open Text

/-! ### Patterns within a line -/

namespace Node

/-- Whether the pattern takes no `c`. -/
def avoids (c : Char) : Node → Bool
  | .one cs => !cs.holds c
  | .seq a b | .alt a b => a.avoids c && b.avoids c
  | .group _ a | .rep a .. | .atomic a => a.avoids c
  | .recall .. | .ifGroup .. => false
  | _ => true

theorem Lang.not_mem_of_avoids {c : Char} {n : Node} :
    ∀ {w : List Char}, n.avoids c = true → n.Lang w → c ∉ w := by
  induction n with
  | empty | anchor | look | keep =>
    rintro w - rfl
    exact List.not_mem_nil
  | fail => rintro w - ⟨⟩
  | one cs =>
    rintro w hn ⟨d, rfl, hd⟩ hc
    obtain rfl := List.mem_singleton.1 hc
    simp [avoids, hd] at hn
  | seq a b iha ihb =>
    rintro w hn ⟨u, v, rfl, hu, hv⟩ hc
    obtain ⟨ha, hb⟩ := Bool.and_eq_true_iff.1 hn
    exact (List.mem_append.1 hc).elim (iha ha hu) (ihb hb hv)
  | alt a b iha ihb =>
    intro w hn h
    obtain ⟨ha, hb⟩ := Bool.and_eq_true_iff.1 hn
    exact h.elim (iha ha) (ihb hb)
  | group i a ih | atomic a ih => exact ih
  | rep a least most reluctant ih =>
    rintro w hn ⟨us, rfl, hus, -, -⟩ hc
    obtain ⟨u, hu, hcu⟩ := List.mem_flatten.1 hc
    exact ih hn (hus u hu) hcu
  | «recall» | ifGroup => intro w hn; cases hn

end Node

namespace Pattern

open Node

/-- A pattern of tags that stand on one line. -/
structure OneLine (P : Pattern) : Prop where
  originFree : P.node.originFree = true
  keepless : P.node.keepless = true
  solid : P.node.solid = true
  begins : P.node.begins (· == '\x7b') = true
  avoids : P.node.avoids '\n' = true

namespace OneLine

variable {P : Pattern} {f : Match → List Char} {text : Array Char} {u v w : List Char}

theorem of_check {n : Node} (hn : P.node = n)
    (h : (n.originFree && n.keepless && n.solid && n.begins (· == '\x7b') &&
    n.avoids '\n') = true) : P.OneLine := by
  simp only [Bool.and_eq_true, ← hn] at h
  exact ⟨h.1.1.1.1, h.1.1.1.2, h.1.1.2, h.1.2, h.2⟩

variable (hP : P.OneLine)
include hP

theorem of_mem_points {i : Nat} {q : Point} (hq : q ∈ P.pointsAt text i) :
    q.start = i ∧ i < q.pos ∧ text[i]? = some '\x7b' ∧ '\n' ∉ between text i q.pos := by
  have hreach := reach_of_mem_points hq
  have hlt : i < q.pos := lt_of_solid hP.solid hreach
  obtain ⟨c, r, hr, hc⟩ := exists_good_of_begins hP.begins hreach hlt
  refine ⟨hreach.start_eq hP.keepless, hlt, ?_, hreach.lang.not_mem_of_avoids hP.avoids⟩
  have hhead := (P.scene text 0).getElem?_pos (.at i)
  rw [hr, beq_iff_eq.1 hc] at hhead
  exact hhead

/-- No match takes the line feed that it begins before. -/
theorem pos_le_of_feed (htext : text.toList = u ++ '\n' :: v) {i : Nat}
    (hi : i ≤ u.length) {q : Point} (hq : q ∈ P.pointsAt text i) : q.pos ≤ u.length := by
  obtain ⟨-, -, -, hfree⟩ := hP.of_mem_points hq
  by_contra hlt
  refine hfree ?_
  rw [← between_append text hi (Nat.le_of_not_le hlt),
    ← between_append text (Nat.le_succ u.length) (Nat.lt_of_not_le hlt),
    between_succ (getElem?_length htext)]
  simp

theorem stays (htext : text.toList = u ++ v) (hv : AtLineEnd v) {i : Nat}
    (hi : i < u.length) {q : Point}
    (hq : q ∈ P.pointsAt text i) : q.pos ≤ u.length ∧ (q.start = q.pos → q.pos < u.length) := by
  obtain ⟨hstart, hlt, -, -⟩ := hP.of_mem_points hq
  refine ⟨?_, fun h => by omega⟩
  cases v with
  | nil =>
    have hle : q.pos ≤ text.size := (reach_of_mem_points hq).moves.bound
      (hi.le.trans (length_le_size htext))
    rwa [← Array.length_toList, htext, List.append_nil] at hle
  | cons c v =>
    obtain rfl : c = '\n' := hv c rfl
    exact hP.pos_le_of_feed htext hi.le hq

/-- A match that begins before a line ends before it, so what it needs stands there. -/
theorem mem_of_needs (htext : text.toList = u ++ v) (hu : u = [] ∨ u.getLast? = some '\n') {i : Nat}
    (hi : i < u.length)
    {q : Point} (hq : q ∈ P.pointsAt text i) {c : Char} (hc : P.node.needs c = true) : c ∈ u := by
  have hstop : q.pos ≤ u.length := by
    obtain rfl | hu := hu
    · simp at hi
    · obtain ⟨u, rfl⟩ := List.getLast?_eq_some_iff.1 hu
      rw [List.length_append] at hi ⊢
      exact (hP.pos_le_of_feed (htext.trans (List.append_cons ..).symm) (Nat.le_of_lt_succ hi)
        hq).trans (Nat.le_add_right _ _)
  have hmem : c ∈ between text i q.pos := (reach_of_mem_points hq).lang.mem_of_needs hc
  rw [between_eq, htext, List.drop_append_of_le_length hi.le, List.take_append_of_le_length] at hmem
  · exact List.mem_of_mem_drop (List.mem_of_mem_take hmem)
  · rw [List.length_drop]
    omega

/-- Up to the end of a line, the text is rewritten on its own. -/
theorem rewriteFrom_line (htext : text.toList = u ++ (w ++ v)) (hv : AtLineEnd v) :
    ∃ w', P.rewriteFrom f text u.length false = w' ++ P.rewriteFrom f text (u ++ w).length false ∧
      ((∀ i, u.length ≤ i → i < (u ++ w).length → ∀ q ∈ P.pointsAt text i,
        f (.ofPoint q) = between text q.start q.pos) → w' = w) := by
  have htext' : text.toList = (u ++ w) ++ v := by rw [htext, List.append_assoc]
  obtain ⟨w', hw, hcopy⟩ := rewriteFrom_cut (f := f) hP.originFree (length_le_size htext')
    (fun i hi q hq => hP.stays htext' hv hi hq) u.length false (by simp) (by simp)
  exact ⟨w', hw, fun h => (hcopy h).trans (between_of_append htext)⟩

theorem rewriteFrom_feed (htext : text.toList = u ++ '\n' :: v) :
    P.rewriteFrom f text u.length false = '\n' :: P.rewriteFrom f text
      (u ++ ['\n']).length false := by
  have hfeed : text[u.length]? = some '\n' := getElem?_length htext
  rw [rewriteFrom_skip hP.originFree hfeed fun q hq => ?_, List.length_append]
  · rfl
  · obtain ⟨-, -, hbrace, -⟩ := hP.of_mem_points hq
    rw [hfeed] at hbrace
    cases hbrace

theorem rewriteFrom_atLineEnd (htext : text.toList = u ++ v) (hv : AtLineEnd v) :
    AtLineEnd (P.rewriteFrom f text u.length false) := by
  cases v with
  | nil =>
    rw [← List.append_nil u, ← htext, Array.length_toList, rewriteFrom_end hP.originFree
      fun q hq => ?_]
    · exact .nil
    · obtain ⟨-, -, hbrace, -⟩ := hP.of_mem_points hq
      simp at hbrace
  | cons c v =>
    obtain rfl : c = '\n' := hv c rfl
    rw [hP.rewriteFrom_feed htext]
    simp [AtLineEnd]

/-- A line is rewritten to a line, and copied if each match in it is; so is what stands before
it. -/
theorem exists_line (htext : text.toList = u ++ (w ++ v)) (hu : u = [] ∨ u.getLast? = some '\n')
    (hv : AtLineEnd v) :
    ∃ a w' b, P.replaceAll f text = a ++ (w' ++ b) ∧ (a = [] ∨ a.getLast? = some '\n') ∧
      AtLineEnd b ∧ ((∀ i, u.length ≤ i → i < (u ++ w).length → ∀ q ∈ P.pointsAt text i,
        f (.ofPoint q) = between text q.start q.pos) → w' = w) ∧
      ((∀ i < u.length, ∀ q ∈ P.pointsAt text i, f (.ofPoint q) = between text q.start q.pos) →
          a = u) := by
  obtain ⟨w', hw, hcopy⟩ := hP.rewriteFrom_line (f := f) htext hv
  have hb := hP.rewriteFrom_atLineEnd (f := f) (htext.trans (List.append_assoc ..).symm) hv
  rw [replaceAll_eq_rewriteFrom]
  obtain rfl | hu := hu
  · exact ⟨[], w', _, hw, .inl rfl, hb, hcopy, fun _ => rfl⟩
  · obtain ⟨u, rfl⟩ := List.getLast?_eq_some_iff.1 hu
    have hbefore : text.toList = [] ++ (u ++ '\n' :: (w ++ v)) := by simpa using htext
    obtain ⟨a, ha, hcopy'⟩ := hP.rewriteFrom_line (f := f) hbefore (by simp [AtLineEnd])
    have hstart : P.rewriteFrom f text 0 false = _ := ha
    rw [hstart, List.nil_append, hP.rewriteFrom_feed (hbefore.trans (List.nil_append _)), hw]
    refine ⟨a ++ ['\n'], w', _, by simp, .inr (by simp), hb, hcopy, fun h => ?_⟩
    rw [hcopy' fun i _ hi => h i (by simp at hi ⊢; omega)]

end OneLine

end Pattern

namespace Layout

open Pattern

theorem oneLine_percentTag : percentTag.OneLine :=
  .of_check (by rw [percentTag_eq]) (by decide +kernel)

theorem oneLine_braceTag : braceTag.OneLine :=
  .of_check (by rw [braceTag_eq]) (by decide +kernel)

theorem needs_percent : percentTag.node.needs '%' = true := by
  rw [percentTag_eq]
  decide

variable {u v line : List Char}

theorem any_within_of_within {spans : List Span} {inner outer : Span}
    (h : spans.any (Region.within outer) = true)
    (hinner : Region.within inner outer = true) : spans.any (Region.within inner) = true := by
  obtain ⟨r, hr, hout⟩ := List.any_eq_true.1 h
  simp only [Region.within, Bool.and_eq_true, decide_eq_true_eq] at hinner hout
  exact List.any_eq_true.2
    ⟨r, hr, by simp only [Region.within, Bool.and_eq_true, decide_eq_true_eq]; omega⟩

/-- A line keeps its tags if it has none or lies in an ignored span.  What stands before it is kept
if no tag can be there. -/
theorem spaceGroups_keeps {P : Pattern} (hP : P.OneLine) (ignored : List Span) (n : Nat)
    (hu : u = [] ∨ u.getLast? = some '\n') (hv : AtLineEnd v)
    (hline : '\x7b' ∉ line ∨ ignored.any (Region.within ⟨u.length, (u ++ line).length⟩) = true) :
    ∃ a b, spaceGroups ignored n P (u ++ (line ++ v)) = a ++ (line ++ b) ∧
      (a = [] ∨ a.getLast? = some '\n') ∧
      AtLineEnd b ∧ ∀ c, P.node.needs c = true → c ∉ u → a = u := by
  have htext : (u ++ (line ++ v)).toArray.toList = u ++ (line ++ v) := rfl
  obtain ⟨a, w, b, hresult, ha, hb, hcopy, hbefore⟩ := hP.exists_line (f := fun m =>
    if ignored.any (Region.within m.span) then m.text (u ++ (line ++ v)).toArray
    else joinWith [' '] ((List.range n).map fun i => m.capture (u ++ (line ++ v)).toArray (i + 1)))
      htext hu hv
  obtain rfl : w = line := hcopy fun i hi hlt q hq => by
    obtain ⟨hstart, -, hbrace, -⟩ := hP.of_mem_points hq
    obtain hline | hline := hline
    · refine absurd ?_ hline
      rw [List.getElem?_toArray, List.getElem?_append_right hi, List.getElem?_append_left] at hbrace
      · exact List.mem_of_getElem? hbrace
      · rw [List.length_append] at hlt
        omega
    · have hstop := (hP.stays (htext.trans (List.append_assoc ..).symm) hv hlt hq).1
      rw [if_pos]
      · rfl
      · exact any_within_of_within hline
          (Bool.and_eq_true_iff.2 ⟨decide_eq_true (hi.trans_eq hstart.symm), decide_eq_true hstop⟩)
  refine ⟨a, b, hresult, ha, hb, fun c hneeds hc => hbefore fun i hi q hq => ?_⟩
  exact absurd (hP.mem_of_needs htext hu hi hq hneeds) hc

/-- A line in an ignored span is kept if it holds no brace, or if no percent sign stands before it:
then the first pass moves nothing, and the spans fit the second one. -/
theorem spaceTags_keeps_line (s : Settings) (hhandlebars : (s.profile == "handlebars") = false)
    (hu : u = [] ∨ u.getLast? = some '\n') (hv : AtLineEnd v)
    (hline : '\x7b' ∉ line ∨ '%' ∉ u ∧
      (Region.ignoredSpans (u ++ (line ++ v)).toArray).any
        (Region.within ⟨u.length, (u ++ line).length⟩) = true) :
    ∃ a b, spaceTags s (u ++ (line ++ v)) = a ++ (line ++ b) ∧ (a = [] ∨ a.getLast? = some '\n') ∧
        AtLineEnd b := by
  simp only [spaceTags, hhandlebars, Bool.false_eq_true, if_false]
  by_cases hgolang : (s.profile == "golang") = true
  · exact ⟨u, v, by rw [if_pos hgolang], hu, hv⟩
  · rw [if_neg hgolang]
    generalize hignored : Region.ignoredSpans (u ++ (line ++ v)).toArray = ignored at hline ⊢
    obtain ⟨a, b, hfirst, ha, hb, hkeep⟩ := spaceGroups_keeps oneLine_percentTag ignored 3 hu hv
      (hline.imp_right And.right)
    have hsecond : '\x7b' ∉ line ∨ ignored.any (Region.within ⟨a.length, (a ++ line).length⟩) =
        true := by
      refine hline.imp_right fun h => ?_
      rw [hkeep '%' needs_percent h.1]
      exact h.2
    obtain ⟨a', b', hresult, ha', hb', -⟩ :=
      spaceGroups_keeps oneLine_braceTag ignored 3 ha hb hsecond
    exact ⟨a', b', by rw [hfirst, hresult], ha', hb'⟩

/-! ### Lines of a document -/

theorem exists_splitOn {a b : List Char} (hfeed : '\n' ∉ line)
    (ha : a = [] ∨ a.getLast? = some '\n') (hb : AtLineEnd b) :
    ∃ before behind, (a ++ (line ++ b)).splitOn '\n' = before ++ line :: behind := by
  have hright : ∃ behind, (line ++ b).splitOn '\n' = line :: behind := by
    cases b with
    | nil => exact ⟨[], by rw [List.append_nil, List.splitOn_eq_singleton hfeed]⟩
    | cons c b =>
      obtain rfl : c = '\n' := hb c rfl
      exact ⟨b.splitOn '\n', by rw [List.splitOn_append_cons_self, List.splitOn_eq_singleton hfeed]; rfl⟩
  obtain ⟨behind, hright⟩ := hright
  obtain rfl | ha := ha
  · exact ⟨[], behind, hright⟩
  · obtain ⟨a, rfl⟩ := List.getLast?_eq_some_iff.1 ha
    exact ⟨a.splitOn '\n',
      behind, by rw [← List.append_cons, List.splitOn_append_cons_self, hright]⟩

/-- Each line is written somewhere, from some state. -/
theorem exists_of_indentFrom {s : Settings} {ps : LinePatterns} {behind : List (List Char)} :
    ∀ {before : List (List Char)} {now : Indentation} {result : List Char},
      indentFrom s ps now (before ++ line :: behind) = .ok result →
        ∃ now' written next a b, indentLine s ps now' line = .ok (written, next) ∧
        result = a ++ (written ++ b)
  | [], now, result, h => by
      obtain ⟨⟨written, next⟩, hline, h⟩ := Outcome.exists_of_bind h
      obtain ⟨rest, -, h⟩ := Outcome.exists_of_bind h
      exact ⟨now, written, next, [], rest, hline, (Except.ok.inj h).symm⟩
  | first :: before, now, result, h => by
      obtain ⟨⟨written, next⟩, -, h⟩ := Outcome.exists_of_bind h
      obtain ⟨rest, hrest, h⟩ := Outcome.exists_of_bind h
      obtain ⟨now', written', next', a, b, hline, rfl⟩ := exists_of_indentFrom hrest
      refine ⟨now', written', next', written ++ a, b, hline, ?_⟩
      rw [← Except.ok.inj h, List.append_assoc]

/-- A line without attributes is written with its indent, or kept. -/
theorem written_of_indentLine {s : Settings} {ps : LinePatterns} {tag : Pattern}
    {now next : Indentation} {written : List Char} (htag : ps.attributedTag = .ok tag)
    (hnone : ∀ level, tag.findAll (placed s level line ++ ['\n']).toArray = [])
    (h : indentLine s ps now line = .ok (written, next)) :
    ∃ level, written = placed s level line ++ ['\n'] := by
  obtain ⟨level, rfl | ⟨tag', htag', hspread, -⟩⟩ := indentLine_cases h
  · exact ⟨level, rfl⟩
  · obtain rfl := Except.ok.inj (htag.symm.trans htag')
    rw [replaceAllM_of_findAll_eq_nil (hnone level)] at hspread
    exact ⟨level, (Except.ok.inj hspread).symm⟩

/-- The indent of a line is made of spaces. -/
theorem exists_placed (s : Settings) (level : Option Nat) (line : List Char) :
    ∃ n, placed s level line = List.replicate n ' ' ++ line := by
  cases level with
  | none => exact ⟨0, rfl⟩
  | some k => exact ⟨k * s.indentWidth, by simp [placed, indents, Settings.indent]⟩

/-- The text of a comment. -/
def comment (c : List Char) : List Char :=
  '<' :: '!' :: '-' :: '-' :: (c ++ ['-', '-', '>'])

/-- If the indenter answers, a comment on a line of its own stands in what it gives, after spaces;
provided that the comment holds no bracket and no line feed, and no brace unless it is a region with
no percent sign before it. -/
theorem indentLines_keeps_comment (w : Nat) (l : Int) {c result : List Char}
    (hu : u = [] ∨ u.getLast? = some '\n') (hv : AtLineEnd v) (hfeed : '\n' ∉ c)
    (hbracket : '<' ∉ c)
    (hbrace : '\x7b' ∉ c ∨ '%' ∉ u ∧ (Region.ignoredSpans (u ++ (comment c ++ v)).toArray).any
      (Region.within ⟨u.length, (u ++ comment c).length⟩) = true)
    (h : indentLines (.standard w l) (spaceTags (.standard w l) (u ++ (comment c ++ v))) =
      .ok result) :
    ∃ a n b, result = a ++ (List.replicate n ' ' ++ (comment c ++ '\n' :: b)) := by
  have hline : '\n' ∉ comment c := by simpa [comment] using hfeed
  obtain ⟨a, b, hspaced, ha, hb⟩ := spaceTags_keeps_line (.standard w l) rfl hu hv
    (hbrace.imp_left fun h => by simpa [comment] using h)
  obtain ⟨before, behind, hsplit⟩ := exists_splitOn hline ha hb
  rw [indentLines, hspaced, hsplit, linePatterns_eq (readable_standard w l).adds] at h
  obtain ⟨now, written, next, a, b, hwritten, rfl⟩ := exists_of_indentFrom h
  have hnone : ∀ level, ((attributedTagTree (tagWords [])).pattern loose).findAll
      (placed (.standard w l) level (comment c) ++ ['\n']).toArray = [] := by
    intro level
    obtain ⟨n, hplaced⟩ := exists_placed (.standard w l) level (comment c)
    rw [hplaced, List.append_assoc]
    exact no_attributes_of_sign (by simp) (by simpa using hbracket) (by decide) (by decide)
  obtain ⟨level, rfl⟩ := written_of_indentLine rfl hnone hwritten
  obtain ⟨n, hplaced⟩ := exists_placed (.standard w l) level (comment c)
  exact ⟨a, n, b, by simp [hplaced]⟩

end Layout

end TemplateTidy
