import TemplateTidy.Lint.Run
import TemplateTidy.Proofs.Outcome
import TemplateTidy.Proofs.Pattern.Beginnings
import TemplateTidy.Settings.Load

/-! # The built-in rules always give an answer

A finding needs the line of its match, and only a match at the very end of the text would have none:
every earlier place lies on a line (`exists_placeOf`).  The patterns of the built-in rules take a
character, which is checked by reading all of them (`all_takes`), and so do the orphan tags and the
repeated attributes.  Hence a lint with any choice of built-in rules answers for every text
(`lint_builtin_returns`). -/

namespace TemplateTidy.Lint

open Text

/-! ### Lines -/

/-- A place before the end lies before the end of some line. -/
theorem exists_lineSpansFrom {i : Nat} : ∀ {text : List Char} {start pos : Nat}, start ≤ i →
    i < pos + text.length → ∃ line ∈ lineSpansFrom start pos text, i < line.stop
  | [], start, pos, hstart, hi => by
      rw [List.length_nil, Nat.add_zero] at hi
      rw [lineSpansFrom, if_pos (by omega)]
      exact ⟨⟨start, pos⟩, List.mem_singleton_self _, hi⟩
  | c :: text, start, pos, hstart, hi => by
      rw [List.length_cons] at hi
      rw [lineSpansFrom]
      split
      · by_cases hline : i < pos + 1
        · exact ⟨⟨start, pos + 1⟩, List.mem_cons_self, hline⟩
        · have hrest : i < pos + 1 + text.length := by omega
          obtain ⟨line, hmem, hlt⟩ := exists_lineSpansFrom (Nat.le_of_not_lt hline) hrest
          exact ⟨line, List.mem_cons_of_mem _ hmem, hlt⟩
      · exact exists_lineSpansFrom hstart (by omega)

theorem exists_placeFrom {i : Nat} :
    ∀ {lines : List Span} {number : Nat}, (∃ line ∈ lines, i < line.stop) →
    ∃ place, placeFrom number i lines = .ok place
  | [], _, h => by
      obtain ⟨line, hmem, -⟩ := h
      cases hmem
  | line :: lines, number, h => by
      rw [placeFrom]
      refine Outcome.exists_branch (fun _ => ⟨_, rfl⟩) fun hge => exists_placeFrom ?_
      obtain ⟨line', hmem, hlt⟩ := h
      obtain rfl | hmem := List.mem_cons.1 hmem
      · exact absurd (Int.ofNat_lt.2 hlt) hge
      · exact ⟨line', hmem, hlt⟩

/-- Every place before the end of a text has a line and a column. -/
theorem exists_placeOf {text : List Char} {i : Nat} (hi : i < text.length) :
    ∃ place, placeOf i (lineSpans text) = .ok place :=
  exists_placeFrom (exists_lineSpansFrom (Nat.zero_le i) (by omega))

theorem exists_findings {text : List Char} {path : String} {rule : Rule} {spans : List Span}
    (h : ∀ span ∈ spans, span.start < text.length) :
    ∃ found, (Document.ofText text path).findings rule spans = .ok found := by
  refine Outcome.exists_mapM fun span hspan => ?_
  have hplace := exists_placeOf (h span (List.mem_filter.1 hspan).1)
  exact Outcome.exists_bind hplace fun place => ⟨_, rfl⟩

/-! ### Orphan tags -/

theorem mem_of_takeNamed {name : List Char} :
    ∀ {waiting rest : List TagMark}, takeNamed name waiting = some rest → ∀ t ∈ rest, t ∈ waiting
  | [], _, h, _, _ => by cases h
  | u :: waiting, rest, h, t, ht => by
      rw [takeNamed] at h
      split at h
      · cases h
        exact List.mem_cons_of_mem u ht
      · obtain ⟨rest', hrest, rfl⟩ := Option.map_eq_some_iff.1 h
        obtain rfl | ht := List.mem_cons.1 ht
        · exact List.mem_cons_self
        · exact List.mem_cons_of_mem u (mem_of_takeNamed hrest t ht)

/-- One more tag adds at most itself to those that wait. -/
theorem mem_of_pairTag {waiting : List TagMark} {u t : TagMark} (h : t ∈ pairTag waiting u) :
    t = u ∨ t ∈ waiting := by
  unfold pairTag at h
  split at h
  · cases hrest : takeNamed u.name waiting with
    | some rest =>
      rw [hrest] at h
      exact .inr (mem_of_takeNamed hrest t h)
    | none =>
      rw [hrest] at h
      exact List.mem_cons.1 h
  · exact List.mem_cons.1 h

theorem mem_of_foldl_pairTag {t : TagMark} :
    ∀ {tags waiting : List TagMark}, t ∈ tags.foldl pairTag waiting → t ∈ tags ∨ t ∈ waiting
  | [], _, h => .inr h
  | u :: tags, waiting, h => by
      have h : t ∈ tags ∨ t ∈ pairTag waiting u := mem_of_foldl_pairTag h
      obtain h | h := h
      · exact .inl (List.mem_cons_of_mem u h)
      · obtain rfl | h := mem_of_pairTag h
        · exact .inl List.mem_cons_self
        · exact .inr h

/-- An orphan tag is a match of the pattern of tags. -/
theorem mem_of_orphanSpans {text : Array Char} {span : Span} (h : span ∈ orphanSpans text) :
    span ∈ Region.spansOf tagPattern text := by
  obtain ⟨t, ht, rfl⟩ := List.mem_map.1 h
  obtain ht | ht := mem_of_foldl_pairTag ht
  · obtain ⟨m, hm, hmark⟩ := List.mem_filterMap.1 ht
    dsimp only at hmark
    split at hmark
    · cases hmark
    · cases hmark
      exact List.mem_map_of_mem hm
  · cases ht

/-! ### Reading the patterns -/

theorem tagPattern_takes : tagPattern.takes = true := by
  unfold tagPattern Markup.attributeSource Markup.quotedSource Markup.conditionalSource
  rw [Pattern.ofSource_eq_ofChars]
  simp only [String.toList_append, -String.reduceAppend]
  repeat rw [String.toList_ofList]
  decide +kernel

theorem attributeName_takes : attributeName.takes = true := by
  unfold attributeName
  rw [Pattern.ofSource_eq_ofChars, String.toList_ofList]
  decide +kernel

/-- Whether the patterns of a rule take a character. -/
def Test.takes : Test → Bool
  | .patterns ps => ps.all Pattern.takes
  | _ => true

open Catalog in
-- The characters of the sources are put in first: to decode them is slower than to read them.
set_option maxRecDepth 20000 in
theorem all_takes : (Catalog.all.all (·.test.takes)) = true := by
  simp only [Catalog.all, List.all_cons, List.all_nil, Test.takes, t001, t002, t003, d004, j004,
    h005, h006, h007,
    h008, h009, h010, h011, h012, h013, h014, h015, h016, h017, d018, j018, h019, h020, h021, h022,
    h023, h024, h025,
    h026, t027, t028, h029, h030, h031, t032, h033, t034, h035, h036, h037, Test.ready,
    Pattern.ofSource_eq_ofChars,
    List.map_cons, List.map_nil, String.toList_append, -String.reduceAppend]
  repeat rw [String.toList_ofList]
  decide +kernel

/-! ### Repeated attributes -/

/-- A place after a blank is not beyond the end. -/
theorem le_size_of_mem_attributePlaces {text : Array Char} {pos i : Nat}
    (h : i ∈ attributePlaces text pos) : i ≤ text.size := by
  obtain ⟨j, hj, rfl⟩ := List.mem_map.1 h
  have hblank := (List.mem_filter.1 hj).2
  cases hc : text[j]? with
  | none =>
    rw [hc] at hblank
    cases hblank
  | some c => exact (Array.getElem?_eq_some_iff.1 hc).1

theorem start_lt_size_of_firstRepeated {text : Array Char} {span : Span} {places : List Nat} :
    ∀ {passed : Std.HashSet Nat}, (∀ i ∈ places, i ≤ text.size) →
      firstRepeated text passed places = some span → span.start < text.size := by
  induction places with
  | nil =>
    intro passed _ h
    cases h
  | cons i places ih =>
    intro passed hplaces h
    have hrest : ∀ j ∈ places, j ≤ text.size := fun j hj => hplaces j (List.mem_cons_of_mem i hj)
    rw [firstRepeated] at h
    cases hm : attributeName.matchAt? text i with
    | none =>
      rw [hm] at h
      exact ih hrest h
    | some m =>
      rw [hm] at h
      dsimp only at h
      obtain ⟨-, h⟩ | ⟨-, h⟩ := ite_eq_iff.1 h
      · have hstart := Pattern.start_lt_size_of_matchAt? attributeName_takes
          (hplaces i List.mem_cons_self) hm
        rwa [← Option.some.inj h]
      · exact ih hrest h

theorem start_lt_size_of_repeatedFrom {text : Array Char} {span : Span} {fuel : Nat} :
    ∀ {pos : Nat}, span ∈ repeatedFrom text fuel pos → span.start < text.size := by
  induction fuel with
  | zero =>
    intro pos h
    cases h
  | succ fuel ih =>
    intro pos h
    rw [repeatedFrom] at h
    cases hm : tagStart.findFrom? text pos false with
    | none =>
      rw [hm] at h
      cases h
    | some m =>
      rw [hm] at h
      dsimp only at h
      cases hs : firstRepeated text ∅ (attributePlaces text m.stop) with
      | none =>
        rw [hs] at h
        exact ih h
      | some s =>
        rw [hs] at h
        obtain rfl | h := List.mem_cons.1 h
        · exact start_lt_size_of_firstRepeated (fun i => le_size_of_mem_attributePlaces) hs
        · exact ih h

/-! ### The built-in rules -/

open Catalog in
/-- A built-in rule is the check for orphan tags, the search for repeated attributes, or has
patterns. -/
theorem test_of_mem_all : ∀ rule ∈ Catalog.all, rule.test = .check (.text "djlint.rules.H025") ∨
    rule.test = .search repeatedAttributes ∨ ∃ ps, rule.test = .patterns ps := by
  simp only [Catalog.all, List.forall_mem_cons]
  iterate 26 refine ⟨.inr (.inr ⟨_, rfl⟩), ?_⟩
  refine ⟨.inl rfl, ?_⟩
  iterate 11 refine ⟨.inr (.inr ⟨_, rfl⟩), ?_⟩
  exact ⟨.inr (.inl rfl), List.forall_mem_nil _⟩

/-- The places that a built-in rule looks at: the matches of its patterns, the repeated attributes,
or all tags. -/
def Test.spans (text : Array Char) : Test → List Span
  | .patterns ps => ps.flatMap (Region.spansOf · text)
  | .search find => find text
  | .check _ => Region.spansOf tagPattern text
  | .written .. => []

theorem start_lt_size_of_mem_spansOf {p : Pattern} {text : Array Char} {span : Span}
    (hp : p.takes = true) (h : span ∈ Region.spansOf p text) : span.start < text.size := by
  obtain ⟨m, hm, rfl⟩ := List.mem_map.1 h
  exact Pattern.start_lt_size_of_mem_findAll hp hm

/-- No built-in rule looks at the end of a text. -/
theorem start_lt_size_of_mem_spans {rule : Rule} (hrule : rule ∈ Catalog.all)
    {text : Array Char} {span : Span}
    (h : span ∈ rule.test.spans text) : span.start < text.size := by
  obtain htest | htest | ⟨ps, htest⟩ := test_of_mem_all rule hrule
  · rw [htest, Test.spans] at h
    exact start_lt_size_of_mem_spansOf tagPattern_takes h
  · rw [htest, Test.spans] at h
    exact start_lt_size_of_repeatedFrom h
  · have htakes := List.all_eq_true.1 all_takes rule hrule
    rw [htest, Test.takes] at htakes
    rw [htest, Test.spans] at h
    obtain ⟨p, hp, h⟩ := List.mem_flatMap.1 h
    exact start_lt_size_of_mem_spansOf (List.all_eq_true.1 htakes p hp) h

/-- Every built-in rule answers. -/
theorem exists_runRule {text : List Char} {path : String} {rule : Rule}
    (hrule : rule ∈ Catalog.all) :
    ∃ found, runRule builtinChecks (Document.ofText text path) rule = .ok found := by
  have hspans : ∀ span ∈ rule.test.spans text.toArray, span.start < text.length :=
    fun span hspan => start_lt_size_of_mem_spans hrule hspan
  obtain htest | htest | ⟨ps, htest⟩ := test_of_mem_all rule hrule
  · rw [htest, Test.spans] at hspans
    have hfound : ∃ found, (Document.ofText text path).findings rule (orphanSpans text.toArray) =
        .ok found :=
      exists_findings fun span hspan => hspans span (mem_of_orphanSpans hspan)
    obtain ⟨found, hfound⟩ := hfound
    have hcheck : orphanCheck rule (Document.ofText text path) = .ok (some found) := by
      unfold orphanCheck
      rw [show (Document.ofText text path).text = text.toArray from rfl, hfound, Outcome.ok_bind]
      rfl
    refine ⟨found, ?_⟩
    rw [runRule, htest]
    simp only [builtinChecks, List.lookup, beq_self_eq_true, hcheck, Outcome.ok_bind]
    rfl
  · rw [htest, Test.spans] at hspans
    rw [runRule, htest]
    exact exists_findings hspans
  · rw [htest, Test.spans] at hspans
    have hparts : ∃ parts, (ps.mapM fun p =>
        (Document.ofText text path).findings rule (Region.spansOf p text.toArray)) = .ok parts :=
      Outcome.exists_mapM fun p hp =>
        exists_findings fun span hspan => hspans span (List.mem_flatMap_of_mem hp hspan)
    obtain ⟨parts, hparts⟩ := hparts
    refine ⟨parts.flatten, ?_⟩
    rw [runRule, htest]
    exact congrArg (Except.map List.flatten) hparts

/-! ### The choice of rules -/

theorem exists_ruleIsOn (ignored included profile : String) (codes : List String) {rule : Rule}
    (hrule : rule ∈ Catalog.all) : ∃ on, ruleIsOn ignored included profile codes rule = .ok on := by
  have hwritten : ∀ rule ∈ Catalog.all, ∃ name xs, rule.name = .text name ∧
      rule.exclude = .list xs := by
    simp only [Catalog.all, List.forall_mem_cons]
    iterate 39 refine ⟨⟨_, _, rfl, rfl⟩, ?_⟩
    exact List.forall_mem_nil _
  obtain ⟨name, xs, hname, hexclude⟩ := hwritten rule hrule
  unfold ruleIsOn
  rw [hname, hexclude]
  refine Outcome.exists_branch (fun _ => ⟨_, rfl⟩) fun _ => ?_
  refine Outcome.exists_branch (fun _ => ⟨_, rfl⟩) fun _ => ?_
  exact Outcome.exists_branch (fun _ => ⟨_, rfl⟩) fun _ => ⟨_, rfl⟩

/-- A lint with the built-in rules answers.  Whatever the profile, its codes and the codes that are
switched off and on, the rules that are on can be told, and with these rules, no entries per file
and any text, the lint gives a list of findings; no rule looks at the end of the text. -/
theorem lint_builtin_returns (ignored included profile : String) (codes : List String)
    (text : List Char) (path : String) :
    (∀ rule ∈ Catalog.all, ∀ span ∈ rule.test.spans text.toArray, span.start < text.length) ∧
      ∃ rules found, Catalog.all.filterM (ruleIsOn ignored included profile codes) = .ok rules ∧
        lint builtinChecks rules (.dict []) text path = .ok found := by
  refine ⟨fun rule hrule span => start_lt_size_of_mem_spans hrule, ?_⟩
  obtain ⟨rules, hrules, hmem⟩ := Outcome.exists_filterM fun rule hrule =>
    exists_ruleIsOn ignored included profile codes hrule
  have hparts : ∃ parts, rules.mapM (runRule builtinChecks (Document.ofText text path)) =
      .ok parts :=
    Outcome.exists_mapM fun rule hrule => exists_runRule (hmem rule hrule)
  obtain ⟨parts, hparts⟩ := hparts
  have hon : rules.filter (!·.isOff []) = rules := by
    refine List.filter_eq_self.2 fun rule _ => ?_
    unfold Rule.isOff
    split <;> rfl
  refine ⟨rules, dropRepeats parts.flatten, hrules, ?_⟩
  unfold lint
  rw [show switchedOff (.dict []) path = .ok [] from rfl]
  dsimp only
  rw [Outcome.ok_bind, hon, hparts]
  rfl

/-- A paragraph that is never closed, in a profile of its own and with one code switched off. -/
theorem lint_builtin_returns_paragraph :
    Catalog.h025 ∈ Catalog.all ∧ (∀ span ∈ Catalog.h025.test.spans #['<', 'p', '>'],
      span.start < 3) ∧
      ∃ rules found, Catalog.all.filterM (ruleIsOn "H005" "" "django" ["J", "N", "M"]) = .ok rules ∧
        lint builtinChecks rules (.dict []) ['<', 'p', '>'] "a.html" = .ok found := by
  have hmem : Catalog.h025 ∈ Catalog.all := by simp [Catalog.all]
  obtain ⟨hspans, hlint⟩ := lint_builtin_returns "H005" "" "django" ["J", "N", "M"] ['<', 'p',
    '>'] "a.html"
  exact ⟨hmem, hspans Catalog.h025 hmem, hlint⟩

end TemplateTidy.Lint
