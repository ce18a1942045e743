import TemplateTidy.Proofs.Layout.Sources

/-! # Names as they are given

A setting gives names as one text with commas between them.  The settings keep them as parts of
patterns, those of blocks with the names of their ends, in order and without repeats.  Where all
names are made of characters that stand for themselves, the patterns can take them in
(`exists_adds_of_plain`). -/

namespace TemplateTidy.Layout

open Text Pattern

/-! ### Word characters -/

/-- No blank beyond the first 128 characters may stand in a word. -/
theorem blanks_check :
    (wordRanges.toList.all fun r => [0x85, 0xA0, 0x1680, 0x2000, 0x2001, 0x2002, 0x2003, 0x2004,
    0x2005, 0x2006, 0x2007, 0x2008, 0x2009, 0x200A, 0x2028, 0x2029, 0x202F, 0x205F,
    0x3000].all fun n =>
      !(decide (r.1 ≤ n) && decide (n ≤ r.2))) = true := by
  rw [wordRanges, Array.toList_append, Array.toList_append, List.all_append, List.all_append]
  decide +kernel

theorem isPlain_of_isWord {c : Char} (h : isWord c = true) : isPlain c = true := by
  by_cases hlow : c.toNat < 128
  · rw [isWord, if_pos hlow, Bool.or_eq_true, beq_iff_eq] at h
    obtain h | rfl := h
    · exact isPlain_of_isAlphanum h
    · decide
  · rw [isWord, if_neg hlow] at h
    have hne : ∀ d : Char, d.toNat < 128 → c ≠ d := by
      rintro d hd rfl
      exact hlow hd
    have hblank : isBlank c = false := by
      by_contra hb
      rw [Bool.not_eq_false] at hb
      rw [inRanges, ← Array.any_toList, List.any_eq_true] at h
      obtain ⟨r, hr, h⟩ := h
      have hnot := List.all_eq_true.1 (List.all_eq_true.1 blanks_check r hr) c.toNat <| by
        simp only [isBlank, isSpace, Bool.or_eq_true, Bool.and_eq_true, decide_eq_true_eq,
          beq_iff_eq] at hb
        simp only [List.mem_cons, List.not_mem_nil, or_false]
        omega
      simp [h] at hnot
    rw [isPlain, hblank, isSpecial, bne_iff_ne.2 (hne '#' (by decide))]
    simp [hne]

/-! ### Lists -/

/-- The value lists names of word characters, or nothing. -/
def ListsWords (v : Value) : Prop :=
  textOf v = .ok none ∨ ∃ t, textOf v = .ok (some t) ∧ ∀ n ∈ commaNames t, n ≠ "" ∧ ∀ c ∈ n.toList,
    isWord c = true

/-- The value lists names of characters that stand for themselves, or nothing. -/
def ListsNames (v : Value) : Prop :=
  textOf v = .ok none ∨ ∃ t, textOf v = .ok (some t) ∧ ∀ n ∈ commaNames t, n ≠ "" ∧ ∀ c ∈ n.toList,
    isPlain c = true

theorem ListsWords.names {v : Value} (h : ListsWords v) : ListsNames v := by
  obtain hnone | ⟨t, ht, hwords⟩ := h
  · exact .inl hnone
  · exact .inr ⟨t, ht, fun n hn => ⟨(hwords n hn).1, fun c hc =>
      isPlain_of_isWord ((hwords n hn).2 c hc)⟩⟩

/-- The settings hold the names that these values list: those of elements, of blocks and of blocks
to keep. -/
structure TakesNames (s : Settings) (html blocks kept : Value) : Prop where
  html_eq : (customHtmlOf html).map (·.getD "") = .ok s.customHtml
  blocks_eq : (customBlocksOf blocks).map (·.getD "") = .ok s.customBlocks
  kept_eq : ignoreBlocksOf kept = .ok s.ignoreBlocks
  words : ListsWords html ∧ ListsWords blocks ∧ ListsWords kept

theorem commaNames_ne_nil (t : String) : commaNames t ≠ [] := by
  simp [commaNames]

theorem flatMap_bar : ∀ {names : List (List Char)}, names ≠ [] →
    names.flatMap ('|' :: ·) = '|' :: ['|'].intercalate names
  | [], h => absurd rfl h
  | [n], _ => by simp [List.intercalate]
  | n :: n' :: names, _ => by
      rw [List.flatMap_cons, flatMap_bar (by simp), List.intercalate_cons_cons]
      simp

/-- A name that stands for itself in every pattern. -/
abbrev PlainName : Type := { n : List Char // n ≠ [] ∧ ∀ c ∈ n, isPlain c = true }

theorem exists_plainName {n : String} (h : n ≠ "" ∧ ∀ c ∈ n.toList, isPlain c = true) :
    ∃ p : PlainName, p.1 = n.toList :=
  ⟨⟨n.toList, by simpa using h.1, h.2⟩, rfl⟩

theorem exists_plainName_end (p : PlainName) : ∃ q : PlainName, q.1 = "end".toList ++ p.1 := by
  refine ⟨⟨"end".toList ++ p.1, by simp, fun c hc => ?_⟩, rfl⟩
  obtain hc | hc := List.mem_append.1 hc
  · have hend : ∀ d ∈ "end".toList, d.isAlphanum = true := by simp
    exact isPlain_of_isAlphanum (hend c hc)
  · exact p.2.2 c hc

/-- The blocks that a list names and their ends, in order, are plain names before word edges. -/
theorem exists_sortedNames {names : List String} (hne : names ≠ [])
    (hnames : ∀ n ∈ names, n ≠ "" ∧ ∀ c ∈ n.toList, isPlain c = true) :
    ∃ all : List PlainName, all ≠ [] ∧
      (sortedNames ((names ++ names.map ("end" ++ ·)).map (· ++ "\\b"))).map String.toList =
        all.map fun p => p.1 ++ ['\\', 'b'] := by
  have hmem : ∀ x, x ∈ sortedNames ((names ++ names.map ("end" ++ ·)).map (· ++ "\\b")) ↔
      ∃ n ∈ names ++ names.map ("end" ++ ·), n ++ "\\b" = x := by
    intro x
    rw [sortedNames, (List.mergeSort_perm _ _).mem_iff, List.mem_eraseDups, List.mem_map]
  have hplain : ∀ x ∈ (sortedNames ((names ++ names.map ("end" ++ ·)).map (· ++ "\\b"))).map
      String.toList, x ∈ Set.range fun p : PlainName => p.1 ++ ['\\', 'b'] := by
    intro x hx
    obtain ⟨y, hy, rfl⟩ := List.mem_map.1 hx
    obtain ⟨n, hn, rfl⟩ := (hmem y).1 hy
    obtain hn | hn := List.mem_append.1 hn
    · obtain ⟨p, hp⟩ := exists_plainName (hnames n hn)
      exact ⟨p, by simp [hp]⟩
    · obtain ⟨k, hk, rfl⟩ := List.mem_map.1 hn
      obtain ⟨p, hp⟩ := exists_plainName (hnames k hk)
      obtain ⟨q, hq⟩ := exists_plainName_end p
      exact ⟨q, by simp [hq, hp]⟩
  obtain ⟨all, hall⟩ := (Set.range_list_map fun p : PlainName => p.1 ++ ['\\', 'b']).ge hplain
  refine ⟨all, ?_, hall.symm⟩
  rintro rfl
  obtain ⟨n, names, rfl⟩ := List.exists_cons_of_ne_nil hne
  have hin := (hmem (n ++ "\\b")).2 ⟨n, by simp, rfl⟩
  rw [List.map_eq_nil_iff.1 hall.symm] at hin
  cases hin

theorem sortedNames_pair {a b : String} (h : b < a) : sortedNames [a, b] = [b, a] := by
  have hne : (b == a) = false := by
    rw [beq_eq_false_iff_ne]
    rintro rfl
    exact String.lt_irrefl _ h
  have hdup : [a, b].eraseDups = [a, b] := by simp [List.eraseDups_cons, hne]
  have hmerge : [a].merge [b] (fun a b => !decide (b < a)) = [b, a] := by
    rw [List.merge]
    simp only [h, decide_true, Bool.not_true, Bool.false_eq_true, if_false, List.merge_right]
  rw [sortedNames, hdup, List.mergeSort]
  simpa [List.MergeSort.Internal.splitInTwo] using hmerge

namespace ListsNames

variable {v : Value} (h : ListsNames v)
include h

theorem exists_html {written : String} (heq : (customHtmlOf v).map (·.getD "") = .ok written) :
    ∃ names : List PlainName, written.toList = (names.map Subtype.val).flatMap ('|' :: ·) := by
  obtain hnone | ⟨t, ht, hplain⟩ := h
  · rw [customHtmlOf, hnone] at heq
    exact ⟨[], by rw [← Except.ok.inj heq]; rfl⟩
  · rw [customHtmlOf, ht] at heq
    have hrange : ∀ x ∈ (commaNames t).map String.toList, x ∈ Set.range (Subtype.val : PlainName →
        List Char) := by
      intro x hx
      obtain ⟨n, hn, rfl⟩ := List.mem_map.1 hx
      exact exists_plainName (hplain n hn)
    obtain ⟨names, hnames⟩ := (Set.range_list_map (Subtype.val : PlainName → List Char)).ge hrange
    refine ⟨names, ?_⟩
    rw [← Except.ok.inj heq, hnames, flatMap_bar (by simpa using commaNames_ne_nil t)]
    simp [String.toList_intercalate]

theorem exists_blocks {written : String} (heq : (customBlocksOf v).map (·.getD "") = .ok written) :
    ∃ names : List PlainName,
      written.toList = (names.map Subtype.val).flatMap fun n => '|' :: (n ++ ['\\', 'b']) := by
  obtain hnone | ⟨t, ht, hplain⟩ := h
  · rw [customBlocksOf, hnone] at heq
    exact ⟨[], by rw [← Except.ok.inj heq]; rfl⟩
  · rw [customBlocksOf, ht] at heq
    obtain ⟨all, hne, hall⟩ := exists_sortedNames (commaNames_ne_nil t) hplain
    have hnil : all.map (fun p => p.1 ++ ['\\', 'b']) ≠ [] := List.map_eq_nil_iff.not.2 hne
    have hbar := flatMap_bar hnil
    rw [List.flatMap_map] at hbar
    refine ⟨all, ?_⟩
    rw [← Except.ok.inj heq, List.flatMap_map, hbar, ← hall]
    simp [String.toList_intercalate]

theorem exists_kept {written : Option String} (heq : ignoreBlocksOf v = .ok written) :
    ∃ names : List PlainName, written.map String.toList = if names.map Subtype.val = [] then none
      else some (['|'].intercalate ((names.map Subtype.val).map (· ++ ['\\', 'b']))) := by
  obtain hnone | ⟨t, ht, hplain⟩ := h
  · rw [ignoreBlocksOf, hnone] at heq
    exact ⟨[], by rw [← Except.ok.inj heq]; rfl⟩
  · rw [ignoreBlocksOf, ht] at heq
    obtain ⟨all, hne, hall⟩ := exists_sortedNames (commaNames_ne_nil t) hplain
    refine ⟨all, ?_⟩
    rw [← Except.ok.inj heq, if_neg (List.map_eq_nil_iff.not.2 hne), List.map_map]
    simp [String.toList_intercalate, ← hall, Function.comp_def]

end ListsNames

variable {s : Settings} {html blocks kept : Value}

/-- Names of plain characters can be taken into patterns. -/
theorem exists_adds_of_plain (hhtml : (customHtmlOf html).map (·.getD "") = .ok s.customHtml)
    (hblocks : (customBlocksOf blocks).map (·.getD "") = .ok s.customBlocks)
    (hkept : ignoreBlocksOf kept = .ok s.ignoreBlocks)
    (hplain : ListsNames html ∧ ListsNames blocks ∧ ListsNames kept) :
    ∃ html blocks kept : List (List Char), Adds s html blocks kept := by
  obtain ⟨html, hhtml⟩ := hplain.1.exists_html hhtml
  obtain ⟨blocks, hblocks⟩ := hplain.2.1.exists_blocks hblocks
  obtain ⟨kept, hkept⟩ := hplain.2.2.exists_kept hkept
  refine ⟨_, _, _, hhtml, hblocks, hkept, fun n hn => ?_⟩
  rw [← List.map_append, ← List.map_append] at hn
  obtain ⟨p, -, rfl⟩ := List.mem_map.1 hn
  exact p.2

theorem TakesNames.exists_adds (h : TakesNames s html blocks kept) :
    ∃ html blocks kept : List (List Char), Adds s html blocks kept :=
  exists_adds_of_plain h.html_eq h.blocks_eq h.kept_eq ⟨h.words.1.names, h.words.2.1.names,
    h.words.2.2.names⟩

end TemplateTidy.Layout
