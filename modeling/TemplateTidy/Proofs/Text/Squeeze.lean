import TemplateTidy.Proofs.Text.Case
import TemplateTidy.Text.Line

/-! # What a text holds

`solid` is a text without its blanks.  It is a view that adding and dropping blanks keeps: trimming,
joining lines and cutting a text into lines do not change it.  `squeeze` is the same in lower case,
letter by letter.  A character without case is in the view if it is in the text
(`mem_squeeze_iff`). -/

namespace TemplateTidy.Text

/-! ### The view -/

/-- The characters of a text that are not blank. -/
def solid (text : List Char) : List Char :=
  text.filter fun c => !isBlank c

theorem solid_append (a b : List Char) : solid (a ++ b) = solid a ++ solid b :=
  List.filter_append ..

theorem solid_eq_nil {text : List Char} (h : ∀ c ∈ text, isBlank c = true) : solid text = [] := by
  rw [solid, List.filter_eq_nil_iff]
  intro c hc
  simp [h c hc]

theorem solid_cons_of_isBlank {c : Char} (h : isBlank c = true) (text : List Char) :
    solid (c :: text) = solid text :=
  List.filter_cons_of_neg (by simp [h])

theorem solid_flatten (parts : List (List Char)) :
    solid parts.flatten = (parts.map solid).flatten :=
  List.filter_flatten

/-- A text without blanks, each letter in lower case. -/
def squeeze (text : List Char) : List Char :=
  (text.filter fun c => !isBlank c).flatMap fun c => lower [c]

theorem squeeze_eq_solid (text : List Char) :
    squeeze text = (solid text).flatMap fun c => lower [c] := rfl

@[simp] theorem squeeze_nil : squeeze [] = [] := rfl

theorem squeeze_append (a b : List Char) : squeeze (a ++ b) = squeeze a ++ squeeze b := by
  simp [squeeze]

theorem squeeze_cons (c : Char) (text : List Char) :
    squeeze (c :: text) = squeeze [c] ++ squeeze text :=
  squeeze_append [c] text

theorem squeeze_eq_nil {text : List Char} (h : ∀ c ∈ text, isBlank c = true) :
    squeeze text = [] := by
  rw [squeeze_eq_solid, solid_eq_nil h]
  rfl

theorem squeeze_cons_of_isBlank {c : Char} (h : isBlank c = true) (text : List Char) :
    squeeze (c :: text) = squeeze text := by
  rw [squeeze_eq_solid, solid_cons_of_isBlank h, squeeze_eq_solid]

/-! ### Trimming -/

theorem solid_stripLeft (text : List Char) : solid (stripLeft text) = solid text := by
  unfold stripLeft trimLeft
  conv_rhs => rw [← List.takeWhile_append_dropWhile (p := isBlank) (l := text)]
  rw [solid_append, solid_eq_nil (fun c hc => List.mem_takeWhile_imp hc), List.nil_append]

theorem solid_stripRight (text : List Char) : solid (stripRight text) = solid text := by
  unfold stripRight trimRight
  have hsplit : text = (text.reverse.dropWhile isBlank).reverse ++
      (text.reverse.takeWhile isBlank).reverse := by
    rw [← List.reverse_append, List.takeWhile_append_dropWhile, List.reverse_reverse]
  have hnil : solid (text.reverse.takeWhile isBlank).reverse = [] :=
    solid_eq_nil fun c hc => List.mem_takeWhile_imp (List.mem_reverse.1 hc)
  conv_rhs => rw [hsplit]
  rw [solid_append, hnil, List.append_nil]

theorem solid_strip (text : List Char) : solid (strip text) = solid text :=
  (solid_stripRight (stripLeft text)).trans (solid_stripLeft text)

@[simp] theorem squeeze_stripLeft (text : List Char) : squeeze (stripLeft text) = squeeze text := by
  rw [squeeze_eq_solid, solid_stripLeft, squeeze_eq_solid]

@[simp] theorem squeeze_stripRight (text : List Char) :
    squeeze (stripRight text) = squeeze text := by
  rw [squeeze_eq_solid, solid_stripRight, squeeze_eq_solid]

@[simp] theorem squeeze_strip (text : List Char) : squeeze (strip text) = squeeze text := by
  rw [squeeze_eq_solid, solid_strip, squeeze_eq_solid]

/-! ### Lines -/

theorem isBlank_of_isLineEnd {c : Char} (h : isLineEnd c = true) : isBlank c = true := by
  simp only [isLineEnd, Bool.or_eq_true, Bool.and_eq_true, decide_eq_true_eq, beq_iff_eq] at h
  simp only [isBlank, isSpace, Bool.or_eq_true, Bool.and_eq_true, decide_eq_true_eq, beq_iff_eq]
  omega

theorem solid_joinWith {sep : List Char} (hsep : ∀ c ∈ sep, isBlank c = true) :
    ∀ parts : List (List Char), solid (joinWith sep parts) = (parts.map solid).flatten
  | [] => rfl
  | [part] => by simp [joinWith]
  | part :: part' :: parts => by
      rw [joinWith, solid_append, solid_append, solid_joinWith hsep (part' :: parts),
        solid_eq_nil hsep, List.append_nil]
      rfl

theorem squeeze_parts (parts : List (List Char)) :
    (parts.map squeeze).flatten = (parts.map solid).flatten.flatMap fun c => lower [c] := by
  induction parts with
  | nil => rfl
  | cons part parts ih =>
    rw [List.map_cons, List.flatten_cons, ih, List.map_cons, List.flatten_cons, List.flatMap_append,
      squeeze_eq_solid]

theorem squeeze_joinWith {sep : List Char} (hsep : ∀ c ∈ sep, isBlank c = true)
    (parts : List (List Char)) : squeeze (joinWith sep parts) = (parts.map squeeze).flatten := by
  rw [squeeze_eq_solid, solid_joinWith hsep, squeeze_parts]

theorem solid_splitLinesFrom (line text : List Char) :
    ((splitLinesFrom line text).map solid).flatten = solid line.reverse ++ solid text := by
  fun_induction splitLinesFrom line text with
  | case1 line h => simp_all [solid]
  | case2 line h => simp [solid]
  | case3 line rest ih =>
    rw [List.map_cons, List.flatten_cons, ih, solid_cons_of_isBlank (by decide),
      solid_cons_of_isBlank (by decide)]
    rfl
  | case4 line c rest _ h ih =>
    rw [List.map_cons, List.flatten_cons, ih, solid_cons_of_isBlank (isBlank_of_isLineEnd h)]
    rfl
  | case5 line c rest _ h ih =>
    rw [ih, List.reverse_cons, solid_append, List.append_assoc, ← solid_append]
    rfl

theorem solid_splitLines (text : List Char) : ((splitLines text).map solid).flatten = solid text :=
  solid_splitLinesFrom [] text

theorem squeeze_splitLines (text : List Char) :
    ((splitLines text).map squeeze).flatten = squeeze text := by
  rw [squeeze_parts, solid_splitLines, squeeze_eq_solid]

/-! ### Characters without case -/

theorem lower_singleton (c : Char) :
    lower [c] = if c = 'İ' then ['i', '̇'] else [lowerChar c] := by
  by_cases h : c = 'İ'
  · simp [lower, lowerAfter, h]
  · simp [lower, lowerAfter, h]

theorem mem_lower_singleton {a c : Char} (ha : isCaseless a = true) : a ∈ lower [c] ↔ c = a := by
  rw [lower_singleton]
  split
  · rename_i h
    subst h
    obtain ⟨-, hlt, halpha⟩ := isCaseless_bounds ha
    constructor
    · intro hmem
      simp only [List.mem_cons, List.not_mem_nil, or_false] at hmem
      obtain rfl | rfl := hmem
      · simp [Char.isAlpha] at halpha
      · simp at hlt
    · rintro rfl
      simp at hlt
  · rw [List.mem_singleton, eq_comm, lowerChar_eq_iff ha]

/-- A character without case is in the view if it is in the text. -/
theorem mem_squeeze_iff {a : Char} (ha : isCaseless a = true) (hb : isBlank a = false)
    {text : List Char} : a ∈ squeeze text ↔ a ∈ text := by
  simp only [squeeze, List.mem_flatMap, List.mem_filter, Bool.not_eq_true']
  constructor
  · rintro ⟨c, ⟨hc, -⟩, hmem⟩
    rwa [← (mem_lower_singleton ha).1 hmem]
  · exact fun h => ⟨a, ⟨h, hb⟩, (mem_lower_singleton ha).2 rfl⟩

/-! ### Names in lower case -/

/-- The blanks above 127. -/
def wideBlanks : List Nat :=
  [0x85, 0xA0, 0x1680] ++ List.range' 0x2000 11 ++ [0x2028, 0x2029, 0x202F, 0x205F, 0x3000]

theorem lowerRuns_wideBlanks : ∀ n ∈ wideBlanks, applyRuns lowerRuns n = n := by
  unfold applyRuns
  simp only [← Array.find?_toList]
  decide +kernel

theorem toLower_eq_self {c : Char} (h : c.toNat < 65 ∨ 90 < c.toNat) : c.toLower = c := by
  refine Char.toLower_eq_of_not_isUpper ?_
  simp only [Char.isUpper, decide_eq_true_eq, ge_iff_le, UInt32.le_iff_toNat_le,
    show 'A'.val.toNat = 65 from rfl,
    show 'Z'.val.toNat = 90 from rfl, show c.val.toNat = c.toNat from rfl]
  omega

theorem lowerChar_of_isBlank {c : Char} (h : isBlank c = true) : lowerChar c = c := by
  unfold lowerChar
  simp only [isBlank, isSpace, Bool.or_eq_true, Bool.and_eq_true, decide_eq_true_eq,
    beq_iff_eq] at h
  split
  · exact toLower_eq_self (by omega)
  · have hmem : c.toNat ∈ wideBlanks := by
      simp only [wideBlanks, List.mem_append, List.mem_cons, List.mem_range'_1, List.not_mem_nil,
        or_false]
      omega
    rw [lowerRuns_wideBlanks _ hmem, Char.ofNat_toNat]

theorem mem_lowerAfter_cons {before : Option Char} {c : Char} {rest : List Char}
    (h : ∀ d ∈ lowerAfter before (c :: rest), d.toNat < 128) :
    lowerAfter before (c :: rest) = lowerChar c :: lowerAfter (some c) rest ∧
    lower [c] = [lowerChar c] := by
  rw [lowerAfter] at h ⊢
  by_cases h1 : c = 'İ'
  · simp [h1] at h
  · by_cases h2 : (c == 'Σ' && before.any isCased && !rest.head?.any isCased) = true
    · simp [h1, h2] at h
    · simp [h1, h2, lower_singleton]

/-- A name whose lower case is below 128 and has no blanks has the view of its lower case. -/
theorem squeeze_eq_lowerAfter : ∀ {before : Option Char} {name : List Char},
    (∀ d ∈ lowerAfter before name, d.toNat < 128 ∧ isBlank d = false) →
      squeeze name = lowerAfter before name
  | _, [], _ => rfl
  | before, c :: rest, h => by
      obtain ⟨he, hc⟩ := mem_lowerAfter_cons fun d hd => (h d hd).1
      rw [he] at h ⊢
      have hblank : isBlank c = false := by
        have hlow := (h (lowerChar c) (by simp)).2
        by_contra hb
        rw [Bool.not_eq_false] at hb
        rw [lowerChar_of_isBlank hb, hb] at hlow
        simp at hlow
      have hone : squeeze [c] = [lowerChar c] := by simp [squeeze, hblank, hc]
      have ih : squeeze rest = lowerAfter (some c) rest :=
        squeeze_eq_lowerAfter fun d hd => h d (by simp [hd])
      rw [squeeze_cons, hone, ih]
      rfl

end TemplateTidy.Text
