import TemplateTidy.Proofs.Text.Squeeze

/-! # Lines and their ends

What cutting a text into lines, joining lines and trimming do to its characters: nothing new comes
in but separators, and no line holds a line end.  `withReturns` pairs each line feed with a carriage
return. -/

namespace TemplateTidy.Text

variable {c : Char} {text : List Char}

theorem mem_of_mem_trimLeft {p : Char → Bool} (h : c ∈ trimLeft p text) : c ∈ text :=
  (List.dropWhile_sublist p).subset h

theorem mem_of_mem_trimRight {p : Char → Bool} (h : c ∈ trimRight p text) : c ∈ text := by
  unfold trimRight at h
  exact List.mem_reverse.1 ((List.dropWhile_sublist p).subset (List.mem_reverse.1 h))

theorem mem_of_mem_strip (h : c ∈ strip text) : c ∈ text :=
  mem_of_mem_trimLeft (mem_of_mem_trimRight h)

theorem mem_joinWith {sep : List Char} :
    ∀ {parts : List (List Char)}, c ∈ joinWith sep parts → c ∈ sep ∨ ∃ part ∈ parts, c ∈ part
  | [], h => by simp [joinWith] at h
  | [part], h => .inr ⟨part, by simp, h⟩
  | part :: part' :: parts, h => by
      simp only [joinWith, List.mem_append] at h
      obtain (h | h) | h := h
      · exact .inr ⟨part, by simp, h⟩
      · exact .inl h
      · obtain h | ⟨p, hp, h⟩ := mem_joinWith h
        · exact .inl h
        · exact .inr ⟨p, List.mem_cons_of_mem _ hp, h⟩

theorem mem_splitLinesFrom {line text l : List Char} (hl : l ∈ splitLinesFrom line text)
    (hc : c ∈ l) : c ∈ line ∨ (c ∈ text ∧ isLineEnd c = false) := by
  fun_induction splitLinesFrom line text with
  | case1 line h => simp at hl
  | case2 line h =>
    rw [List.mem_singleton.1 hl] at hc
    exact .inl (List.mem_reverse.1 hc)
  | case3 line rest ih =>
    obtain rfl | hl := List.mem_cons.1 hl
    · exact .inl (List.mem_reverse.1 hc)
    · obtain h | h := ih hl
      · simp at h
      · exact .inr ⟨by simp [h.1], h.2⟩
  | case4 line d rest _ h ih =>
    obtain rfl | hl := List.mem_cons.1 hl
    · exact .inl (List.mem_reverse.1 hc)
    · obtain h | h := ih hl
      · simp at h
      · exact .inr ⟨by simp [h.1], h.2⟩
  | case5 line d rest _ h ih =>
    obtain h' | h' := ih hl
    · obtain rfl | h' := List.mem_cons.1 h'
      · exact .inr ⟨by simp, by simpa using h⟩
      · exact .inl h'
    · exact .inr ⟨by simp [h'.1], h'.2⟩

theorem not_isLineEnd_of_mem_splitLines {text l : List Char}
    (hl : l ∈ splitLines text) (hc : c ∈ l) : isLineEnd c = false := by
  obtain h | h := mem_splitLinesFrom hl hc
  · simp at h
  · exact h.2

theorem isBlank_head_stripLeft (h : (stripLeft text).head? = some c) : isBlank c = false := by
  have := List.head?_dropWhile_not isBlank text
  rw [show text.dropWhile isBlank = stripLeft text from rfl, h] at this
  simpa using this

theorem isBlank_getLast_stripRight (h : (stripRight text).getLast? = some c) :
    isBlank c = false := by
  rw [show stripRight text = (text.reverse.dropWhile isBlank).reverse from rfl,
    List.getLast?_reverse] at h
  exact isBlank_head_stripLeft h

/-- Trimming at the end leaves the first character alone, or leaves nothing. -/
theorem head?_stripRight (h : (stripRight text).head? = some c) : text.head? = some c := by
  have hsplit : text = stripRight text ++ (text.reverse.takeWhile isBlank).reverse := by
    rw [show stripRight text = (text.reverse.dropWhile isBlank).reverse from rfl,
      ← List.reverse_append, List.takeWhile_append_dropWhile, List.reverse_reverse]
  rw [hsplit, List.head?_append, h]
  rfl

/-- A text that begins and ends without a blank. -/
def Firm (text : List Char) : Prop :=
  text.head?.any (!isBlank ·) = true ∧ text.getLast?.any (!isBlank ·) = true

theorem stripLeft_of_firm (h : Firm text) (r : List Char) : stripLeft (text ++ r) = text ++ r := by
  obtain ⟨hstart, -⟩ := h
  cases text with
  | nil => simp at hstart
  | cons c text => simp_all [stripLeft, trimLeft]

theorem stripRight_of_firm {text r : List Char} (h : Firm text) (hr : ∀ c ∈ r, isBlank c = true) :
    stripRight (text ++ r) = text := by
  obtain ⟨-, hstop⟩ := h
  cases text using List.reverseRecOn with
  | nil => simp at hstop
  | append_singleton text c =>
    have hc : isBlank c = false := by simpa using hstop
    rw [stripRight, trimRight, List.reverse_append, List.reverse_append,
      List.dropWhile_append_of_pos (by simpa using hr)]
    simp [hc]

/-! ### Joined lines -/

theorem joinWith_eq_intercalate (sep : List Char) :
    ∀ parts, joinWith sep parts = sep.intercalate parts
  | [] => rfl
  | [a] => by simp [joinWith]
  | a :: b :: parts => by
      rw [joinWith, joinWith_eq_intercalate sep (b :: parts)]
      simp [List.intercalate]

theorem splitOn_joinWith {parts : List (List Char)} (h : ∀ l ∈ parts, '\n' ∉ l) (hne : parts ≠ []) :
    (joinWith ['\n'] parts).splitOn '\n' = parts := by
  rw [joinWith_eq_intercalate]
  exact List.splitOn_intercalate '\n' h hne

/-- What holds of a line, and of a line before a text if it holds of the text, holds of all
texts. -/
theorem lines_induction {motive : List Char → Prop} (one : ∀ line, '\n' ∉ line → motive line)
    (more : ∀ line rest, '\n' ∉ line → motive rest → motive (line ++ '\n' :: rest))
    (text : List Char) : motive text := by
  by_cases h : '\n' ∈ text
  · obtain ⟨line, rest, rfl, hline⟩ := List.eq_append_cons_of_mem h
    exact more line rest hline (lines_induction one more rest)
  · exact one text h
termination_by text.length
decreasing_by
  subst_vars
  simp
  omega

/-- A line is a part of its text and holds no line feed. -/
theorem infix_of_mem_splitOn {l : List Char} (hl : l ∈ text.splitOn '\n') :
    l <:+: text ∧ '\n' ∉ l := by
  induction text using lines_induction with
  | one line hline =>
    rw [List.splitOn_eq_singleton hline] at hl
    obtain rfl := List.mem_singleton.1 hl
    exact ⟨List.infix_rfl, hline⟩
  | more line rest hline ih =>
    rw [List.splitOn_append_cons_self, List.splitOn_eq_singleton hline, List.mem_append,
      List.mem_singleton] at hl
    obtain rfl | hl := hl
    · exact ⟨(List.prefix_append _ _).isInfix, hline⟩
    · exact ⟨(ih hl).1.trans ⟨line ++ ['\n'], [], by simp⟩, (ih hl).2⟩

theorem joinWith_append_singleton {parts : List (List Char)} (hne : parts ≠ []) :
    joinWith ['\n'] parts ++ ['\n'] = parts.flatMap (· ++ ['\n']) := by
  induction parts with
  | nil => exact absurd rfl hne
  | cons a parts ih =>
    cases parts with
    | nil => simp [joinWith]
    | cons b parts =>
      rw [joinWith, List.append_assoc, ih (by simp)]
      rfl

theorem joinWith_cons_nil {parts : List (List Char)} (hne : parts ≠ []) :
    joinWith ['\n'] ([] :: parts) = '\n' :: joinWith ['\n'] parts := by
  obtain ⟨a, parts, rfl⟩ := List.exists_cons_of_ne_nil hne
  simp [joinWith]

/-! ### Texts cut and joined again -/

theorem splitLinesFrom_ne_nil {line text : List Char} (h : line.reverse ++ text ≠ []) :
    splitLinesFrom line text ≠ [] := by
  fun_induction splitLinesFrom line text with
  | case1 line hline => simp_all
  | case2 => simp
  | case3 => simp
  | case4 => simp
  | case5 line c rest _ _ ih => exact ih (by simp)

/-- Lines put together again are the text, perhaps without its last line feed. -/
theorem joinWith_splitLinesFrom {line text : List Char}
    (h : ∀ c ∈ text, isLineEnd c = true → c = '\n') :
    joinWith ['\n'] (splitLinesFrom line text) = line.reverse ++ text ∨
      joinWith ['\n'] (splitLinesFrom line text) ++ ['\n'] = line.reverse ++ text := by
  fun_induction splitLinesFrom line text with
  | case1 line hline => simp_all [joinWith]
  | case2 line hline => simp [joinWith]
  | case3 line rest => cases h '\r' (by simp) rfl
  | case4 line c rest _ hc ih =>
    obtain rfl := h c (by simp) hc
    cases rest with
    | nil => exact .inr rfl
    | cons d rest =>
      have hne : splitLinesFrom [] (d :: rest) ≠ [] := splitLinesFrom_ne_nil (by simp)
      obtain ⟨l, ls, hls⟩ := List.exists_cons_of_ne_nil hne
      have hih := ih fun e he => h e (List.mem_cons_of_mem _ he)
      rw [hls] at hih ⊢
      simpa [joinWith] using hih
  | case5 line c rest _ _ ih => simpa using ih fun d hd => h d (List.mem_cons_of_mem _ hd)

/-- A text without line ends is one line. -/
theorem splitLinesFrom_of_oneLine {line text : List Char} (h : ∀ c ∈ text, isLineEnd c = false)
    (hne : line.reverse ++ text ≠ []) : splitLinesFrom line text = [line.reverse ++ text] := by
  fun_induction splitLinesFrom line text with
  | case1 line hline => simp_all
  | case2 => simp
  | case3 => cases h '\r' (by simp)
  | case4 line c rest _ hc => simp [h c] at hc
  | case5 line c rest _ _ ih => simpa using ih (fun d hd => h d (by simp [hd])) (by simp)

/-! ### The last line -/

/-- Behind a line end the text goes on, so its last line is that of the rest. -/
theorem last_suffix_of_rest {w rest l : List Char} {d : Char} (hd : isLineEnd d = true)
    (h : ∀ c ∈ (w ++ d :: rest).getLast?, isLineEnd c = false)
    (ih : (∀ c ∈ rest.getLast?, isLineEnd c = false) →
      (splitLinesFrom [] rest).getLast?.getD [] <:+ rest) :
    (l :: splitLinesFrom [] rest).getLast?.getD [] <:+ w ++ d :: rest := by
  have hne : rest ≠ [] := by
    rintro rfl
    simp [hd] at h
  have hlines : splitLinesFrom [] rest ≠ [] := splitLinesFrom_ne_nil hne
  obtain ⟨l', ls, hls⟩ := List.exists_cons_of_ne_nil hlines
  have hrest : (splitLinesFrom [] rest).getLast?.getD [] <:+ rest := ih fun c hc => h c <| by
    obtain ⟨e, r, rfl⟩ := List.exists_cons_of_ne_nil hne
    simpa using hc
  rw [hls, List.getLast?_cons_cons, ← hls, List.append_cons]
  exact hrest.trans (List.suffix_append _ _)

/-- A text that ends with no line end ends with its last line. -/
theorem last_suffix {line text : List Char} (h : ∀ c ∈ (line.reverse ++ text).getLast?,
    isLineEnd c = false) :
    (splitLinesFrom line text).getLast?.getD [] <:+ line.reverse ++ text := by
  fun_induction splitLinesFrom line text with
  | case1 line hline => exact List.nil_suffix
  | case2 line hline => simp
  | case3 line rest ih =>
    rw [List.append_cons] at h ⊢
    exact last_suffix_of_rest rfl h ih
  | case4 line d rest _ hd ih => exact last_suffix_of_rest hd h ih
  | case5 line d rest _ hd ih =>
    rw [List.reverse_cons, List.append_assoc] at ih
    exact ih h

end TemplateTidy.Text
