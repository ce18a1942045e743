import TemplateTidy.Proofs.Outcome
import TemplateTidy.Proofs.Pattern.Beginnings
import TemplateTidy.Proofs.Text.Lines
import TemplateTidy.Report.Console

/-! # Lines and columns

The lines of a text are the matches of a pattern (`lineSpans_eq_spansOf`).  They lie one behind the
other and leave nothing out, so a place of the text has the line and the column that one counts by
its line feeds (`placeOf_eq`), and a place behind the text has none (`placeOf_eq_error`).  Line and
column tell the place (`exists_line_start`) and keep the order of places
(`lineAt_lt_or_columnAt_lt`), so findings that are sorted by the numbers of their places stand in
the order of the document (`sortFindings_eq`). -/

namespace TemplateTidy

namespace Lint

open Text

/-! ### Lines -/

theorem lineSpansFrom_append {start : Nat} {v : List Char} :
    ∀ {u : List Char} {pos : Nat}, '\n' ∉ u →
    lineSpansFrom start pos (u ++ v) = lineSpansFrom start (pos + u.length) v
  | [], _, _ => rfl
  | c :: u, pos, hu => by
      obtain ⟨hc, hu⟩ := not_or.1 (mt List.mem_cons.2 hu)
      rw [List.cons_append, lineSpansFrom, if_neg (Ne.symm hc), lineSpansFrom_append hu,
        List.length_cons]
      congr 1
      omega

/-- The first line, and the lines behind it. -/
theorem lineSpansFrom_line {start : Nat} {u v : List Char} (hu : '\n' ∉ u) :
    lineSpansFrom start start (u ++ '\n' :: v) = ⟨start, start + u.length + 1⟩ ::
      lineSpansFrom (start + u.length + 1) (start + u.length + 1) v := by
  rw [lineSpansFrom_append hu, lineSpansFrom, if_pos rfl]

/-- A line without line feed. -/
theorem lineSpansFrom_last {start : Nat} {u : List Char} (hu : '\n' ∉ u) :
    lineSpansFrom start start u = if u = [] then [] else [⟨start, start + u.length⟩] := by
  have h : lineSpansFrom start start (u ++ []) = lineSpansFrom start (start + u.length) [] :=
    lineSpansFrom_append hu
  rw [List.append_nil] at h
  rw [h, lineSpansFrom]
  cases u with
  | nil => simp
  | cons c u => simp

/-! ### Lines as matches -/

/-- A line with its line feed, or a last line without one. -/
def linePattern : Pattern :=
  .ofSource {} r"(?:.*\n)|(?:[^\n]+$)"

/-- The line feed. -/
def feed : CharSet :=
  { items := [.range '\n' '\n'] }

/-- All characters but the line feed. -/
def noFeed : CharSet :=
  { items := [.range '\n' '\n'], negated := true }

theorem linePattern_node : linePattern.node =
    .alt (.seq (.rep (.one noFeed) 0 none false) (.one feed))
      (.seq (.rep (.one noFeed) 1 none false) (.anchor .lastLineEnd)) := by
  unfold linePattern
  rw [Pattern.ofSource_eq_ofChars, String.toList_ofList]
  decide +kernel

theorem holds_feed (c : Char) : feed.holds c = (c == '\n') := by
  rw [show feed = .single '\n' .exact from rfl, CharSet.holds_single_exact, Bool.beq_comm]

theorem holds_noFeed (c : Char) : noFeed.holds c = (c != '\n') := by
  simp [CharSet.holds, noFeed, CharItem.holds_range_self, bne, Bool.beq_comm]

theorem runLength_noFeed {u v : List Char} (hu : '\n' ∉ u)
    (hv : v.head? = none ∨ v.head? = some '\n') : Node.runLength noFeed (u ++ v) = u.length := by
  have hall : ∀ c ∈ u, noFeed.holds c = true := by
    intro c hc
    rw [holds_noFeed, bne_iff_ne]
    rintro rfl
    exact hu hc
  have hv : v.takeWhile noFeed.holds = [] := by
    cases v with
    | nil => rfl
    | cons c v =>
      obtain rfl : c = '\n' := by simpa using hv
      simp [holds_noFeed]
  rw [Node.runLength, List.takeWhile_append_of_pos hall, hv, List.append_nil]

variable {text : Array Char} {pos : Nat} {u v : List Char}

/-- A line with a line feed is a match. -/
theorem pointsAt_line (hrest : text.toList.drop pos = u ++ '\n' :: v) (hu : '\n' ∉ u) :
    (linePattern.pointsAt text pos).head? = some ((Point.at pos).move (u.length + 1)) := by
  have hrest : (linePattern.scene text 0).rest (.at pos) = u ++ '\n' :: v := hrest
  have hrun : Node.runLength noFeed ((linePattern.scene text 0).rest (.at pos)) = u.length := by
    rw [hrest]
    exact runLength_noFeed hu (.inr rfl)
  have hline : (Node.seq (.rep (.one noFeed) 0 none false) (.one feed)).First
    (linePattern.scene text 0) (.at pos)
      ((Point.at pos).move (u.length + 1)) := by
    refine .far_seq (Nat.zero_le _) hrun.ge (fun j hj hle => by omega) ?_
    have hbehind : (linePattern.scene text 0).rest ((Point.at pos).move u.length) = '\n' :: v := by
      rw [Scene.rest_move, hrest, List.drop_left]
    rw [Node.First, Node.points_one_of_holds hbehind (by decide), Point.move_move]
    rfl
  rw [Pattern.pointsAt, linePattern_node, Node.points_alt, List.head?_append, hline]
  rfl

/-- A last line is a match unless it is empty. -/
theorem pointsAt_last (hrest : text.toList.drop pos = u) (hu : '\n' ∉ u)
    (hpos : pos + u.length = text.size) :
    (linePattern.pointsAt text pos).head? = if u = [] then none else some
      ((Point.at pos).move u.length) := by
  have hrest : (linePattern.scene text 0).rest (.at pos) = u := hrest
  have hrun : Node.runLength noFeed ((linePattern.scene text 0).rest (.at pos)) = u.length := by
    rw [hrest, ← List.append_nil u]
    simpa using runLength_noFeed hu (.inl rfl : ([] : List Char).head? = none ∨ _)
  have hline : (Node.seq (.rep (.one noFeed) 0 none false) (.one feed)).points
    (linePattern.scene text 0) false
      (.at pos) = [] := by
    refine Node.points_seq_nil_right fun m hm => Node.points_one_of_not fun c hc => ?_
    obtain ⟨i, -, -, rfl⟩ := Node.mem_points_run.1 hm
    rw [Scene.rest_move, hrest] at hc
    rw [holds_feed, beq_eq_false_iff_ne]
    rintro rfl
    exact hu (List.mem_of_mem_drop (List.mem_of_head? hc))
  rw [Pattern.pointsAt, linePattern_node, Node.points_alt, hline, List.nil_append]
  split
  next hnil =>
    rw [Node.points_seq_nil_left, List.head?_nil]
    refine List.eq_nil_iff_forall_not_mem.2 fun q hq => ?_
    obtain ⟨i, hleast, hmost, -⟩ := Node.mem_points_run.1 hq
    rw [hrun, hnil] at hmost
    exact absurd (hleast.trans hmost) (by simp)
  next hne =>
    have hlen : 1 ≤ u.length := List.length_pos_iff.2 hne
    refine Node.First.far_seq hlen hrun.ge (fun j hj hle => by omega) ?_
    rw [Node.First, Node.points_anchor_of_holds]
    · rfl
    · have hend : ((Point.at pos).move u.length).pos = (linePattern.scene text 0).text.size := hpos
      rw [Scene.holdsAt, hend, beq_self_eq_true, Bool.true_or]

/-- The lines from a place on, at which a line begins, are the matches from there on. -/
theorem lineSpansFrom_eq_found (rest : List Char) :
    ∀ {text : Array Char} {pos : Nat}, pos + rest.length = text.size →
    text.toList.drop pos = rest → lineSpansFrom pos pos rest =
    (linePattern.found text pos false).map Match.span := by
  have hfree : linePattern.node.originFree = true := by
    rw [linePattern_node]
    decide
  induction rest using lines_induction with
  | one u hu =>
    intro text pos hpos hrest
    rw [lineSpansFrom_last hu]
    have hhead := pointsAt_last hrest hu hpos
    split at hhead
    next hnil =>
      obtain rfl : pos = text.size := by simpa [hnil] using hpos
      rw [if_pos hnil, Pattern.found_end hfree (by simp [List.head?_eq_none_iff.1 hhead])]
      rfl
    next hne =>
      have hlen : 0 < u.length := List.length_pos_iff.2 hne
      have hend : linePattern.pointsAt text text.size = [] := by
        have hnone : text.toList.drop text.size = [] := by simp
        exact List.head?_eq_none_iff.1 (pointsAt_last hnone List.not_mem_nil (Nat.add_zero _))
      rw [if_neg hne, Pattern.found_of_head? hfree (by omega) hhead]
      have hstop : ((Point.at pos).move u.length).pos = text.size := hpos
      have hstart : (((Point.at pos).move u.length).start == text.size) = false := by
        rw [beq_eq_false_iff_ne, Point.move_start]
        show pos ≠ text.size
        omega
      rw [hstop, hstart, Pattern.found_end hfree (by simp [hend])]
      rfl
  | more u v hu ih =>
    intro text pos hpos hrest
    rw [List.length_append, List.length_cons] at hpos
    have hdrop : text.toList.drop (pos + u.length + 1) = v := by
      rw [Nat.add_assoc, ← List.drop_drop, hrest, show u.length + 1 = (u ++ ['\n']).length by simp,
        show u ++ '\n' :: v = (u ++ ['\n']) ++ v by simp, List.drop_left]
    rw [lineSpansFrom_line hu, Pattern.found_of_head? hfree (by omega) (pointsAt_line hrest hu),
      List.map_cons, ih (by omega) hdrop]
    have hstop : ((Point.at pos).move (u.length + 1)).pos = pos + u.length + 1 := rfl
    have hstart : (((Point.at pos).move (u.length + 1)).start == pos + u.length + 1) = false := by
      rw [beq_eq_false_iff_ne, Point.move_start]
      show pos ≠ pos + u.length + 1
      omega
    rw [hstop, hstart]
    rfl

/-- The lines of a text are the matches of a pattern. -/
theorem lineSpans_eq_spansOf (text : List Char) :
    lineSpans text = Region.spansOf linePattern text.toArray :=
  lineSpansFrom_eq_found text (by simp) rfl

/-! ### Line and column -/

/-- The number of the line of a place: one more than the line feeds before it. -/
def lineAt (text : List Char) (i : Nat) : Nat :=
  (text.take i).count '\n' + 1

/-- The column of a place: the characters between the last line feed before it and the place. -/
def columnAt (text : List Char) (i : Nat) : Nat :=
  ((text.take i).reverse.takeWhile (· != '\n')).length

/-- Line and column as they are written. -/
def placeText (text : List Char) (i : Nat) : String :=
  toString (lineAt text i) ++ ":" ++ toString (columnAt text i)

section

variable {u v : List Char} {i : Nat}

theorem lineAt_first (hu : '\n' ∉ u) (hi : i ≤ u.length) : lineAt (u ++ v) i = 1 := by
  have hnone : '\n' ∉ u.take i := fun h => hu (List.mem_of_mem_take h)
  rw [lineAt, List.take_append_of_le_length hi, List.count_eq_zero.2 hnone]

theorem columnAt_first (hu : '\n' ∉ u) (hi : i ≤ u.length) : columnAt (u ++ v) i = i := by
  have hall : ∀ c ∈ (u.take i).reverse, (c != '\n') = true := by
    intro c hc
    rw [bne_iff_ne]
    rintro rfl
    exact hu (List.mem_of_mem_take (List.mem_reverse.1 hc))
  rw [columnAt, List.take_append_of_le_length hi, List.takeWhile_eq_self_iff.2 hall,
    List.length_reverse, List.length_take, Nat.min_eq_left hi]

theorem take_line (u v : List Char) (i : Nat) :
    (u ++ '\n' :: v).take (u.length + 1 + i) = u ++ '\n' :: v.take i := by
  rw [Nat.add_assoc, List.take_length_add_append, Nat.add_comm 1 i, List.take_succ_cons]

theorem lineAt_behind (hu : '\n' ∉ u) :
    lineAt (u ++ '\n' :: v) (u.length + 1 + i) = lineAt v i + 1 := by
  rw [lineAt, lineAt, take_line, List.count_append, List.count_eq_zero.2 hu, List.count_cons_self,
    Nat.zero_add]

theorem columnAt_behind : columnAt (u ++ '\n' :: v) (u.length + 1 + i) = columnAt v i := by
  rw [columnAt, columnAt, take_line, List.reverse_append, List.reverse_cons, List.append_assoc,
    List.singleton_append, List.takeWhile_append]
  split <;> simp_all

theorem lineAt_pos (text : List Char) (i : Nat) : 0 < lineAt text i :=
  Nat.succ_pos _

end

/-- A place of a text has the line and the column that its line feeds tell; `number` lines and
`start` characters come before the text. -/
theorem placeFrom_eq {text : List Char} : ∀ {i number start : Nat}, i < text.length →
    placeFrom (number + 1) ((start + i : Nat) : Int) (lineSpansFrom start start text) =
      .ok (toString (number + lineAt text i) ++ ":" ++ toString (columnAt text i)) := by
  have hcolumn : ∀ start i : Nat, toString (((start + i : Nat) : Int) - (start : Int)) =
      toString i := by
    intro start i
    rw [show ((start + i : Nat) : Int) - (start : Int) = (i : Int) by omega]
    rfl
  induction text using lines_induction with
  | one u hu =>
    intro i number start hi
    have hne : u ≠ [] := List.ne_nil_of_length_pos (by omega)
    have hline := lineAt_first (v := []) hu hi.le
    have hcol := columnAt_first (v := []) hu hi.le
    rw [List.append_nil] at hline hcol
    rw [lineSpansFrom_last hu, if_neg hne, placeFrom, if_pos (by simp; omega), hcolumn, hline, hcol]
  | more u v hu ih =>
    intro i number start hi
    rw [lineSpansFrom_line hu, placeFrom]
    by_cases hfirst : i ≤ u.length
    · rw [if_pos (by simp; omega), hcolumn, lineAt_first hu hfirst, columnAt_first hu hfirst]
    · obtain ⟨j, rfl⟩ := Nat.exists_eq_add_of_lt (Nat.lt_of_not_le hfirst)
      rw [List.length_append, List.length_cons] at hi
      rw [if_neg (by simp), show start + (u.length + j + 1) = start + u.length + 1 + j by omega,
        ih (by omega), show u.length + j + 1 = u.length + 1 + j by
          omega, lineAt_behind hu, columnAt_behind,
        Nat.add_assoc number 1, Nat.add_comm 1]

theorem placeOf_eq {text : List Char} {i : Nat} (hi : i < text.length) :
    placeOf i (lineSpans text) = .ok (placeText text i) := by
  have h := @placeFrom_eq text i 0 0 hi
  rw [Nat.zero_add, Nat.zero_add, Nat.zero_add] at h
  exact h

theorem placeFrom_eq_error {i : Int} :
    ∀ {lines : List Span} {number : Nat}, (∀ line ∈ lines, (line.stop : Int) ≤ i) →
    placeFrom number i lines = .error .outOfRange
  | [], _, _ => rfl
  | line :: lines, number, h => by
      rw [placeFrom, if_neg (Int.not_lt.2 (h line List.mem_cons_self))]
      exact placeFrom_eq_error fun line' hline' => h line' (List.mem_cons_of_mem line hline')

theorem stop_le_of_mem_lineSpansFrom {line : Span} : ∀ {text : List Char} {start pos : Nat},
    line ∈ lineSpansFrom start pos text → line.stop ≤ pos + text.length
  | [], start, pos, h => by
      rw [lineSpansFrom] at h
      split at h
      · rw [List.mem_singleton.1 h]
        simp
      · cases h
  | c :: text, start, pos, h => by
      rw [lineSpansFrom] at h
      rw [List.length_cons]
      split at h
      · obtain rfl | h := List.mem_cons.1 h
        · simp
        · have := stop_le_of_mem_lineSpansFrom h
          omega
      · have := stop_le_of_mem_lineSpansFrom h
        omega

/-- Behind the text there are no lines. -/
theorem placeOf_eq_error {text : List Char} {i : Nat} (hi : text.length ≤ i) :
    placeOf i (lineSpans text) = .error .outOfRange := by
  refine placeFrom_eq_error fun line hline => ?_
  have := stop_le_of_mem_lineSpansFrom hline
  omega

/-- Line and column tell the place: it is the column behind the start of the line. -/
theorem exists_line_start {text : List Char} : ∀ {i start : Nat}, i < text.length →
    ∃ line, (lineSpansFrom start start text)[lineAt text i - 1]? = some line ∧
      line.start + columnAt text i = start + i := by
  induction text using lines_induction with
  | one u hu =>
    intro i start hi
    have hne : u ≠ [] := List.ne_nil_of_length_pos (by omega)
    have hline := lineAt_first (v := []) hu hi.le
    have hcol := columnAt_first (v := []) hu hi.le
    rw [List.append_nil] at hline hcol
    rw [lineSpansFrom_last hu, if_neg hne, hline, hcol]
    exact ⟨_, rfl, rfl⟩
  | more u v hu ih =>
    intro i start hi
    rw [lineSpansFrom_line hu]
    by_cases hfirst : i ≤ u.length
    · rw [lineAt_first hu hfirst, columnAt_first hu hfirst]
      exact ⟨_, rfl, rfl⟩
    · obtain ⟨j, rfl⟩ := Nat.exists_eq_add_of_lt (Nat.lt_of_not_le hfirst)
      rw [List.length_append, List.length_cons] at hi
      obtain ⟨line, hline, hstart⟩ := @ih j (start + u.length + 1) (by omega)
      have hpos := lineAt_pos v j
      refine ⟨line, ?_, ?_⟩
      · rw [show u.length + j + 1 = u.length + 1 + j by omega, lineAt_behind hu,
          show lineAt v j + 1 - 1 = lineAt v j - 1 + 1 by omega, List.getElem?_cons_succ, hline]
      · rw [show u.length + j + 1 = u.length + 1 + j by omega, columnAt_behind, hstart]
        omega

/-- Line and column keep the order of places. -/
theorem lineAt_lt_or_columnAt_lt {text : List Char} : ∀ {i j : Nat}, i < j → j ≤ text.length →
    lineAt text i < lineAt text j ∨ lineAt text i = lineAt text j ∧
    columnAt text i < columnAt text j := by
  induction text using lines_induction with
  | one u hu =>
    intro i j hij hj
    have hlineAt : ∀ k ≤ u.length, lineAt u k = 1 := by
      intro k hk
      simpa using lineAt_first (v := []) hu hk
    have hcolumnAt : ∀ k ≤ u.length, columnAt u k = k := by
      intro k hk
      simpa using columnAt_first (v := []) hu hk
    rw [hlineAt i (by omega), hlineAt j hj, hcolumnAt i (by omega), hcolumnAt j hj]
    exact .inr ⟨rfl, hij⟩
  | more u v hu ih =>
    intro i j hij hj
    rw [List.length_append, List.length_cons] at hj
    by_cases hfirst : j ≤ u.length
    · rw [lineAt_first hu (by omega), lineAt_first hu hfirst, columnAt_first hu (by omega),
        columnAt_first hu hfirst]
      exact .inr ⟨rfl, hij⟩
    · obtain ⟨j, rfl⟩ := Nat.exists_eq_add_of_lt (Nat.lt_of_not_le hfirst)
      rw [show u.length + j + 1 = u.length + 1 + j by omega, lineAt_behind hu, columnAt_behind]
      by_cases hfirst : i ≤ u.length
      · rw [lineAt_first hu hfirst]
        exact .inl (Nat.succ_lt_succ (lineAt_pos v j))
      · obtain ⟨i, rfl⟩ := Nat.exists_eq_add_of_lt (Nat.lt_of_not_le hfirst)
        rw [show u.length + i + 1 = u.length + 1 + i by omega, lineAt_behind hu, columnAt_behind]
        have h := ih (i := i) (j := j) (by omega) (by omega)
        omega

/-! ### Reading places -/

theorem toNat_of_isDigit {c : Char} (h : c.isDigit = true) : 48 ≤ c.toNat ∧ c.toNat ≤ 57 := by
  rw [Char.isDigit, Bool.and_eq_true, decide_eq_true_eq, decide_eq_true_eq] at h
  exact ⟨UInt32.le_iff_toNat_le.1 h.1, UInt32.le_iff_toNat_le.1 h.2⟩

theorem isSpace_of_isDigit {c : Char} (h : c.isDigit = true) : isSpace c = false := by
  have hc := toNat_of_isDigit h
  simp only [isSpace, Bool.or_eq_false_iff, Bool.and_eq_false_iff, decide_eq_false_iff_not,
    beq_eq_false_iff_ne]
  omega

/-- The digits of a number are read as that number. -/
theorem wholeNumber?_toDigits (n : Nat) : wholeNumber? (Nat.toDigits 10 n) = some (n : Int) := by
  have hdigit : ∀ c ∈ Nat.toDigits 10 n, c.isDigit = true := fun c =>
    Nat.isDigit_of_mem_toDigits (by decide) (by decide)
  have hne : Nat.toDigits 10 n ≠ [] := Nat.toDigits_ne_nil
  have hvalue : (Nat.toDigits 10 n).foldl (fun n c => n * 10 + digitValue c) 0 = n := by
    refine Eq.trans (List.foldl_ext _ _ 0 fun m c hc => ?_) (@Nat.ofDigitChars_ten_toDigits n)
    have := toNat_of_isDigit (hdigit c hc)
    rw [digitValue, if_pos (by omega), Nat.mul_comm]
  generalize Nat.toDigits 10 n = digits at hdigit hne hvalue
  obtain ⟨c, rest, rfl⟩ := List.exists_cons_of_ne_nil hne
  have hspace : ∀ l : List Char, (∀ d ∈ l, d.isDigit = true) → l.dropWhile isSpace = l := by
    intro l hl
    cases l with
    | nil => rfl
    | cons d l => simp [isSpace_of_isDigit (hl d List.mem_cons_self)]
  have htrim : trimBoth isSpace (c :: rest) = c :: rest := by
    rw [trimBoth, trimLeft, trimRight, hspace _ hdigit, hspace _ fun d hd =>
      hdigit d (List.mem_reverse.1 hd), List.reverse_reverse]
  have hsign : c ≠ '-' ∧ c ≠ '+' ∧ '_' ∉ c :: rest := by
    refine ⟨?_, ?_, fun h => absurd (hdigit _ h) (by decide)⟩
    all_goals
      rintro rfl
      exact absurd (hdigit _ List.mem_cons_self) (by decide)
  have hall : ((c :: rest).all isDigit) = true := by
    rw [List.all_eq_true]
    intro d hd
    have := toNat_of_isDigit (hdigit d hd)
    rw [isDigit, if_pos (by omega), hdigit d hd]
  have hparts : (c :: rest).splitOn '_' = [c :: rest] := List.splitOn_eq_singleton hsign.2.2
  unfold wholeNumber?
  rw [htrim]
  dsimp only
  split
  next h => exact absurd (List.cons.inj h).1 hsign.1
  next h => exact absurd (List.cons.inj h).1 hsign.2.1
  next =>
    rw [hparts, if_pos (by simpa using hall), List.flatten_singleton, hvalue]
    rfl

/-- The key of a place has its line and its column. -/
theorem placeKey_eq {text : List Char} {i : Nat} {f : Finding} (h : f.place = placeText text i) :
    Report.placeKey f = .ok [(lineAt text i : Int), (columnAt text i : Int)] := by
  have hcolon : ∀ n : Nat, ':' ∉ Nat.toDigits 10 n := fun n hmem =>
    absurd (Nat.isDigit_of_mem_toDigits (by decide) (by decide) hmem) (by decide)
  have hsplit : f.place.toList.splitOn ':' = [Nat.toDigits 10 (lineAt text i),
      Nat.toDigits 10 (columnAt text i)] := by
    have hjoin : f.place.toList =
        [':'].intercalate [Nat.toDigits 10 (lineAt text i), Nat.toDigits 10 (columnAt text i)] := by
      simp [h, placeText, List.intercalate, Nat.repr]
    rw [hjoin, List.splitOn_intercalate ':' (by simp [hcolon]) (by simp)]
  have hread : ∀ n : Nat, (Value.text (String.ofList (Nat.toDigits 10 n))).toInt =
      .ok (n : Int) := by
    intro n
    rw [Value.toInt, String.toList_ofList, wholeNumber?_toDigits]
  rw [Report.placeKey, hsplit]
  exact Outcome.mapM_cons_of_ok (hread _) (Outcome.mapM_cons_of_ok (hread _) rfl)

/-! ### Findings -/

theorem lt_length_of_placeOf {text : List Char} {i : Nat} {place : String}
    (h : placeOf i (lineSpans text) = .ok place) : i < text.length ∧ place = placeText text i := by
  obtain hi | hi := Nat.lt_or_ge i text.length
  · rw [placeOf_eq hi] at h
    exact ⟨hi, (Except.ok.inj h).symm⟩
  · rw [placeOf_eq_error hi] at h
    cases h

/-- The numbers of places are compared as the places are. -/
theorem keyLE_eq {text : List Char} {i j : Nat} (hi : i < text.length) (hj : j < text.length) :
    Report.keyLE [(lineAt text i : Int), (columnAt text i : Int)]
      [(lineAt text j : Int), (columnAt text j : Int)] = decide (i ≤ j) := by
  simp only [Report.keyLE, Bool.and_true]
  rw [Bool.eq_iff_iff]
  simp only [Bool.or_eq_true, Bool.and_eq_true, decide_eq_true_eq, beq_iff_eq]
  obtain h | rfl | h := Nat.lt_trichotomy i j
  · have := lineAt_lt_or_columnAt_lt h hj.le
    omega
  · omega
  · have := lineAt_lt_or_columnAt_lt h hi.le
    omega

/-- Findings are listed in the order of the document; those of one place stay as they are. -/
theorem sortFindings_eq {text : List Char} {spots : List (Nat × Finding)}
    (h : ∀ x ∈ spots, placeOf x.1 (lineSpans text) = .ok x.2.place) :
    Report.sortFindings (spots.map (·.2)) =
    .ok ((spots.mergeSort fun a b => a.1 ≤ b.1).map (·.2)) := by
  let key (x : Nat × Finding) : List Int × Finding :=
    ([(lineAt text x.1 : Int), (columnAt text x.1 : Int)], x.2)
  have hkeyed : (spots.mapM fun x =>
      (do return (← Report.placeKey x.2, x.2) : Outcome (List Int × Finding))) =
      .ok (spots.map key) := by
    refine Outcome.mapM_eq_map fun x hx => ?_
    rw [placeKey_eq (lt_length_of_placeOf (h x hx)).2]
    rfl
  have hsort : (spots.mergeSort fun a b => a.1 ≤ b.1).map key =
      (spots.map key).mergeSort fun a b => Report.keyLE a.1 b.1 := by
    refine List.map_mergeSort fun a ha b hb => ?_
    exact (keyLE_eq (lt_length_of_placeOf (h a ha)).1 (lt_length_of_placeOf (h b hb)).1).symm
  unfold Report.sortFindings
  rw [List.mapM_map, Function.comp_def, hkeyed, Outcome.ok_bind, ← hsort, List.map_map]
  rfl

/-- The finding of a rule at a span of a text. -/
def findingAt (rule : Rule) (text : List Char) (s : Span) : Finding :=
  { code := rule.name, place := placeText text s.start, excerpt := excerptOf (s.of text.toArray),
    message := rule.message }

/-- The findings at spans that begin in the text. -/
theorem findings_eq {text : List Char} {path : String} {rule : Rule} {spans : List Span}
    (h : ∀ s ∈ spans, s.start < text.length) : (Document.ofText text path).findings rule spans =
      .ok ((spans.filter ((Document.ofText text path).counts rule.name)).map
        (findingAt rule text)) := by
  refine Outcome.mapM_eq_map fun s hs => ?_
  have hplace : placeOf s.start (Document.ofText text path).lines = .ok (placeText text s.start) :=
    placeOf_eq (h s (List.mem_filter.1 hs).1)
  rw [Document.finding, hplace]
  rfl

/-- Places of a text.  Its lines are the matches of the line pattern; a place before the end has the
line and the column that its line feeds tell, a place behind it has none; the place is the column
behind the start of the line; line and column keep the order of places; and sorted findings stand in
the order of the document. -/
theorem placeOf_lineSpans (text : List Char) :
    lineSpans text = Region.spansOf linePattern text.toArray ∧
    (∀ i < text.length, placeOf i (lineSpans text) =
      .ok (toString (lineAt text i) ++ ":" ++ toString (columnAt text i))) ∧
    (∀ i ≥ text.length, placeOf i (lineSpans text) = .error .outOfRange) ∧
    (∀ i < text.length, ∃ line, (lineSpans text)[lineAt text i - 1]? = some line ∧
      line.start + columnAt text i = i) ∧
    (∀ i j, i < j → j < text.length → lineAt text i < lineAt text j ∨
      lineAt text i = lineAt text j ∧ columnAt text i < columnAt text j) ∧
    ∀ spots : List (Nat × Finding), (∀ x ∈ spots, placeOf x.1 (lineSpans text) = .ok x.2.place) →
      Report.sortFindings (spots.map (·.2)) =
      .ok ((spots.mergeSort fun a b => a.1 ≤ b.1).map (·.2)) := by
  refine ⟨lineSpans_eq_spansOf text, fun i => placeOf_eq, fun i => placeOf_eq_error, fun i hi => ?_,
    fun i j hij hj => lineAt_lt_or_columnAt_lt hij hj.le, fun spots => sortFindings_eq⟩
  have h := @exists_line_start text i 0 hi
  rwa [Nat.zero_add] at h

/-- Four places of a text with an empty line, and two findings in it. -/
theorem placeOf_lineSpans_emptyLine :
    let text := ['a', '\n', '\n', 'b']
    let found (place : String) : Finding :=
      { code := .text "H025", place, excerpt := "", message := .null }
    placeOf 3 (lineSpans text) = .ok "3:0" ∧ placeOf 4 (lineSpans text) = .error .outOfRange ∧
      (∃ line, (lineSpans text)[2]? = some line ∧ line.start + 0 = 3) ∧
      (lineAt text 2 < lineAt text 3 ∨ lineAt text 2 = lineAt text 3 ∧
        columnAt text 2 < columnAt text 3) ∧
      Report.sortFindings [found "3:0", found "1:1"] = .ok [found "1:1", found "3:0"] := by
  intro text found
  obtain ⟨-, hplace, hnone, hstart, hlt, hsort⟩ := placeOf_lineSpans text
  have h₃ : placeOf (3 : Nat) (lineSpans text) = .ok "3:0" :=
    (hplace 3 (by decide)).trans (congrArg Except.ok
      (show placeText text 3 = "3:0" by decide +kernel))
  have h₁ : placeOf (1 : Nat) (lineSpans text) = .ok "1:1" :=
    (hplace 1 (by decide)).trans (congrArg Except.ok
      (show placeText text 1 = "1:1" by decide +kernel))
  refine ⟨h₃, hnone 4 (by decide), hstart 3 (by decide), hlt 2 3 (by decide) (by decide), ?_⟩
  have h := hsort [(3, found "3:0"), (1, found "1:1")] (by
    simp only [List.forall_mem_cons]
    exact ⟨h₃, h₁, List.forall_mem_nil _⟩)
  rw [show [(3, found "3:0"), (1, found "1:1")].mergeSort (fun a b => decide (a.1 ≤ b.1)) =
    [(1, found "1:1"), (3, found "3:0")] by simp [List.mergeSort]] at h
  exact h

end Lint

end TemplateTidy
