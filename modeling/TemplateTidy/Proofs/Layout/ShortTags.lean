import TemplateTidy.Proofs.Layout.Content

/-! # Short documents

The indentation spreads attributes only where they are long.  What it looks at lies on one line
(`length_le_of_handed`), and until then a document gets a bounded number of blanks for each of its
characters, line feeds aside (`pads_le_of_trimmedText`, `pads_spaceTags_le`).  So nothing is spread
in a short document (`shortAttributes_of_weight`). -/

namespace TemplateTidy

open Text

/-! ### Blanks that a replacement brings in -/

/-- The characters of a kind, and `k` for each character that is not blank. -/
def Text.weight (p : Char → Bool) (k : Nat) (text : List Char) : Nat :=
  text.countP p + k * (squeeze text).length

theorem Text.weight_append (p : Char → Bool) (k : Nat) (a b : List Char) :
    weight p k (a ++ b) = weight p k a + weight p k b := by
  simp only [weight, List.countP_append, squeeze_append, List.length_append, Nat.mul_add]
  omega

/-- Where each match gets at most the weight that it has, so does the text. -/
theorem splice_weight {text : Array Char} {p : Char → Bool} {k : Nat} :
    ∀ {pos : Nat} {images : List (Match × List Char)}, Ordered text pos (images.map Prod.fst) →
      (∀ x ∈ images, x.2.countP p ≤ weight p k (x.1.text text)) →
      (splice text pos images).countP p ≤ weight p k (text.toList.drop pos)
  | pos, [], ho, _ => by
      rw [splice_nil]
      exact Nat.le_add_right _ _
  | pos, (m, image) :: images, ho, hf => by
      obtain ⟨h1, h2, h3⟩ := ho
      rw [splice_cons, drop_eq_parts h1 h2, List.countP_append, List.countP_append, weight_append,
        weight_append]
      exact Nat.add_le_add (Nat.le_add_right _ _) (Nat.add_le_add (hf (m, image) (by simp))
        (splice_weight h3 fun x hx => hf x (by simp [hx])))

namespace Pattern

theorem replaceAll_weight {P : Pattern} {f : Match → List Char} {text : List Char}
    {p : Char → Bool} {k : Nat}
    (hf : ∀ m ∈ P.findAll text.toArray, (f m).countP p ≤ weight p k (m.text text.toArray)) :
    (P.replaceAll f text.toArray).countP p ≤ weight p k text :=
  splice_weight (P.ordered_images (f := f)) (by simpa using hf)

/-- A match that needs a character that is not blank has the weight of that character. -/
theorem le_weight_of_needs {flags : Flags} {e : Items} (hk : e.keepless = true) {a : Char}
    (hneeds : ((Choice.last e).pattern flags).node.needs a = true) (ha : isCaseless a = true)
    (hb : isBlank a = false) (p : Char → Bool) (k : Nat) {text : Array Char} {m : Match}
    (hm : m ∈ ((Choice.last e).pattern flags).findAll text) :
    (m.text text).countP p + k ≤ weight p k (m.text text) := by
  obtain ⟨ws, htext, hlang, -⟩ :=
    parts_held (p := (Choice.last e).pattern flags) rfl (keepless_written hk)
      (Choice.nodup_indices flags (.last e)) hm
  have hmem : a ∈ m.text text :=
    htext ▸ Node.Lang.mem_of_needs hneeds (Node.lang_ofList.2 ⟨ws, rfl, hlang⟩)
  have hpos := List.length_pos_of_mem ((mem_squeeze_iff ha hb).2 hmem)
  exact Nat.add_le_add_left (Nat.le_mul_of_pos_right k hpos) _

end Pattern

/-! ### Blanks between lines -/

theorem Text.countP_joinWith_cons (p : Char → Bool) (part : List Char) (parts : List (List Char)) :
    (joinWith [' '] (part :: parts)).countP p ≤
      part.countP p + 1 + (joinWith [' '] parts).countP p := by
  cases parts with
  | nil => simp [joinWith]
  | cons part' parts =>
    have hspace : [' '].countP p ≤ 1 := List.countP_le_length
    rw [joinWith, List.countP_append, List.countP_append]
    omega

theorem Text.countP_joinWith_le (p : Char → Bool) : ∀ parts : List (List Char),
    (joinWith [' '] parts).countP p ≤ parts.flatten.countP p + parts.length
  | [] => Nat.zero_le _
  | part :: parts => by
      have hcons := countP_joinWith_cons p part parts
      have hrest := countP_joinWith_le p parts
      rw [List.flatten_cons, List.countP_append, List.length_cons]
      omega

theorem Text.stripRight_sublist (text : List Char) : (stripRight text).Sublist text :=
  List.reverse_sublist.1 (by simpa [stripRight, trimRight] using List.dropWhile_sublist _)

theorem Text.strip_sublist (text : List Char) : (strip text).Sublist text :=
  (stripRight_sublist _).trans (List.dropWhile_sublist _)

/-- Lines that are stripped and joined have no more blanks than before. -/
theorem Text.blanks_splitLinesFrom (line text : List Char) :
    (joinWith [' '] ((splitLinesFrom line text).map strip)).countP isBlank ≤
      line.countP isBlank + text.countP isBlank := by
  have hstrip : ∀ w : List Char, (strip w.reverse).countP isBlank ≤ w.countP isBlank := fun w =>
    (strip_sublist _).countP_le.trans (List.countP_reverse ..).le
  fun_induction splitLinesFrom line text with
  | case1 line h => simp [joinWith]
  | case2 line h => simpa [joinWith] using hstrip line
  | case3 line rest ih =>
    have hcons := countP_joinWith_cons isBlank (strip line.reverse)
      ((splitLinesFrom [] rest).map strip)
    have := hstrip line
    have hends : ('\r' :: '\n' :: rest).countP isBlank = rest.countP isBlank + 2 := by
      rw [List.countP_cons_of_pos (by decide), List.countP_cons_of_pos (by decide)]
    rw [List.map_cons, hends]
    rw [List.countP_nil] at ih
    omega
  | case4 line c rest _ h ih =>
    have hcons := countP_joinWith_cons isBlank (strip line.reverse)
      ((splitLinesFrom [] rest).map strip)
    have := hstrip line
    rw [List.map_cons, List.countP_cons_of_pos (isBlank_of_isLineEnd h)]
    rw [List.countP_nil] at ih
    omega
  | case5 line c rest _ h ih =>
    rw [List.countP_cons] at ih ⊢
    omega

namespace Layout

open Pattern

variable {s : Settings} {html blocks kept : List (List Char)} {text result : List Char}

/-! ### Tags on one line -/

theorem blanks_tagName_le (keepCase : Bool) (name : List Char) :
    (tagName keepCase name).countP isBlank ≤ name.countP isBlank := by
  simp only [tagName]
  split_ifs with hkeep hknown hdoctype
  · exact le_rfl
  · have hmem := tagNames_plain (n := String.ofList (lower name)) (by simpa using hknown)
    rw [String.toList_ofList] at hmem
    rw [List.countP_eq_zero.2 fun c hc => by simp [(hmem c hc).2.1]]
    exact Nat.zero_le _
  · exact Nat.zero_le _
  · exact le_rfl

theorem blanks_flatAttributes_le (written : List Char) :
    (flatAttributes written).countP isBlank ≤ written.countP isBlank + 1 := by
  unfold flatAttributes
  split
  · exact Nat.zero_le _
  · have hlines := blanks_splitLinesFrom [] (strip written)
    have hstrip := (strip_sublist written).countP_le (p := isBlank)
    rw [List.countP_nil, Nat.zero_add] at hlines
    exact (List.countP_cons_of_pos (by decide)).le.trans
      (Nat.add_le_add_right (hlines.trans hstrip) 1)

theorem blanks_closingBracket_le (name bracket : List Char) :
    (closingBracket false name bracket).countP isBlank ≤ bracket.countP isBlank + 1 := by
  unfold closingBracket
  simp only [Bool.false_and, Bool.false_eq_true, if_false]
  split
  · exact (List.countP_cons_of_pos (by decide)).le
  · exact Nat.le_succ _

/-- A tag on one line gets a blank before its attributes and one before its bracket. -/
theorem blanks_flattenTags_le (hvoid : s.closeVoidTags.truthy = false) (text : List Char) :
    (flattenTags s text).countP isBlank ≤ weight isBlank 2 text := by
  refine replaceAll_weight fun m hm => ?_
  rw [tagPattern_eq] at hm
  have hroom := le_weight_of_needs (a := '<') (by decide) (by decide) (by decide)
    (by decide) isBlank 2 hm
  split
  · exact (Nat.le_add_right _ _).trans hroom
  · have hparts : ([1, 2, 3, 4].flatMap (m.capture text.toArray)).Sublist (m.text text.toArray) :=
      captures_written (by decide) hm
    have hparts := hparts.countP_le (p := isBlank)
    have hname := blanks_tagName_le (!s.ignoreCase.isBool false) (m.capture text.toArray 2)
    have hattributes := blanks_flatAttributes_le (m.capture text.toArray 3)
    have hbracket := blanks_closingBracket_le
      (tagName (!s.ignoreCase.isBool false) (m.capture text.toArray 2))
      (m.capture text.toArray 4)
    simp only [List.flatMap_cons, List.flatMap_nil, List.append_nil, List.countP_append] at hparts
    simp only [flatTag, hvoid, List.countP_append]
    omega

/-! ### Blanks within lines -/

/-- A blank within a line. -/
def isPad (c : Char) : Bool := isBlank c && c != '\n'

theorem pads_of_fed {a b : List Char} (h : Fed a b) : b.countP isPad = a.countP isPad := by
  induction h with
  | nil => rfl
  | keep x _ ih => rw [List.countP_cons, List.countP_cons, ih]
  | feed _ ih => rw [List.countP_cons_of_neg (by decide), ih]

theorem pads_breakLines (h : Adds s html blocks kept) (hr : breakLines s text = .ok result) :
    result.countP isPad = text.countP isPad := by
  obtain ⟨_, _, _, d, hd, hspreads⟩ := exists_spread_breakLines h text
  obtain rfl : d = result := Except.ok.inj (hd.symm.trans hr)
  obtain ⟨ha, hb, hc, hd⟩ := hspreads
  exact pads_of_fed (((ha.fed.trans hb.fed).trans hc.fed).trans hd.fed)

/-- A replacement that brings none in. -/
theorem pads_replaceAll_le {P : Pattern} {f : Match → List Char}
    (hf : ∀ m ∈ P.findAll text.toArray, (f m).countP isPad ≤ (m.text text.toArray).countP isPad) :
    (P.replaceAll f text.toArray).countP isPad ≤ text.countP isPad :=
  (replaceAll_weight (k := 0) fun m hm => (hf m hm).trans (Nat.le_add_right _ _)).trans
    (by simp [weight])

theorem pads_trimEnds_le (text : List Char) :
    (trimEnds s text).countP isPad ≤ text.countP isPad := by
  unfold trimEnds
  refine List.foldlRecOn (motive := fun now : List Char => now.countP isPad ≤ text.countP isPad)
    _ _ le_rfl fun now hnow step hstep => (pads_replaceAll_le fun m hm => ?_).trans hnow
  simp only [trimmed]
  split_ifs
  · exact le_rfl
  · exact (stripRight_sublist _).countP_le
  · exact (of_trimStep hstep hm).1.countP_le

theorem pads_append_feed (text : List Char) :
    (text ++ ['\n']).countP isPad = text.countP isPad := by
  rw [List.countP_append, show ['\n'].countP isPad = 0 by decide, Nat.add_zero]

theorem pads_trimLines_le (hr : trimLines s text = .ok result) :
    result.countP isPad ≤ text.countP isPad := by
  obtain ⟨a, ha, hr⟩ := Outcome.exists_of_bind hr
  obtain ⟨b, hb, hr⟩ := Outcome.exists_of_bind hr
  have hafter : a.countP isPad ≤ text.countP isPad := by
    refine Outcome.passes_keep (P := fun now => now.countP isPad ≤ text.countP isPad)
      (fun now p hnow => (pads_replaceAll_le fun m hm => ?_).trans hnow) (pads_trimEnds_le text) ha
    dsimp only
    split
    · exact le_rfl
    · exact (pads_append_feed _).le
  have hbefore : b.countP isPad ≤ text.countP isPad := by
    refine Outcome.passes_keep (P := fun now => now.countP isPad ≤ text.countP isPad)
      (fun now p hnow => (pads_replaceAll_le fun m hm => ?_).trans hnow) hafter hb
    dsimp only
    split
    · exact le_rfl
    · exact (List.countP_cons_of_neg (by decide)).le
  rw [← Except.ok.inj hr]
  split
  · refine (pads_replaceAll_le fun m hm => ?_).trans hbefore
    dsimp only
    split
    · exact (pads_append_feed _).le
    · exact le_rfl
  · exact hbefore

/-- Before the indentation, a document has at most two of them for each character more than it had
blanks. -/
theorem pads_le_of_trimmedText (h : Adds s html blocks kept)
    (hvoid : s.closeVoidTags.truthy = false) (hr : trimmedText s text = .ok result) :
    result.countP isPad ≤ weight isBlank 2 (naturalLines text) := by
  obtain ⟨b, hb, hc⟩ := Outcome.exists_of_bind (trimmedText_eq.symm.trans hr)
  calc result.countP isPad ≤ b.countP isPad := pads_trimLines_le hc
    _ = (flattenTags s (naturalLines text)).countP isPad := pads_breakLines h hb
    _ ≤ (flattenTags s (naturalLines text)).countP isBlank :=
      List.countP_mono_left fun c _ hc => (Bool.and_eq_true_iff.1 hc).1
    _ ≤ weight isBlank 2 (naturalLines text) := blanks_flattenTags_le hvoid _

/-! ### Spaces in template tags -/

section spacing

variable {p : Pattern} {flags : Flags} {e : Items} {n : Nat}
  (hp : p = (Choice.last e).pattern flags) (hk : e.keepless = true)
  (hheld : (e.nodes flags 0).filterMap Node.held? = (List.range n).map (· + 1))
include hp hk hheld

theorem squeeze_spaceGroups
    (hns : ((e.nodes flags 0).all fun n => n.isBlanks || n.held?.isSome) = true)
    (ignored : List Span) (text : List Char) :
    squeeze (spaceGroups ignored n p text) = squeeze text := by
  refine (replaceAll_view squeeze_append fun m hm => ?_).trans (by simp)
  subst hp
  split
  · rfl
  · rw [squeeze_joinWith isBlank_space, squeeze_parts, ← solid_flatten, ← squeeze_eq_solid,
      squeeze_written hk hns hm, hheld, List.flatMap_map, List.flatMap_def]

theorem pads_spaceGroups_le (hneeds : p.node.needs '\x7b' = true) (hn : n ≤ 3) (ignored : List Span)
    (text : List Char) : (spaceGroups ignored n p text).countP isPad ≤ weight isPad 3 text := by
  refine replaceAll_weight fun m hm => ?_
  subst hp
  have hroom := le_weight_of_needs (a := '\x7b') hk hneeds (by decide) (by decide) isPad 3 hm
  split
  · exact (Nat.le_add_right _ _).trans hroom
  · have hparts := (captures_written hk hm).countP_le (p := isPad)
    have hjoin := countP_joinWith_le isPad ((List.range n).map fun i =>
      m.capture text.toArray (i + 1))
    rw [hheld, List.flatMap_map, List.flatMap_def] at hparts
    rw [List.length_map, List.length_range] at hjoin
    omega

end spacing

theorem squeeze_spaceTags (text : List Char) : squeeze (spaceTags s text) = squeeze text := by
  simp only [spaceTags]
  split_ifs
  · exact squeeze_spaceGroups hashTag_eq (by decide) rfl (by decide) _ _
  · rfl
  · exact (squeeze_spaceGroups braceTag_eq (by decide) rfl (by decide) _ _).trans
      (squeeze_spaceGroups percentTag_eq (by decide) rfl (by decide) _ _)

theorem pads_spaceTags_le (text : List Char) :
    (spaceTags s text).countP isPad ≤ weight isPad 6 text := by
  have hle : weight isPad 3 text ≤ weight isPad 6 text :=
    Nat.add_le_add_left (Nat.mul_le_mul_right _ (by decide)) _
  simp only [spaceTags]
  split_ifs
  · exact (pads_spaceGroups_le hashTag_eq (by decide) rfl needs_hashTag (by decide) _ _).trans hle
  · exact Nat.le_add_right _ _
  · have hfirst := pads_spaceGroups_le percentTag_eq (by decide) rfl needs_percentTag le_rfl
      (Region.ignoredSpans text.toArray) text
    refine (pads_spaceGroups_le braceTag_eq (by decide) rfl needs_braceTag le_rfl _ _).trans ?_
    rw [weight, squeeze_spaceGroups percentTag_eq (by decide) rfl (by decide)]
    unfold weight at hfirst ⊢
    omega

/-! ### Lines -/

/-- A line of a text is no longer than the blanks within lines and the other characters. -/
theorem length_le_of_mem_splitOn {l : List Char} (hl : l ∈ text.splitOn '\n') :
    l.length ≤ weight isPad 1 text := by
  obtain ⟨⟨a, b, rfl⟩, hfeed⟩ := infix_of_mem_splitOn hl
  have hblank : l.countP isBlank ≤ l.countP isPad := List.countP_mono_left fun c hc hblank => by
    rw [isPad, hblank, Bool.true_and, bne_iff_ne]
    rintro rfl
    exact hfeed hc
  have hsolid : (solid l).length ≤ (squeeze l).length := by
    have hone : ∀ c : Char, 1 ≤ (lower [c]).length := fun c => by
      rw [lower_singleton]
      split <;> simp
    have hsum := List.length_le_sum_of_one_le ((solid l).map fun c => (lower [c]).length)
      (by simpa using fun c _ => hone c)
    rwa [squeeze_eq_solid, List.length_flatMap, ← List.length_map]
  have hparts : l.length = l.countP isBlank + (solid l).length := by
    rw [solid, ← List.countP_eq_length_filter, List.length_eq_countP_add_countP isBlank]
    simp only [Bool.not_eq_true, Bool.decide_eq_false]
  rw [weight_append, weight_append]
  unfold weight
  omega

/-! ### Attributes -/

theorem capture_infix (m : Match) (chars : Array Char) (i : Nat) :
    m.capture chars i <:+: chars.toList := by
  rw [Match.capture, Match.capture?]
  cases m.group? i with
  | none => exact List.nil_infix
  | some held =>
    rw [Option.map_some, Option.getD_some, Span.of, Array.toList_extract]
    exact (List.take_prefix _ _).isInfix.trans (List.drop_suffix _ _).isInfix

/-- Blanks before a text do not count in its stripped parts. -/
theorem length_strip_le {line : List Char} :
    ∀ (lead : List Char) {w : List Char}, (∀ c ∈ lead, isBlank c = true) →
    w <:+: lead ++ line → (strip w).length ≤ line.length
  | [], w, _, hw => (strip_sublist w).length_le.trans hw.length_le
  | c :: lead, w, hlead, hw => by
      have hrest : ∀ {v}, v <:+: lead ++ line → (strip v).length ≤ line.length :=
        length_strip_le lead fun d hd => hlead d (List.mem_cons_of_mem _ hd)
      obtain hw | hw := List.infix_cons_iff.1 hw
      · obtain rfl | ⟨v, rfl, hv⟩ := List.prefix_cons_iff.1 hw
        · exact Nat.zero_le _
        · have hstrip : strip (c :: v) = strip v := by
            simp [strip, trimBoth, trimLeft, hlead c List.mem_cons_self]
          exact hstrip ▸ hrest hv.isInfix
      · exact hrest hw

variable {ps : LinePatterns}

theorem length_attributeTexts_le {level : Option Nat} {line w : List Char}
    (hw : w ∈ attributeTexts ps (placed s level line ++ ['\n'])) : w.length ≤ line.length + 1 := by
  unfold attributeTexts at hw
  split at hw
  next tag htag =>
    obtain ⟨m, -, rfl⟩ := List.mem_map.1 hw
    have hpart := capture_infix m (placed s level line ++ ['\n']).toArray 3
    cases level with
    | none => exact (length_strip_le [] (by simp) hpart).trans (by simp [placed])
    | some n =>
      have hindents : ∀ c ∈ indents s n, isBlank c = true := fun c hc => by
        obtain ⟨-, rfl⟩ : (n ≠ 0 ∧ s.indentWidth ≠ 0) ∧ c = ' ' := by
          simpa [indents, Settings.indent] using hc
        decide
      simp only [placed, List.append_assoc] at hpart ⊢
      exact (length_strip_le _ hindents hpart).trans (by simp)
  next => cases hw

/-- What is handed over lies on a line. -/
theorem length_le_of_handed {k : Nat} : ∀ {lines : List (List Char)} {now : Indentation},
    (∀ l ∈ lines, l.length ≤ k) → ∀ w ∈ handed s ps now lines, w.length ≤ k + 1
  | [], now, _, w, hw => by cases hw
  | line :: lines, now, hlines, w, hw => by
      rw [handed] at hw
      obtain hw | hw := List.mem_append.1 hw
      · simp only [handedOn] at hw
        generalize moveOf s ps _ _ _ _ _ = outcome at hw
        cases outcome with
        | error e => cases hw
        | ok move =>
          have hle := length_attributeTexts_le (List.mem_ite_nil_left.1 hw).2
          exact hle.trans (Nat.add_le_add_right (hlines line List.mem_cons_self) 1)
      · split at hw
        · exact length_le_of_handed (fun l hl => hlines l (List.mem_cons_of_mem _ hl)) w hw
        · cases hw

/-- No attributes are spread in a document that is short. -/
theorem shortAttributes_of_weight (h : Adds s html blocks kept)
    (hvoid : s.closeVoidTags.truthy = false)
    (hlength : ((weight isBlank 9 (naturalLines text) + 1 : Nat) : Int) < s.maxAttributeLength) :
    ShortAttributes s text := by
  intro trimmed htrimmed w hw
  have hsqueeze := (squeeze_trimmedText h hvoid htrimmed).trans (squeeze_naturalLines text).symm
  have hpads := pads_le_of_trimmedText h hvoid htrimmed
  have hspaces := @pads_spaceTags_le s trimmed
  have hline : ∀ l ∈ (spaceTags s trimmed).splitOn '\n',
      l.length ≤ weight isBlank 9 (naturalLines text) := by
    intro l hl
    refine (length_le_of_mem_splitOn hl).trans ?_
    rw [weight, squeeze_spaceTags, hsqueeze]
    unfold weight at hpads hspaces ⊢
    rw [hsqueeze] at hspaces
    omega
  have hle := length_le_of_handed hline w hw
  omega

end Layout

end TemplateTidy
