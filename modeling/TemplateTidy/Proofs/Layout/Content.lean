import TemplateTidy.Proofs.Layout.Insertion
import TemplateTidy.Proofs.Layout.LineEnds

/-! # Formatting keeps the content of a document

In a document without template tags the formatter moves blanks and changes the case of names, and
nothing else: whenever it answers, the result has the same `squeeze` as the document
(`squeeze_of_format`).  Each stage puts matches together again from their groups, and the groups
hold all of a match but blanks. -/

namespace TemplateTidy.Layout

open Text Pattern

variable {s : Settings} {text result : List Char}

theorem squeeze_append_blank (text : List Char) {c : Char} (h : isBlank c = true) :
    squeeze (text ++ [c]) = squeeze text := by
  have hnil : squeeze [c] = [] := squeeze_eq_nil (by simpa using h)
  rw [squeeze_append, hnil, List.append_nil]

theorem isBlank_lineFeed : ∀ c ∈ ['\n'], isBlank c = true := by
  simp [isBlank, isSpace]

theorem isBlank_space : ∀ c ∈ [' '], isBlank c = true := by
  simp [isBlank, isSpace]

/-- The view of the lines of a text is that of the text. -/
theorem squeeze_splitOn (text : List Char) :
    ((text.splitOn '\n').map squeeze).flatten = squeeze text := by
  rw [← squeeze_joinWith isBlank_lineFeed, joinWith_eq_intercalate, List.intercalate_splitOn]

/-! ### Tags -/

theorem squeeze_naturalLines (text : List Char) : squeeze (naturalLines text) = squeeze text := by
  rw [naturalLines, squeeze_joinWith isBlank_lineFeed, squeeze_splitLines]

/-- Small letters and digits stand for themselves in the view. -/
theorem plain_of_small {c : Char} (h : (c.isLower || c.isDigit) = true) :
    c.toNat < 128 ∧ isBlank c = false ∧ lower [c] = [c] := by
  have hrange := h
  simp only [Char.isLower, Char.isDigit, ge_iff_le, Bool.or_eq_true, Bool.and_eq_true,
    decide_eq_true_eq,
    UInt32.le_iff_toNat_le, show 'a'.val.toNat = 97 from rfl, show 'z'.val.toNat = 122 from rfl,
    show '0'.val.toNat = 48 from rfl, show '9'.val.toNat = 57 from rfl] at hrange
  rw [show c.val.toNat = c.toNat from rfl] at hrange
  have hlt : c.toNat < 128 := by omega
  refine ⟨hlt, ?_, ?_⟩
  · simp only [isBlank, isSpace, Bool.or_eq_false_iff, Bool.and_eq_false_iff,
      decide_eq_false_iff_not, beq_eq_false_iff_ne]
    omega
  · have hdotted : c ≠ 'İ' := by
      rintro rfl
      simp at hlt
    rw [lower_singleton, if_neg hdotted, lowerChar, if_pos hlt, toLower_eq_self (by omega)]

theorem tagNames_plain {n : String} (hn : n ∈ Markup.tagNames) :
    ∀ c ∈ n.toList, c.toNat < 128 ∧ isBlank c = false ∧ lower [c] = [c] :=
  fun c hc => plain_of_small (List.all_eq_true.1 (List.all_eq_true.1 knownNames_check.2 n hn) c hc)

theorem squeeze_tagName (keepCase : Bool) (name : List Char) :
    squeeze (tagName keepCase name) = squeeze name := by
  have hself : ∀ {low : List Char}, (∀ c ∈ low, isBlank c = false ∧ lower [c] = [c]) →
      squeeze low = low := by
    intro low h
    induction low with
    | nil => rfl
    | cons c low ih =>
      obtain ⟨hb, hl⟩ := h c (by simp)
      rw [squeeze_cons, ih fun d hd => h d (by simp [hd])]
      simp [squeeze, hb, hl]
  simp only [tagName]
  split_ifs with hkeep hknown hdoctype
  · rfl
  · have hmem := tagNames_plain (n := String.ofList (lower name)) (by simpa using hknown)
    rw [String.toList_ofList] at hmem
    rw [hself fun c hc => (hmem c hc).2]
    exact (squeeze_eq_lowerAfter fun d hd => ⟨(hmem d hd).1, (hmem d hd).2.1⟩).symm
  · have hlow : lowerAfter none name = "doctype".toList := hdoctype
    have hplain : ∀ d ∈ "doctype".toList, d.toNat < 128 ∧ isBlank d = false := by
      simp [isBlank, isSpace]
    have hname : squeeze name = lowerAfter none name := squeeze_eq_lowerAfter (by rwa [hlow])
    rw [hname, hlow]
    rfl
  · rfl

theorem squeeze_flatAttributes (written : List Char) :
    squeeze (flatAttributes written) = squeeze written := by
  unfold flatAttributes
  split
  · simp_all
  · rw [squeeze_cons_of_isBlank (by decide), squeeze_joinWith isBlank_space, List.map_map]
    rw [show squeeze ∘ strip = squeeze from funext squeeze_strip, squeeze_splitLines, squeeze_strip]

theorem squeeze_closingBracket (name bracket : List Char) :
    squeeze (closingBracket false name bracket) = squeeze bracket := by
  unfold closingBracket
  simp only [Bool.false_and, Bool.false_eq_true, if_false]
  split
  · exact squeeze_cons_of_isBlank (by decide) _
  · rfl

theorem squeeze_flatTag (hvoid : s.closeVoidTags.truthy = false) {chars : Array Char} {m : Match}
    (hm : m ∈ tagPattern.findAll chars) : squeeze (flatTag s chars m) = squeeze (m.text chars) := by
  rw [tagPattern_eq] at hm
  rw [squeeze_written (by decide) (by decide) hm]
  show _ = squeeze ([1, 2, 3, 4].flatMap (m.capture chars))
  simp [flatTag, hvoid, squeeze_append, squeeze_tagName, squeeze_flatAttributes,
    squeeze_closingBracket]

theorem squeeze_flattenTags (hvoid : s.closeVoidTags.truthy = false) (text : List Char) :
    squeeze (flattenTags s text) = squeeze text := by
  refine (replaceAll_view squeeze_append fun m hm => ?_).trans (by simp)
  split
  · rfl
  · exact squeeze_flatTag hvoid hm

/-! ### Breaks -/

variable {html blocks kept : List (List Char)}

theorem brace_not_mem (h : '\x7b' ∉ text) (hr : squeeze result = squeeze text) :
    '\x7b' ∉ result := by
  rw [← mem_squeeze_iff (by decide) (by decide)] at h ⊢
  rwa [hr]

theorem needs_blockTag (k : Nat) :
    ((blockTag blocks kept).node looseLines k).needs '\x7b' = true := by
  show (Node.ofList _).needs _ = true
  rw [Node.needs_ofList]
  rfl

theorem breakBlocksOn_eq (h : Adds s html blocks kept) (side : Side) (hfree : '\x7b' ∉ text) :
    breakBlocksOn s side text = .ok text := by
  have hnone : ∀ {tag : Pattern}, tag.node.needs '\x7b' = true → ∀ f : Match → Outcome (List Char),
      tag.replaceAllM f text.toArray = .ok text := by
    intro tag htag f
    rw [replaceAllM_of_findAll_eq_nil (findAll_eq_nil_of_needs htag (by simpa using hfree)),
      List.toList_toArray]
  have hneeds : ∀ {n : Node} {ns : List Node}, n ∈ ns → n.needs '\x7b' = true →
      (Node.ofList ns).needs '\x7b' = true := by
    intro n ns hn hneed
    rw [Node.needs_ofList]
    exact List.any_eq_true.2 ⟨n, hn, hneed⟩
  cases side with
  | before =>
    simp only [breakBlocksOn, compile_blockBefore h]
    exact hnone (hneeds (List.mem_cons_of_mem _ (List.mem_cons_of_mem _ List.mem_cons_self))
      (needs_blockTag _)) _
  | after =>
    simp only [breakBlocksOn, compile_blockAfter h]
    exact hnone (hneeds List.mem_cons_self (needs_blockTag _)) _

/-- Without braces, lines are broken beside elements only. -/
theorem breakLines_of_passes (h : Adds s html blocks kept) {a b : List Char}
    (ha : breakElementsOn s .before text = .ok a) (hb : breakElementsOn s .after a = .ok b)
    (hfree : '\x7b' ∉ b) : breakLines s text = .ok b := by
  rw [breakLines, ha, Outcome.ok_bind, hb, Outcome.ok_bind, breakBlocksOn_eq h .before hfree,
    Outcome.ok_bind, breakBlocksOn_eq h .after hfree]

theorem squeeze_of_fed {a b : List Char} (h : Fed a b) : squeeze b = squeeze a := by
  induction h with
  | nil => rfl
  | @keep c a b _ ih => rw [squeeze_cons c a, squeeze_cons c b, ih]
  | feed _ ih => rw [squeeze_cons_of_isBlank (by decide), ih]

theorem squeeze_breakLines (h : Adds s html blocks kept) (hr : breakLines s text = .ok result) :
    squeeze result = squeeze text := by
  obtain ⟨_, _, _, d, hd, hspreads⟩ := exists_spread_breakLines h text
  obtain rfl : d = result := Except.ok.inj (hd.symm.trans hr)
  obtain ⟨ha, hb, hc, hd⟩ := hspreads
  exact squeeze_of_fed (((ha.fed.trans hb.fed).trans hc.fed).trans hd.fed)

/-! ### Trimming -/

section steps

variable {step : Pattern} {chars : Array Char} {m : Match}

theorem of_lineStep (hm : m ∈ step.findAll chars) {e : Items}
    (he : step = (Choice.last e).pattern lines) (hk : e.keepless = true)
    (hns : ((e.nodes lines 0).all fun n => n.isBlanks || n.held?.isSome) = true)
    (hheld : (e.nodes lines 0).filterMap Node.held? = [1]) :
    (m.capture chars 1).Sublist (m.text chars) ∧
    squeeze (m.capture chars 1) = squeeze (m.text chars) := by
  subst he
  have hsublist := captures_written hk hm
  rw [squeeze_written hk hns hm]
  rw [hheld] at hsublist ⊢
  simpa using hsublist

/-- A step that trims drops blanks of its match. -/
theorem of_trimStep {keepBlankLines keepLeading : Bool}
    (hstep : step ∈ trimSteps keepBlankLines keepLeading) (hm : m ∈ step.findAll chars) :
    (m.capture chars 1).Sublist (m.text chars) ∧
    squeeze (m.capture chars 1) = squeeze (m.text chars) := by
  cases keepBlankLines <;> cases keepLeading <;>
    simp only [trimSteps, List.mem_cons, List.not_mem_nil, or_false] at hstep
  case false.false =>
    exact of_lineStep hm (hstep.trans lineAndBlanks_eq) (by decide) (by decide) rfl
  case true.false => exact of_lineStep hm (hstep.trans lineOnly_eq) (by decide) (by decide) rfl
  case false.true =>
    obtain hstep | hstep := hstep
    · exact of_lineStep hm (hstep.trans (tagLine_eq true)) (by decide) (by decide) rfl
    · exact of_lineStep hm (hstep.trans lineEnd_eq) (by decide) (by decide) rfl
  case true.true =>
    obtain hstep | hstep := hstep
    · exact of_lineStep hm (hstep.trans (tagLine_eq false)) (by decide) (by decide) rfl
    · exact of_lineStep hm (hstep.trans lineEndOnly_eq) (by decide) (by decide) rfl

end steps

theorem squeeze_trimEnds (text : List Char) : squeeze (trimEnds s text) = squeeze text := by
  unfold trimEnds
  refine List.foldlRecOn (motive := fun now => squeeze now = squeeze text)
    _ _ rfl fun now hnow step hstep => ?_
  refine Eq.trans (replaceAll_view squeeze_append fun m hm => ?_) (by simpa using hnow)
  simp only [trimmed]
  split_ifs
  · rfl
  · exact squeeze_stripRight _
  · exact (of_trimStep hstep hm).2

theorem squeeze_blankLinesAfter (hr : blankLinesAfter s text = .ok result) :
    squeeze result = squeeze text := by
  refine Outcome.passes_keep (P := fun now => squeeze now = squeeze text)
    (fun now p hnow => ?_) rfl hr
  refine Eq.trans (replaceAll_view squeeze_append fun m hm => ?_) (by simpa using hnow)
  dsimp only
  split
  · rfl
  · exact squeeze_append_blank _ (by decide)

theorem squeeze_blankLinesBefore (hr : blankLinesBefore s text = .ok result) :
    squeeze result = squeeze text := by
  refine Outcome.passes_keep (P := fun now => squeeze now = squeeze text)
    (fun now p hnow => ?_) rfl hr
  refine Eq.trans (replaceAll_view squeeze_append fun m hm => ?_) (by simpa using hnow)
  dsimp only
  split
  · rfl
  · exact squeeze_cons_of_isBlank (by decide) _

theorem squeeze_blankLineAfterFrontMatter (text : List Char) :
    squeeze (blankLineAfterFrontMatter text) = squeeze text := by
  refine (replaceAll_view squeeze_append fun m hm => ?_).trans (by simp)
  dsimp only
  split
  · exact squeeze_append_blank _ (by decide)
  · rfl

theorem squeeze_trimLines (hr : trimLines s text = .ok result) : squeeze result = squeeze text := by
  obtain ⟨a, ha, hr⟩ := Outcome.exists_of_bind hr
  obtain ⟨b, hb, hr⟩ := Outcome.exists_of_bind hr
  have hsqueeze : squeeze b = squeeze text :=
    (squeeze_blankLinesBefore hb).trans ((squeeze_blankLinesAfter ha).trans (squeeze_trimEnds text))
  rw [← Except.ok.inj hr]
  split
  · rw [squeeze_blankLineAfterFrontMatter, hsqueeze]
  · exact hsqueeze

/-! ### Indentation -/

/-- A replacement for a pattern that the text cannot hold leaves the text alone. -/
theorem replaceAll_eq_of_needs {p : Pattern} {c : Char} (hp : p.node.needs c = true) (h : c ∉ text)
    (f : Match → List Char) : p.replaceAll f text.toArray = text := by
  refine (replaceAll_eq_self fun m hm => ?_).trans (by simp)
  rw [findAll_eq_nil_of_needs hp (by simpa using h)] at hm
  cases hm

theorem needs_percentTag : percentTag.node.needs '\x7b' = true := by
  rw [percentTag_eq]
  decide

theorem needs_braceTag : braceTag.node.needs '\x7b' = true := by
  rw [braceTag_eq]
  decide

theorem needs_hashTag : hashTag.node.needs '\x7b' = true := by
  rw [hashTag_eq]
  decide

theorem needs_assignment : assignment.node.needs '\x7b' = true := by
  rw [assignment_eq]
  decide

theorem needs_call : call.node.needs '\x7b' = true := by
  rw [call_eq]
  decide

theorem spaceGroups_eq {p : Pattern} (hp : p.node.needs '\x7b' = true) (h : '\x7b' ∉ text)
    (ignored : List Span) (n : Nat) : spaceGroups ignored n p text = text :=
  replaceAll_eq_of_needs hp h _

theorem spaceTags_eq (h : '\x7b' ∉ text) : spaceTags s text = text := by
  simp only [spaceTags]
  split_ifs
  · exact spaceGroups_eq needs_hashTag h _ _
  · rfl
  · rw [spaceGroups_eq needs_percentTag h, spaceGroups_eq needs_braceTag h]

theorem dataless_of_not_mem (h : '\x7b' ∉ text) : Dataless text :=
  ⟨findAll_eq_nil_of_needs needs_assignment (by simpa using h), findAll_eq_nil_of_needs needs_call
    (by simpa using h)⟩

theorem squeeze_placed (level : Option Nat) (line : List Char) :
    squeeze (placed s level line ++ ['\n']) = squeeze line := by
  rw [squeeze_append_blank _ (by decide)]
  cases level with
  | none => rfl
  | some n =>
    have hindent : squeeze (indents s n) = [] := by
      refine squeeze_eq_nil fun c hc => ?_
      obtain ⟨part, hpart, hc⟩ := List.mem_flatten.1 hc
      rw [List.eq_of_mem_replicate hpart] at hc
      rw [List.eq_of_mem_replicate hc]
      decide
    rw [placed, squeeze_append, hindent, List.nil_append]

/-- A tag whose attributes are short stays as it is. -/
theorem spreadAttributes_eq (line : Array Char) {chars : Array Char} {m : Match}
    (h : ((strip (m.capture chars 3)).length : Int) < s.maxAttributeLength) :
    spreadAttributes s line chars m = .ok (m.text chars) := by
  simp only [spreadAttributes, h, decide_true, Bool.or_true, if_true]
  rfl

/-- If its attributes are short, a line is written in its place and nothing else happens to it. -/
theorem exists_placed_of_indentLine {ps : LinePatterns} {now next : Indentation}
    {line written : List Char}
    (hshort : ∀ w ∈ handedOn s ps now line, (w.length : Int) < s.maxAttributeLength)
    (hr : indentLine s ps now line = .ok (written, next)) :
    ∃ level, written = placed s level line ++ ['\n'] := by
  obtain ⟨level, hwritten | ⟨tag, htag, hr, hhanded⟩⟩ := indentLine_cases hr
  · exact ⟨level, hwritten⟩
  · have hkeep : ∀ m ∈ tag.findAll (placed s level line ++ ['\n']).toArray,
        spreadAttributes s line.toArray (placed s level line ++ ['\n']).toArray m =
          .ok (m.text (placed s level line ++ ['\n']).toArray) := by
      intro m hm
      refine spreadAttributes_eq _ (hshort _ ?_)
      rw [hhanded, attributeTexts, htag]
      exact List.mem_map_of_mem hm
    rw [replaceAllM_ok hkeep, replaceAll_eq_self fun m _ => rfl] at hr
    exact ⟨level, by rw [← Except.ok.inj hr, List.toList_toArray]⟩

theorem squeeze_indentLine {ps : LinePatterns} {now next : Indentation} {line written : List Char}
    (hshort : ∀ w ∈ handedOn s ps now line, (w.length : Int) < s.maxAttributeLength)
    (hr : indentLine s ps now line = .ok (written, next)) : squeeze written = squeeze line := by
  obtain ⟨level, rfl⟩ := exists_placed_of_indentLine hshort hr
  exact squeeze_placed level line

/-- Along the lines, the view of what is written grows by the view of each line. -/
theorem squeeze_indentFrom {ps : LinePatterns} : ∀ {lines : List (List Char)} {now : Indentation}
    {result : List Char}, (∀ w ∈ handed s ps now lines, (w.length : Int) < s.maxAttributeLength) →
    indentFrom s ps now lines = .ok result → squeeze result = (lines.map squeeze).flatten
  | [], now, result, _, hr => by
      rw [← Except.ok.inj hr]
      rfl
  | line :: lines, now, result, hshort, hr => by
      obtain ⟨⟨written, next⟩, hw, hr⟩ := Outcome.exists_of_bind hr
      obtain ⟨later, hlater, hr⟩ := Outcome.exists_of_bind hr
      rw [handed, hw] at hshort
      rw [← Except.ok.inj hr, squeeze_append,
        squeeze_indentLine (fun w h => hshort w (List.mem_append_left _ h)) hw,
        squeeze_indentFrom (fun w h => hshort w (List.mem_append_right _ h)) hlater]
      rfl

theorem squeeze_indentDocument (hfree : '\x7b' ∉ text)
    (hshort : ∀ w ∈ handed s (.of s) {} (text.splitOn '\n'),
      (w.length : Int) < s.maxAttributeLength)
    (hr : indentDocument s text = .ok result) : squeeze result = squeeze text := by
  obtain ⟨a, ha, hr⟩ := exists_of_indentDocument hr
  rw [spaceTags_eq hfree] at ha
  have hsqueeze : squeeze a = squeeze text :=
    (squeeze_indentFrom hshort ha).trans (squeeze_splitOn text)
  rw [hr (dataless_of_not_mem (brace_not_mem hfree hsqueeze)), endsRight,
    squeeze_append_blank _ (by decide), squeeze_stripRight]
  split
  · exact hsqueeze
  · rw [squeeze_stripLeft, hsqueeze]

/-! ### Joining -/

theorem IsShort.squeeze_eq {p : Pattern} {first last : List Node}
    {before body after : Node} {a b : CharSet} (hp : IsShort p first before body after last a b)
    {chars : Array Char} {m : Match} (hm : m ∈ p.findAll chars) :
    squeeze (m.capture chars 1 ++ m.capture chars 3 ++ m.capture chars 4) =
    squeeze (m.text chars) := by
  have hheld : [Node.group 1 (.ofList first), before, .group 3 body, after,
      .group 4 (.ofList last)].filterMap Node.held? = [1, 3, 4] := by
    simp [Node.held?_of_isBlanks hp.blank.1, Node.held?_of_isBlanks hp.blank.2]
  rw [squeeze_text hp.node hp.keepless hp.distinct (by simp [hp.blank]) hm, hheld]
  simp

theorem squeeze_joinShort (hr : joinShort s text = .ok result) : squeeze result = squeeze text := by
  unfold joinShort at hr
  split at hr
  · rw [Except.ok.inj hr]
  · have hstep : ∀ {p : Pattern} {ignored now next}, (∀ m ∈ p.findAll now.toArray,
        squeeze (m.capture now.toArray 1 ++ m.capture now.toArray 3 ++ m.capture now.toArray 4) =
          squeeze (m.text now.toArray)) →
        p.replaceAllM (joined s ignored now.toArray) now.toArray = .ok next →
        squeeze next = squeeze now := by
      intro p ignored now next hparts hnext
      obtain ⟨images, hfst, himages, rfl⟩ := images_of_replaceAllM_ok hnext
      refine (splice_view squeeze_append (by rw [hfst]; exact p.findAll_ordered _)
        fun x hx => ?_).trans (by simp)
      obtain himage | himage := joined_cases (himages x hx)
      · rw [himage]
      · rw [himage]
        exact hparts x.1 (by rw [← hfst]; exact List.mem_map_of_mem hx)
    simp only [List.foldlM_cons, List.foldlM_nil] at hr
    obtain ⟨mid, hmid, hr⟩ := Outcome.exists_of_bind hr
    obtain ⟨out, hout, hr⟩ := Outcome.exists_of_bind hr
    obtain ⟨_, _, _, _, _, _, _, helement⟩ := isShort_element
    obtain ⟨_, _, _, _, _, _, _, hblock⟩ := isShort_block
    rw [← Except.ok.inj hr]
    exact (hstep (fun m hm => hblock.squeeze_eq hm) hout).trans
      (hstep (fun m hm => helement.squeeze_eq hm) hmid)

/-! ### Formatting -/

theorem squeeze_withReturns (text : List Char) : squeeze (withReturns text) = squeeze text := by
  rw [withReturns]
  induction text with
  | nil => rfl
  | cons c text ih =>
    by_cases hr : c = '\r'
    · subst hr
      rw [List.filter_cons_of_neg (by decide), ih, squeeze_cons_of_isBlank (by decide)]
    · rw [List.filter_cons_of_pos (by simpa using hr), List.flatMap_cons, squeeze_append, ih,
        squeeze_cons c text]
      congr 1
      split
      next hn => rw [hn, squeeze_cons_of_isBlank (by decide)]
      next => rfl

/-- No tag that the indentation hands over has attributes long enough to be spread. -/
def ShortAttributes (s : Settings) (text : List Char) : Prop :=
  ∀ trimmed, trimmedText s text = .ok trimmed →
    ∀ w ∈ handed s (.of s) {} ((spaceTags s trimmed).splitOn '\n'),
    (w.length : Int) < s.maxAttributeLength

/-- Before the indentation, a document without template tags has its content. -/
theorem squeeze_trimmedText (h : Adds s html blocks kept) (hvoid : s.closeVoidTags.truthy = false)
    {trimmed : List Char} (hr : trimmedText s text = .ok trimmed) :
    squeeze trimmed = squeeze text := by
  obtain ⟨b, hb, hc⟩ := Outcome.exists_of_bind (trimmedText_eq.symm.trans hr)
  have hsa := (squeeze_flattenTags hvoid (naturalLines text)).trans (squeeze_naturalLines text)
  exact (squeeze_trimLines hc).trans ((squeeze_breakLines h hb).trans hsa)

section plain

variable (h : Adds s html blocks kept) (hvoid : s.closeVoidTags.truthy = false)
  (hfree : '\x7b' ∉ text)
  (hshort : ShortAttributes s text)

include h hvoid hfree hshort

/-- A document without template tags is indented without a look at the settings of evaluations. -/
theorem dataless_of_trimmedText {trimmed a : List Char} (hr : trimmedText s text = .ok trimmed)
    (ha : indentLines s (spaceTags s trimmed) = .ok a) : Dataless a := by
  have hsqueeze := squeeze_trimmedText h hvoid hr
  have hhanded := hshort trimmed hr
  rw [spaceTags_eq (brace_not_mem hfree hsqueeze)] at ha hhanded
  exact dataless_of_not_mem
    (brace_not_mem hfree ((squeeze_indentFrom hhanded ha).trans
      ((squeeze_splitOn trimmed).trans hsqueeze)))

/-- The stages on line feeds keep the content of a document without template tags. -/
theorem squeeze_stages
    (hr : trimmedText s text >>= (fun trimmed => indentDocument s trimmed >>= joinShort s) =
      .ok result) :
    squeeze result = squeeze text := by
  obtain ⟨c, hc, hr⟩ := Outcome.exists_of_bind hr
  obtain ⟨d, hd, he⟩ := Outcome.exists_of_bind hr
  have hsc := squeeze_trimmedText h hvoid hc
  have hfreec := brace_not_mem hfree hsc
  have hhanded := hshort c hc
  rw [spaceTags_eq hfreec] at hhanded
  exact (squeeze_joinShort he).trans ((squeeze_indentDocument hfreec hhanded hd).trans hsc)

/-- Formatting a document without template tags keeps its content: but for blanks and letter case,
the result is the document. -/
theorem squeeze_of_format (hcss : s.formatCss.truthy = false)
    (hjs : s.formatJs.truthy = false) {s' : Settings}
    (hr : (format text).run.run s = (.ok result, s')) : squeeze result = squeeze text := by
  by_cases hne : text = []
  · subst hne
    obtain ⟨hr, -⟩ := Prod.mk.inj hr
    rw [← Except.ok.inj hr]
  · rw [format, run_format_eq hne hcss hjs fun trimmed htrimmed =>
      still_indent fun a ha => dataless_of_trimmedText h hvoid hfree hshort htrimmed ha] at hr
    obtain ⟨hr, -⟩ := Prod.mk.inj hr
    change Except.map _ (trimmedText s text >>= fun trimmed => indentDocument s trimmed >>=
      joinShort s) = _ at hr
    cases hstages : trimmedText s text >>= fun trimmed => indentDocument s trimmed >>=
        joinShort s with
    | error e =>
      rw [hstages] at hr
      cases hr
    | ok out =>
      rw [hstages] at hr
      have hout := squeeze_stages h hvoid hfree hshort hstages
      rw [← Except.ok.inj hr]
      split
      · rw [squeeze_withReturns, hout]
      · exact hout

end plain

end TemplateTidy.Layout
