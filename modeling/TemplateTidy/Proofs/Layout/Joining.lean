import TemplateTidy.Proofs.Layout.Canonical
import TemplateTidy.Proofs.Layout.Joints
import TemplateTidy.Proofs.Text.Thinning

/-! # What joining changes

`joinShort` writes joints without their blanks and copies everything else, first for elements and
then for template blocks (`rejoined_joinShort`).  So it only leaves out blanks, and only beside the
tags of a joint (`joinShort_leaves_out_blanks`).  It measures a joint from the last line of its
opening tag on, and so a line that it makes is longer than the limit at most by what stands on the
line beside the joint (`lines_of_joinShort`). -/

namespace TemplateTidy.Layout

open Text Pattern

/-- The second text is the first with some joints of a kind written without their blanks. -/
inductive Rejoined (K : Joint → Prop) : (text result : List Char) → Prop
  | nil : Rejoined K [] []
  | copy {text result : List Char} (c : Char) (h : Rejoined K text result) :
      Rejoined K (c :: text) (c :: result)
  | join {text result : List Char} (j : Joint) (hj : K j) (h : Rejoined K text result) :
      Rejoined K (j.source ++ text) (j.line ++ result)

namespace Joint

/-- The joint is short enough to be joined. -/
def Fits (s : Settings) (j : Joint) : Prop :=
  (joinedLength s j.opening j.body j.closing : Int) < s.maxLineLength

/-- The line that a joint ends, without what stands before it and behind it. -/
def lastLine (j : Joint) : List Char :=
  (splitLines j.opening).getLast?.getD [] ++ (j.body ++ j.closing)

end Joint

namespace Rejoined

variable {K K' : Joint → Prop} {text result : List Char}

theorem copies (w : List Char) (h : Rejoined K text result) :
    Rejoined K (w ++ text) (w ++ result) := by
  induction w with
  | nil => exact h
  | cons c w ih => exact .copy c ih

theorem refl (text : List Char) : Rejoined K text text := by
  simpa using copies text (.nil (K := K))

theorem mono (hK : ∀ j, K j → K' j) (h : Rejoined K text result) : Rejoined K' text result := by
  induction h with
  | nil => exact .nil
  | copy c _ ih => exact .copy c ih
  | join j hj _ ih => exact .join j (hK j hj) ih

/-- Replacing matches by themselves or by joints. -/
theorem of_splice {chars : Array Char} : ∀ {pos : Nat} {images : List (Match × List Char)},
    Ordered chars pos (images.map Prod.fst) →
      (∀ x ∈ images, x.2 = x.1.text chars ∨ ∃ j : Joint, K j ∧ x.1.text chars = j.source ∧
        x.2 = j.line) →
      Rejoined K (chars.toList.drop pos) (splice chars pos images)
  | pos, [], _, _ => by
      rw [splice_nil]
      exact refl _
  | pos, (m, image) :: images, ho, himages => by
      obtain ⟨h₁, h₂, hrest⟩ := ho
      have ih := of_splice hrest fun x hx => himages x (List.mem_cons_of_mem _ hx)
      rw [splice_cons, drop_eq_parts h₁ h₂]
      refine copies _ ?_
      obtain himage | ⟨j, hj, hsource, himage⟩ := himages (m, image) List.mem_cons_self
      · obtain rfl : image = m.text chars := himage
        exact copies _ ih
      · obtain rfl : image = j.line := himage
        rw [show m.text chars = j.source from hsource]
        exact .join j hj ih

/-- One pass over the text. -/
theorem of_pass {P : Pattern} {s : Settings} {ignored : List Span} {now next : List Char}
    (hP : ∀ m ∈ P.findAll now.toArray, ∃ j : Joint, K j ∧ j.At now.toArray m)
    (h : P.replaceAllM (joined s ignored now.toArray) now.toArray = .ok next) :
    Rejoined (fun j => K j ∧ j.Fits s) now next := by
  obtain ⟨images, hfst, himages, rfl⟩ := images_of_replaceAllM_ok h
  have ho : Ordered now.toArray 0 (images.map Prod.fst) := by
    rw [hfst]
    exact P.findAll_ordered _
  have hresult := of_splice (K := fun j => K j ∧ j.Fits s) ho fun x hx => by
    obtain himage | ⟨himage, -, hlength, -⟩ := joined_inversion (himages x hx)
    · exact .inl himage
    · obtain ⟨j, hj, hat⟩ := hP x.1 (hfst ▸ List.mem_map_of_mem hx)
      rw [hat.opening, hat.body, hat.closing] at himage hlength
      exact .inr ⟨j, ⟨hj, hlength⟩, hat.text, by rw [himage, Joint.line, List.append_assoc]⟩
  simpa using hresult

/-! ### Blanks -/

section blanks

-- the texts that the opening tags end with and that the closing tags begin with
variable {e b : List Char} (hb : b ≠ [])
include hb

/-- A joint loses the blanks behind its opening tag and before its closing tag. -/
theorem thinned_joint {j : Joint} (hopening : e <:+ j.opening) (hclosing : b <+: j.closing)
    (before : List Char) : Thinned (e <:+ ·) (b <+: ·) before j.source j.line := by
  have hahead : ∀ {v : List Char} (w : List Char), b <+: v → b <+: v ++ w := fun w hv =>
    hv.trans (List.prefix_append _ w)
  have hbehind : e <:+ before ++ j.opening := hopening.trans (List.suffix_append before _)
  have hne : j.closing ≠ [] := hclosing.ne_nil hb
  refine .append hahead (.refl before j.opening) ?_
  by_cases hbody : j.body = []
  · -- without a text the blanks on both sides of it are one gap
    rw [hbody, List.nil_append, List.nil_append, ← List.append_assoc]
    refine .cut (fun d hd => ?_) hne (.inr hclosing)
    exact (List.mem_append.1 hd).elim (j.lead_blank d) (j.tail_blank d)
  · rw [← List.append_assoc]
    exact .append hahead (.cut j.lead_blank hbody (.inl hbehind))
      (.cut j.tail_blank hne (.inr hclosing))

/-- Joints lose blanks beside their tags only. -/
theorem thinned (hK : ∀ j, K j → e <:+ j.opening ∧ b <+: j.closing) (h : Rejoined K text result)
    (before : List Char) : Thinned (e <:+ ·) (b <+: ·) before text result := by
  have hahead : ∀ {v : List Char} (w : List Char), b <+: v → b <+: v ++ w := fun w hv =>
    hv.trans (List.prefix_append _ w)
  induction h generalizing before with
  | nil => exact .nil before
  | copy c _ ih => exact .append hahead (.refl before [c]) (ih _)
  | join j hj _ ih =>
    obtain ⟨hopening, hclosing⟩ := hK j hj
    exact .append hahead (thinned_joint hb hopening hclosing before) (ih _)

end blanks

end Rejoined

variable {s : Settings} {text result : List Char}

/-- Joining is two passes: elements, then template blocks. -/
theorem rejoined_joinShort (h : joinShort s text = .ok result) :
    ∃ mid, Rejoined (fun j => j.IsElement ∧ j.Fits s) text mid ∧
      Rejoined (fun j => j.IsBlock ∧ j.Fits s) mid result := by
  unfold joinShort at h
  obtain ⟨-, h⟩ | ⟨-, h⟩ := Outcome.branch_of_ite h
  · rw [← Except.ok.inj h]
    exact ⟨text, .refl text, .refl text⟩
  · simp only [List.foldlM_cons, List.foldlM_nil] at h
    obtain ⟨mid, hmid, h⟩ := Outcome.exists_of_bind h
    obtain ⟨out, hout, h⟩ := Outcome.exists_of_bind h
    rw [← Except.ok.inj h]
    exact ⟨mid, .of_pass (fun m hm => exists_isElement hm) hmid,
      .of_pass (fun m hm => exists_isBlock hm) hout⟩

/-- Joining only leaves out blanks.  Elements and then template blocks are written without the
blanks between their tags and their text, and every character left out of the document stands in a
run of blanks behind the end of an opening tag or before the start of a closing tag. -/
theorem joinShort_leaves_out_blanks (h : joinShort s text = .ok result) :
    (∃ mid, Rejoined Joint.IsElement text mid ∧ Rejoined Joint.IsBlock mid result) ∧
      Thinned (fun before => ['>'] <:+ before ∨ ['%', '\x7d'] <:+ before)
        (fun rest => ['<', '/'] <+: rest ∨ ['\x7b', '%'] <+: rest) [] text result := by
  obtain ⟨mid, helements, hblocks⟩ := rejoined_joinShort h
  have helements := helements.mono fun _ => And.left
  have hblocks := hblocks.mono fun _ => And.left
  refine ⟨⟨mid, helements, hblocks⟩, ?_⟩
  exact .trans (by decide) (by decide) (by decide) (by decide)
    (helements.thinned (by simp) (fun _ => Joint.IsElement.tags) [])
    (hblocks.thinned (by simp) (fun _ => Joint.IsBlock.tags) []) rfl id

/-- The paragraph of the notice loses its line feed and its indent, the headline is too long. -/
theorem joinShort_leaves_out_blanks_notice :
    joinShort (.standard 2 13)
        "<body>\n  <h1>\n    News\n  </h1>\n  - all\n  <p>\n  </p>\n</body>\n".toList =
        .ok "<body>\n  <h1>\n    News\n  </h1>\n  - all\n  <p></p>\n</body>\n".toList ∧
      Thinned (fun before => ['>'] <:+ before ∨ ['%', '\x7d'] <:+ before)
        (fun rest => ['<', '/'] <+: rest ∨ ['\x7b', '%'] <+: rest) []
        "<body>\n  <h1>\n    News\n  </h1>\n  - all\n  <p>\n  </p>\n</body>\n".toList
        "<body>\n  <h1>\n    News\n  </h1>\n  - all\n  <p></p>\n</body>\n".toList := by
  have hjoin := notice.joinShort_written 2 13
  rw [show written (.standard 2 13) (notice.nested.lines 0) =
      "<body>\n  <h1>\n    News\n  </h1>\n  - all\n  <p>\n  </p>\n</body>\n".toList from by decide,
    show unlines (notice.layout 2 13 0) =
      "<body>\n  <h1>\n    News\n  </h1>\n  - all\n  <p></p>\n</body>\n".toList from by
        decide] at hjoin
  exact ⟨hjoin, (joinShort_leaves_out_blanks hjoin).2⟩

/-! ### Lines -/

/-- A piece without line feeds lies in one line.  The other lines stay, whatever stands in place of
the piece. -/
theorem mem_splitOn_cases {x w y l : List Char} (hw : '\n' ∉ w)
    (hl : l ∈ (x ++ (w ++ y)).splitOn '\n') :
    (∃ a b, l = a ++ (w ++ b)) ∨ ∀ z, l ∈ (x ++ (z ++ y)).splitOn '\n' := by
  by_cases hx : '\n' ∈ x
  · -- the lines up to the first line feed stay; behind it the same holds of a shorter text
    obtain ⟨a, x, rfl, -⟩ := List.eq_append_cons_of_mem hx
    simp only [List.append_assoc, List.cons_append, List.splitOn_append_cons_self,
      List.mem_append] at hl ⊢
    obtain hl | hl := hl
    · exact .inr fun _ => .inl hl
    · exact (mem_splitOn_cases hw hl).imp_right fun h z => .inr (h z)
  · by_cases hy : '\n' ∈ y
    · obtain ⟨b, y, rfl, hb⟩ := List.eq_append_cons_of_mem hy
      have hone : '\n' ∉ x ++ (w ++ b) := by simp [hx, hw, hb]
      have hsplit : ∀ z, x ++ (z ++ (b ++ '\n' :: y)) = (x ++ (z ++ b)) ++ '\n' :: y := by simp
      simp only [hsplit, List.splitOn_append_cons_self, List.mem_append] at hl ⊢
      rw [List.splitOn_eq_singleton hone, List.mem_singleton] at hl
      obtain rfl | hl := hl
      · exact .inl ⟨x, b, rfl⟩
      · exact .inr fun _ => .inr hl
    · have hone : '\n' ∉ x ++ (w ++ y) := by simp [hx, hw, hy]
      rw [List.splitOn_eq_singleton hone, List.mem_singleton] at hl
      exact .inl ⟨x, y, hl⟩
termination_by x.length

/-- Every line of the result is a line of the text or holds the last line of a joint. -/
theorem Rejoined.lines {K : Joint → Prop}
    (hK : ∀ j, K j → '\n' ∉ j.lastLine ∧ (splitLines j.opening).getLast?.getD [] <:+ j.opening)
    (h : Rejoined K text result) (u : List Char) {l : List Char}
    (hl : l ∈ (u ++ result).splitOn '\n') :
    l ∈ (u ++ text).splitOn '\n' ∨ ∃ (j : Joint) (a b : List Char), K j ∧
    l = a ++ (j.lastLine ++ b) := by
  induction h generalizing u with
  | nil => exact .inl hl
  | copy c _ ih =>
    rw [List.append_cons] at hl ⊢
    exact ih _ hl
  | @join text result j hj _ ih =>
    rw [← List.append_assoc] at hl
    obtain hl | hl := ih _ hl
    · obtain ⟨hfeed, front, hfront⟩ := hK j hj
      generalize hlast : (splitLines j.opening).getLast?.getD [] = last at hfront
      -- only the last line of the joint and what stands beside it is new
      have hline : u ++ j.line ++ text = (u ++ front) ++ (j.lastLine ++ text) := by
        rw [Joint.line, Joint.lastLine, hlast, ← hfront]
        simp
      rw [hline] at hl
      obtain ⟨a, b, hl⟩ | hl := mem_splitOn_cases hfeed hl
      · exact .inr ⟨j, a, b, hj, hl⟩
      · refine .inl ?_
        have hz := hl (last ++ (j.lead ++ (j.body ++ (j.tail ++ j.closing))))
        simpa [Joint.source, ← hfront] using hz
    · exact .inr hl

theorem Alike.feed_mem_iff {a b : List Char} (h : Alike a b) : '\n' ∈ a ↔ '\n' ∈ b := by
  induction h with
  | nil => rfl
  | @cons x y a b hxy _ ih =>
    have hsame : '\n' = x ↔ '\n' = y := by
      have hmem : y ∈ variants x := List.contains_iff_mem.1 hxy
      constructor
      · rintro rfl
        exact (List.mem_singleton.1 hmem).symm
      · rintro rfl
        exact ((mem_variants_iff (by decide)).1 hmem).symm
    simp only [List.mem_cons, hsame, ih]

/-- A closing tag stands on one line. -/
theorem ElementClosing.feed_not_mem {name opening tag : List Char} (h : ElementClosing name tag)
    (ho : ElementOpening name opening) : '\n' ∉ tag := by
  have hnames : shortNames.all (fun n => !n.toList.contains '\n') = true := by decide
  cases ho with
  | mk hname =>
    obtain ⟨n, hn, hname⟩ := hname
    cases h with
    | mk hcopy =>
      have hfree : '\n' ∉ n.toList := by simpa using List.all_eq_true.1 hnames n hn
      simp [← hcopy.feed_mem_iff, hname.feed_mem_iff, hfree]

theorem BlockClosing.feed_not_mem {name opening tag : List Char} (h : BlockClosing name tag)
    (ho : BlockOpening name opening) : '\n' ∉ tag := by
  have hnames : shortBlockNames.all (fun n => !n.toList.contains '\n') = true := by decide
  have hblank : ∀ {w : List Char}, (∀ c ∈ w, c = ' ') → '\n' ∉ w := fun hw hmem =>
    absurd (hw _ hmem) (by decide)
  have hdash : ∀ {w : List Char}, w = [] ∨ w = ['-'] → '\n' ∉ w := by
    rintro w (rfl | rfl)
    · exact List.not_mem_nil
    · decide
  cases ho with
  | mk _ _ _ hname =>
    obtain ⟨n, hn, hname⟩ := hname
    cases h with
    | mk hmark hblanks hword hcopy hblanks' =>
      have hfree : '\n' ∉ n.toList := by simpa using List.all_eq_true.1 hnames n hn
      simp [hdash hmark, hblank hblanks, hblank hblanks', hword.feed_mem_iff, ← hcopy.feed_mem_iff,
        hname.feed_mem_iff, hfree]

theorem feed_not_mem_last (text : List Char) : '\n' ∉ (splitLines text).getLast?.getD [] := by
  intro hmem
  cases hlast : (splitLines text).getLast? with
  | none => simp [hlast] at hmem
  | some l =>
    rw [hlast] at hmem
    exact absurd (not_isLineEnd_of_mem_splitLines (List.mem_of_getLast? hlast) hmem) (by decide)

namespace Joint

variable {j : Joint}

theorem lastLine_spec {e : Char} (he : isLineEnd e = false) (hopening : [e] <:+ j.opening)
    (hbody : '\n' ∉ j.body) (hclosing : '\n' ∉ j.closing) :
    '\n' ∉ j.lastLine ∧ (splitLines j.opening).getLast?.getD [] <:+ j.opening := by
  refine ⟨by simp [lastLine, feed_not_mem_last, hbody, hclosing], last_suffix fun c hc => ?_⟩
  obtain ⟨w, hw⟩ := hopening
  obtain rfl : e = c := by simpa [← hw] using hc
  exact he

theorem IsElement.lastLine_spec (h : j.IsElement) :
    '\n' ∉ j.lastLine ∧ (splitLines j.opening).getLast?.getD [] <:+ j.opening := by
  obtain ⟨name, hopening, hclosing, -, hbody⟩ := h
  exact Joint.lastLine_spec (by decide) hopening.ends hbody (hclosing.feed_not_mem hopening)

theorem IsBlock.lastLine_spec (h : j.IsBlock) :
    '\n' ∉ j.lastLine ∧ (splitLines j.opening).getLast?.getD [] <:+ j.opening := by
  obtain ⟨name, hopening, hclosing, -, hbody⟩ := h
  have hend : ['\x7d'] <:+ j.opening := List.IsSuffix.trans ⟨['%'], rfl⟩ hopening.ends
  exact Joint.lastLine_spec (by decide) hend hbody (hclosing.feed_not_mem hopening)

/-- The last line of a joint that fits is shorter than the limit, whatever the setting counts before
it. -/
theorem Fits.length_lastLine (h : j.Fits s)
    (hlast : (splitLines j.opening).getLast?.getD [] <:+ j.opening) :
    (j.lastLine.length : Int) < s.maxLineLength := by
  have hle : j.lastLine.length ≤ joinedLength s j.opening j.body j.closing := by
    have := hlast.length_le
    simp only [lastLine, joinedLength, List.length_append]
    split <;> omega
  exact lt_of_le_of_lt (Int.ofNat_le.2 hle) h

end Joint

/-- Every line of the result is a line of the text, or it holds an element or a template block that
is shorter than the limit from the last line of its opening tag on. -/
theorem lines_of_joinShort (h : joinShort s text = .ok result) {l : List Char}
    (hl : l ∈ result.splitOn '\n') :
    l ∈ text.splitOn '\n' ∨ ∃ (j : Joint) (a b : List Char), (j.IsElement ∨ j.IsBlock) ∧
      l = a ++ (j.lastLine ++ b) ∧ (j.lastLine.length : Int) < s.maxLineLength := by
  obtain ⟨mid, helements, hblocks⟩ := rejoined_joinShort h
  obtain hl | ⟨j, a, b, ⟨hj, hfits⟩, hl⟩ := hblocks.lines (fun j hj => hj.1.lastLine_spec) [] hl
  · obtain hl | ⟨j, a, b, ⟨hj, hfits⟩, hl⟩ := helements.lines (fun j hj => hj.1.lastLine_spec) [] hl
    · exact .inl hl
    · exact .inr ⟨j, a, b, .inl hj, hl, hfits.length_lastLine hj.lastLine_spec.2⟩
  · exact .inr ⟨j, a, b, .inr hj, hl, hfits.length_lastLine hj.lastLine_spec.2⟩

end TemplateTidy.Layout
