import TemplateTidy.Proofs.Layout.Total

/-! # Lines that are not blank

`fullLines` lists the lines of a text without the blanks at their ends, and leaves blank lines out.
A replacement of whole lines that keeps this list at each match keeps it for the text
(`splice_fullLines`): what is put in for a match stands between the ends of lines, so it is joined
to nothing.  Every step of trimming is of this kind, whichever of its answers it gives, so trimming
keeps the full lines (`trimLines_fullLines`). -/

namespace TemplateTidy

namespace Text

/-! ### Full lines -/

/-- The lines of a text without the blanks at their ends; blank lines are left out. -/
def fullLines (text : List Char) : List (List Char) :=
  ((text.splitOn '\n').map strip).filter fun line => !line.isEmpty

variable {a b v w : List Char} {c : Char}

theorem strip_cons (hc : isBlank c = true) : strip (c :: a) = strip a := by
  simp [strip, trimBoth, trimLeft, hc]

theorem strip_append_singleton (hc : isBlank c = true) : strip (a ++ [c]) = strip a := by
  have hright : ∀ r : List Char, trimRight isBlank (r ++ [c]) = trimRight isBlank r := by
    intro r
    simp [trimRight, hc]
  simp only [strip, trimBoth, trimLeft, List.dropWhile_append]
  split
  · rename_i hempty
    rw [List.isEmpty_iff] at hempty
    simp [hempty, hc]
  · exact hright _

theorem fullLines_append (a b : List Char) :
    fullLines (a ++ '\n' :: b) = fullLines a ++ fullLines b := by
  simp [fullLines, List.splitOn_append_cons_self]

theorem fullLines_of_line (h : '\n' ∉ a) :
    fullLines a = if (strip a).isEmpty then [] else [strip a] := by
  rw [fullLines, List.splitOn_eq_singleton h]
  cases hempty : (strip a).isEmpty <;> simp [hempty]

@[simp] theorem fullLines_nil : fullLines [] = [] := rfl

/-- A blank before a text adds no line. -/
theorem fullLines_cons (hc : isBlank c = true) (a : List Char) :
    fullLines (c :: a) = fullLines a := by
  by_cases hfeed : c = '\n'
  · subst hfeed
    exact fullLines_append [] a
  · induction a using lines_induction with
    | one line hline =>
      rw [fullLines_of_line (by simp [hline, Ne.symm hfeed]), fullLines_of_line hline,
        strip_cons hc]
    | more line rest hline =>
      have hfree : '\n' ∉ c :: line := by simp [hline, Ne.symm hfeed]
      rw [← List.cons_append, fullLines_append, fullLines_append, fullLines_of_line hfree,
        fullLines_of_line hline, strip_cons hc]

/-- A blank after a text adds no line. -/
theorem fullLines_append_singleton (hc : isBlank c = true) (a : List Char) :
    fullLines (a ++ [c]) = fullLines a := by
  by_cases hfeed : c = '\n'
  · subst hfeed
    rw [fullLines_append, fullLines_nil, List.append_nil]
  · induction a using lines_induction with
    | one line hline =>
      rw [fullLines_of_line (by simp [hline, Ne.symm hfeed]), fullLines_of_line hline,
        strip_append_singleton hc]
    | more line rest _ ih =>
      rw [List.append_assoc, List.cons_append, fullLines_append, fullLines_append, ih]

theorem fullLines_blanks_append (ha : ∀ c ∈ a, isBlank c = true) :
    fullLines (a ++ b) = fullLines b := by
  induction a with
  | nil => rfl
  | cons c a ih =>
    rw [List.cons_append, fullLines_cons (ha c (by simp)), ih fun d hd => ha d (by simp [hd])]

theorem fullLines_append_blanks (hb : ∀ c ∈ b, isBlank c = true) :
    fullLines (a ++ b) = fullLines a := by
  induction b generalizing a with
  | nil => rw [List.append_nil]
  | cons c b ih =>
    rw [List.append_cons, ih fun d hd => hb d (by simp [hd]),
      fullLines_append_singleton (hb c (by simp))]

theorem fullLines_stripRight (a : List Char) : fullLines (stripRight a) = fullLines a := by
  have hsplit : a = stripRight a ++ (a.reverse.takeWhile isBlank).reverse := by
    rw [show stripRight a = (a.reverse.dropWhile isBlank).reverse from rfl, ← List.reverse_append,
      List.takeWhile_append_dropWhile, List.reverse_reverse]
  conv_rhs => rw [hsplit]
  exact (fullLines_append_blanks fun c hc => List.mem_takeWhile_imp (List.mem_reverse.1 hc)).symm

/-! ### Ends of lines -/

/-- Nothing follows, or a line feed. -/
def AtLineEnd (r : List Char) : Prop :=
  ∀ c ∈ r.head?, c = '\n'

theorem AtLineEnd.nil : AtLineEnd [] := by
  simp [AtLineEnd]

theorem AtLineEnd.left (h : AtLineEnd (a ++ b)) : AtLineEnd a := by
  cases a with
  | nil => exact .nil
  | cons c a => exact h

theorem AtLineEnd.append (ha : AtLineEnd a) (hb : AtLineEnd b) : AtLineEnd (a ++ b) := by
  cases a with
  | nil => exact hb
  | cons c a => exact ha

/-- Between the ends of lines, texts with the same full lines stand for each other. -/
theorem fullLines_exchange (ha : a = [] ∨ a.getLast? = some '\n') (hb : AtLineEnd b)
    (h : fullLines v = fullLines w) : fullLines (a ++ (v ++ b)) = fullLines (a ++ (w ++ b)) := by
  have hright : fullLines (v ++ b) = fullLines (w ++ b) := by
    cases b with
    | nil => simpa using h
    | cons c b =>
      obtain rfl : c = '\n' := hb c rfl
      rw [fullLines_append, fullLines_append, h]
  obtain rfl | ha := ha
  · exact hright
  · obtain ⟨a, rfl⟩ := List.getLast?_eq_some_iff.1 ha
    rw [← List.append_cons, ← List.append_cons, fullLines_append, fullLines_append, hright]

end Text

open Text

/-! ### Replacing whole lines -/

/-- An image for a match of whole lines: it has the same full lines, and goes on at the end of a
line if the match does. -/
structure Relined (text : Array Char) (m : Match) (image : List Char) : Prop where
  start : m.start = 0 ∨ text[m.start - 1]? = some '\n'
  stop : AtLineEnd (text.toList.drop m.stop)
  lines : fullLines image = fullLines (m.text text)
  head : AtLineEnd (m.text text) → AtLineEnd image

variable {text : Array Char}

theorem take_append_between {i j : Nat} (h : i ≤ j) :
    text.toList.take i ++ between text i j = text.toList.take j := by
  rw [between_eq, ← List.take_add, Nat.add_sub_cancel' h]

/-- From the end of a line on, the replaced text goes on with a line feed, too. -/
theorem splice_atLineEnd : ∀ {pos : Nat} {images : List (Match × List Char)},
    Ordered text pos (images.map Prod.fst) → (∀ x ∈ images, Relined text x.1 x.2) →
      AtLineEnd (text.toList.drop pos) → AtLineEnd (splice text pos images)
  | pos, [], _, _, h => by
      rwa [splice_nil]
  | pos, (m, image) :: images, ho, hf, h => by
      obtain ⟨h₁, h₂, h₃⟩ := ho
      have hm := hf (m, image) (by simp)
      have hrest := splice_atLineEnd h₃ (fun x hx => hf x (by simp [hx])) hm.stop
      rw [drop_eq_parts h₁ h₂] at h
      rw [splice_cons]
      -- the first character is copied, unless the match begins here
      cases hcopy : between text pos m.start with
      | cons c r =>
        rw [hcopy] at h
        exact h
      | nil =>
        rw [hcopy, List.nil_append] at h
        exact (hm.head h.left).append hrest

/-- Replacing whole lines keeps the full lines.  The replacements are undone from the last to the
first, so that what stands before each of them is the text itself. -/
theorem splice_fullLines : ∀ {pos : Nat} {images : List (Match × List Char)},
    Ordered text pos (images.map Prod.fst) → (∀ x ∈ images, Relined text x.1 x.2) →
      fullLines (text.toList.take pos ++ splice text pos images) = fullLines text.toList
  | pos, [], _, _ => by rw [splice_nil, List.take_append_drop]
  | pos, (m, image) :: images, ho, hf => by
      obtain ⟨h₁, h₂, h₃⟩ := ho
      have hm := hf (m, image) (by simp)
      have hrest := splice_atLineEnd h₃ (fun x hx => hf x (by simp [hx])) hm.stop
      have hbefore : text.toList.take m.start = [] ∨
          (text.toList.take m.start).getLast? = some '\n' := by
        have hstart : m.start = 0 ∨ text[m.start - 1]? = some '\n' := hm.start
        cases hk : m.start with
        | zero => exact .inl (List.take_zero ..)
        | succ k =>
          have hfeed : text.toList[k]? = some '\n' := by simpa [hk] using hstart
          exact .inr (by simp [List.take_add_one, hfeed])
      calc fullLines (text.toList.take pos ++ splice text pos ((m, image) :: images))
          = fullLines (text.toList.take m.start ++ (image ++ splice text m.stop images)) := by
            rw [← take_append_between h₁, splice_cons, List.append_assoc]
        _ = fullLines (text.toList.take m.start ++ (m.text text ++ splice text m.stop images)) :=
            fullLines_exchange hbefore hrest hm.lines
        _ = fullLines (text.toList.take m.stop ++ splice text m.stop images) := by
            rw [← take_append_between h₂, List.append_assoc]
            rfl
        _ = fullLines text.toList := splice_fullLines h₃ fun x hx => hf x (by simp [hx])

theorem Pattern.replaceAll_fullLines {p : Pattern} {f : Match → List Char}
    (hf : ∀ m ∈ p.findAll text, Relined text m (f m)) :
    fullLines (p.replaceAll f text) = fullLines text.toList := by
  show fullLines (text.toList.take 0 ++ splice text 0 _) = fullLines text.toList
  exact splice_fullLines p.ordered_images (by simpa using hf)

/-! ### Patterns of whole lines -/

namespace Node

/-- Whether the pattern begins with an anchor. -/
def beginsAt (a : Anchor) : Node → Bool
  | .anchor b => b == a
  | .seq n _ | .group _ n => n.beginsAt a
  | _ => false

/-- Whether the pattern ends with an anchor. -/
def endsAt (a : Anchor) : Node → Bool
  | .anchor b => b == a
  | .seq _ n | .group _ n => n.endsAt a
  | _ => false

/-- Whether the pattern takes characters of one class only. -/
def takesOnly (good : Char → Bool) : Node → Bool
  | .one cs => cs.onlyOf good
  | .seq a b => a.takesOnly good && b.takesOnly good
  | .rep a .. => a.takesOnly good
  | .anchor _ => true
  | _ => false

variable {scene : Scene} {a : Anchor} {n : Node}

theorem Reach.holdsAt_start : ∀ {p q : Point}, n.beginsAt a = true → n.Reach scene false p q →
    scene.holdsAt a p.pos = true := by
  induction n with
  | anchor b =>
    rintro p q hn ⟨h, -⟩
    rwa [← beq_iff_eq.1 hn]
  | seq n n' ih _ => rintro p q hn ⟨m, h, -⟩; exact ih hn h
  | group i n ih => rintro p q hn ⟨m, h, -⟩; exact ih hn h
  | _ => intro p q hn; cases hn

theorem Reach.holdsAt_stop : ∀ {p q : Point}, n.endsAt a = true → n.Reach scene false p q →
    scene.holdsAt a q.pos = true := by
  induction n with
  | anchor b =>
    rintro p q hn ⟨h, rfl⟩
    rwa [← beq_iff_eq.1 hn]
  | seq n n' _ ih => rintro p q hn ⟨m, -, h⟩; exact ih hn h
  | group i n ih => rintro p q hn ⟨m, h, rfl⟩; exact (ih hn h :)
  | _ => intro p q hn; cases hn

theorem Lang.forall_of_takesOnly {good : Char → Bool} :
    ∀ {w : List Char}, n.takesOnly good = true → n.Lang w → ∀ c ∈ w, good c = true := by
  induction n with
  | anchor b => rintro w - rfl c ⟨⟩
  | one cs =>
    rintro w hn ⟨d, rfl, hd⟩ c hc
    rw [List.mem_singleton.1 hc]
    exact CharSet.holds_onlyOf hn hd
  | seq a b iha ihb =>
    rintro w hn ⟨u, v, rfl, hu, hv⟩ c hc
    obtain ⟨ha, hb⟩ := Bool.and_eq_true_iff.1 hn
    exact (List.mem_append.1 hc).elim (iha ha hu c) (ihb hb hv c)
  | rep a least most reluctant ih =>
    rintro w hn ⟨us, rfl, hus, -, -⟩ c hc
    obtain ⟨u, hu, hcu⟩ := List.mem_flatten.1 hc
    exact ih hn (hus u hu) c hcu
  | _ => intro w hn; cases hn

end Node

/-- The pattern of a line: blanks, the line as group 1, and blanks and line feeds up to the end of a
line. -/
structure IsLine (p : Pattern) (lead : List Node) (body : Node) (gap : List Node) : Prop where
  node : p.node = .ofList (lead ++ .group 1 body :: gap)
  keepless : p.node.keepless = true
  distinct : p.node.indices.Nodup
  begins : p.node.beginsAt .lineStart = true
  ends : p.node.endsAt .lineEnd = true
  lead : (Node.ofList lead).takesOnly (fun c => isBlank c && c != '\n') = true
  gap : (Node.ofList gap).takesOnly isBlank = true

variable {p : Pattern} {m : Match}

/-- A match between two line ends. -/
theorem whole_of_mem_findAll (hkeep : p.node.keepless = true)
    (hbegin : p.node.beginsAt .lineStart = true)
    (hend : p.node.endsAt .lineEnd = true) (hm : m ∈ p.findAll text) :
    (m.start = 0 ∨ text[m.start - 1]? = some '\n') ∧ AtLineEnd (text.toList.drop m.stop) := by
  obtain ⟨origin, i, q, hi, hq, rfl⟩ := Pattern.exists_reach_of_mem_findAll hm
  have hstart : q.start = i := hq.start_eq hkeep
  have hfirst := hq.holdsAt_start hbegin
  have hlast := hq.holdsAt_stop hend
  constructor
  · show q.start = 0 ∨ text[q.start - 1]? = some '\n'
    rw [hstart]
    simpa [Scene.holdsAt, Point.at, Pattern.scene] using hfirst
  · intro c hc
    have hc : text[q.pos]? = some c := by
      simpa [Match.ofPoint, List.head?_drop] using hc
    have hlt : q.pos < text.size := (Array.getElem?_eq_some_iff.1 hc).1
    simpa [Scene.holdsAt, Pattern.scene, hlt.ne, hc] using hlast

/-- The text of a match is what its group took, with what the patterns beside it took. -/
theorem Pattern.around_group {lead gap : List Node} {i : Nat} {body : Node}
    (hp : p.node = .ofList (lead ++ .group i body :: gap)) (hk : p.node.keepless = true)
    (hd : p.node.indices.Nodup)
    (hm : m ∈ p.findAll text) : ∃ a b, m.text text = a ++ (m.capture text i ++ b) ∧
      (Node.ofList lead).Lang a ∧ (Node.ofList gap).Lang b := by
  obtain ⟨ws, htext, hlang, hheld⟩ := parts_held hp hk hd hm
  have hcapture := hheld lead.length i (.group i body) (by simp) rfl
  obtain ⟨hlt, hget⟩ := List.getElem?_eq_some_iff.1 hcapture
  have hlead := List.forall₂_take lead.length hlang
  have hgap := List.forall₂_drop (lead.length + 1) hlang
  rw [List.take_left] at hlead
  rw [← List.drop_drop, List.drop_left, List.drop_one, List.tail_cons] at hgap
  refine ⟨(ws.take lead.length).flatten, (ws.drop (lead.length + 1)).flatten, ?_,
    Node.lang_ofList.2 ⟨_, rfl, hlead⟩, Node.lang_ofList.2 ⟨_, rfl, hgap⟩⟩
  rw [htext, ← hget, ← List.flatten_cons, List.getElem_cons_drop, ← List.flatten_append,
    List.take_append_drop]

/-- Each answer of trimming keeps the lines of a match. -/
theorem IsLine.relined {lead gap : List Node} {body : Node} (hp : IsLine p lead body gap)
    (hm : m ∈ p.findAll text)
    {image : List Char} (himage : image = m.text text ∨ image = stripRight (m.text text) ∨
      image = m.capture text 1) : Relined text m image := by
  obtain ⟨hstart, hstop⟩ := whole_of_mem_findAll hp.keepless hp.begins hp.ends hm
  refine ⟨hstart, hstop, ?_, ?_⟩
  all_goals obtain ⟨a, b, htext, ha, hb⟩ := Pattern.around_group hp.node hp.keepless hp.distinct hm
  all_goals have ha := ha.forall_of_takesOnly hp.lead
  · obtain rfl | rfl | rfl := himage
    · rfl
    · exact fullLines_stripRight _
    · rw [htext, fullLines_blanks_append fun c hc => (Bool.and_eq_true_iff.1 (ha c hc)).1,
        fullLines_append_blanks (hb.forall_of_takesOnly hp.gap)]
  · intro hend
    obtain rfl | rfl | rfl := himage
    · exact hend
    · exact fun c hc => hend c (head?_stripRight hc)
    · rw [htext] at hend
      cases a with
      | nil => exact AtLineEnd.left (b := b) hend
      | cons c a =>
        -- a blank before the line is no line feed
        have hne := (Bool.and_eq_true_iff.1 (ha c (by simp))).2
        simp [hend c rfl] at hne

/-! ### Trimming -/

namespace Layout

theorem exists_isLine_of_check {step : Pattern} {e : Pattern.Choice}
    (hstep : step = e.pattern lines) (lead : List Node) {gap : List Node} {body : Node}
    (hnode : (e.pattern lines).node = .ofList (lead ++ .group 1 body :: gap))
    (hcheck : ((e.pattern lines).node.keepless && (e.pattern lines).node.beginsAt .lineStart &&
      (e.pattern lines).node.endsAt .lineEnd && (Node.ofList lead).takesOnly (fun c => isBlank c &&
        c != '\n') &&
      (Node.ofList gap).takesOnly isBlank) = true) : ∃ lead body gap,
          IsLine step lead body gap := by
  subst hstep
  simp only [Bool.and_eq_true] at hcheck
  obtain ⟨⟨⟨⟨hkeep, hbegin⟩, hend⟩, hlead⟩, hgap⟩ := hcheck
  exact ⟨lead, body, gap, hnode, hkeep, Pattern.Choice.nodup_indices _ _, hbegin, hend, hlead, hgap⟩

theorem exists_isLine {step : Pattern} {keepBlankLines keepLeading : Bool}
    (h : step ∈ trimSteps keepBlankLines keepLeading) :
    ∃ lead body gap, IsLine step lead body gap := by
  cases keepBlankLines <;> cases keepLeading <;>
    simp only [trimSteps, List.mem_cons, List.not_mem_nil, or_false] at h
  case false.false => exact exists_isLine_of_check (h.trans lineAndBlanks_eq) [_, _] rfl (by decide)
  case true.false => exact exists_isLine_of_check (h.trans lineOnly_eq) [_, _] rfl (by decide)
  case false.true =>
    obtain h | h := h
    · exact exists_isLine_of_check (h.trans (tagLine_eq true)) [_, _] rfl (by decide)
    · exact exists_isLine_of_check (h.trans lineEnd_eq) [_] rfl (by decide)
  case true.true =>
    obtain h | h := h
    · exact exists_isLine_of_check (h.trans (tagLine_eq false)) [_, _] rfl (by decide)
    · exact exists_isLine_of_check (h.trans lineEndOnly_eq) [_] rfl (by decide)

theorem trimmed_cases (doc : Array Char) (ignored : List Span) (text : Array Char) (m : Match) :
    trimmed doc ignored text m = m.text text ∨ trimmed doc ignored text m =
      stripRight (m.text text) ∨ trimmed doc ignored text m = m.capture text 1 := by
  simp only [trimmed]
  split_ifs
  · exact .inl rfl
  · exact .inr (.inl rfl)
  · exact .inr (.inr rfl)

variable {s : Settings}

theorem trimEnds_fullLines (text : List Char) : fullLines (trimEnds s text) = fullLines text := by
  unfold trimEnds
  refine List.foldlRecOn (motive := fun now => fullLines now = fullLines text)
    _ _ rfl fun now hnow step hstep => ?_
  obtain ⟨lead, body, gap, hline⟩ := exists_isLine hstep
  refine Eq.trans (Pattern.replaceAll_fullLines fun m hm => ?_) (by simpa using hnow)
  exact hline.relined hm (trimmed_cases ..)

/-- Front matter ends at the end of a line, so a line feed behind it splits none. -/
theorem blankLineAfterFrontMatter_fullLines (text : List Char) :
    fullLines (blankLineAfterFrontMatter text) = fullLines text := by
  refine (Pattern.replaceAll_fullLines fun m hm => ?_).trans (by simp)
  rw [frontMatter_eq] at hm
  obtain ⟨hstart, hstop⟩ := whole_of_mem_findAll (by decide) (by decide) (by decide) hm
  dsimp only
  split
  · refine ⟨hstart, hstop, fullLines_append_singleton (by decide) _, fun h => h.append ?_⟩
    simp [AtLineEnd]
  · exact ⟨hstart, hstop, rfl, id⟩

theorem listedTags_eq_nil {v : Value} (h : v.truthy = false) : listedTags v = .ok [] := by
  have htext : textOf v = .ok none := by simp [textOf, h]
  rw [listedTags, htext]
  rfl

theorem blankLinesAfter_eq (h : s.blankLineAfterTag.truthy = false) (text : List Char) :
    blankLinesAfter s text = .ok text := by
  rw [blankLinesAfter, listedTags_eq_nil h, Outcome.ok_bind, List.foldlM_nil]
  rfl

theorem blankLinesBefore_eq (h : s.blankLineBeforeTag.truthy = false) (text : List Char) :
    blankLinesBefore s text = .ok text := by
  rw [blankLinesBefore, listedTags_eq_nil h, Outcome.ok_bind, List.foldlM_nil]
  rfl

/-- Trimming keeps the lines of a text, if no blank lines beside tags are asked for: none is joined
to another, cut, moved, lost or changed inside. -/
theorem trimLines_fullLines (hafter : s.blankLineAfterTag.truthy = false)
    (hbefore : s.blankLineBeforeTag.truthy = false) (text : List Char) :
    ∃ result, trimLines s text = .ok result ∧ fullLines result = fullLines text := by
  have hresult : trimLines s text = .ok (if s.noLineAfterYaml.isBool false then
      blankLineAfterFrontMatter (trimEnds s text) else trimEnds s text) := by
    rw [trimLines, blankLinesAfter_eq hafter, Outcome.ok_bind, blankLinesBefore_eq hbefore,
      Outcome.ok_bind]
    rfl
  refine ⟨_, hresult, ?_⟩
  split
  · rw [blankLineAfterFrontMatter_fullLines, trimEnds_fullLines]
  · exact trimEnds_fullLines text

/-- Settings that keep leading blanks. -/
def leadingSettings : Settings :=
  { Settings.standard 4 120 with preserveLeadingSpace := .bool true }

/-- Front matter, and a region with a blank line in it. -/
theorem trimLines_fullLines_leading :
    leadingSettings.blankLineAfterTag.truthy = false ∧
      leadingSettings.blankLineBeforeTag.truthy = false ∧
      ∃ result, trimLines leadingSettings "---\nx\n---\n\n  <pre> \n\n\tb c</pre>  \n".toList =
        .ok result ∧
        fullLines result = ["---".toList, "x".toList, "---".toList, "<pre>".toList,
          "b c</pre>".toList] := by
  obtain ⟨result, hresult, hlines⟩ := trimLines_fullLines (s := leadingSettings) rfl rfl
    "---\nx\n---\n\n  <pre> \n\n\tb c</pre>  \n".toList
  exact ⟨rfl, rfl, result, hresult, hlines.trans (by decide)⟩

end Layout

end TemplateTidy
