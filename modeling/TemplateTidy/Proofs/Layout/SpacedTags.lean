import TemplateTidy.Proofs.Layout.LineOutlooks

/-! # Template tags that are spaced already

A text is `Spaced` if each brace in it begins a template tag with one space on either side of its
contents.  Such a text is left as it is when tags are spaced and when data is laid out
(`spaceTags_of_spaced`, `dataless_of_spaced`). -/

namespace TemplateTidy.Layout

open Text Pattern

/-! ### Spaced texts -/

/-- What the contents of a tag may begin with. -/
def tagHeads : List String :=
  ["if ", "for ", "else", "endif", "endfor"]

/-- The contents of a tag that opens, divides or closes a block. -/
structure TagBody (body : List Char) : Prop where
  chars : ∀ c ∈ body, (c.isAlphanum || c == '_' || c == ' ') = true
  head : ∃ h ∈ tagHeads, h.toList <+: body
  stops : ∃ a c, body = a ++ [c] ∧ c ≠ ' '

/-- Each brace begins a tag. -/
def Spaced (text : List Char) : Prop :=
  ∀ t, t <:+ text → t.head? = some '{' → ∃ body r, TagBody body ∧ t = percentText body ++ r

theorem Spaced.nil : Spaced [] := by
  intro t ht hhead
  rw [List.suffix_nil.1 ht] at hhead
  cases hhead

theorem Spaced.cons {c : Char} {text : List Char} (h : Spaced text)
    (hc : c = '{' → ∃ body r, TagBody body ∧ c :: text = percentText body ++ r) :
    Spaced (c :: text) := by
  intro t ht hhead
  obtain rfl | ht := List.suffix_cons_iff.1 ht
  · exact hc (by simpa using hhead)
  · exact h t ht hhead

theorem Spaced.append {a b : List Char} (ha : '{' ∉ a) (hb : Spaced b) : Spaced (a ++ b) := by
  induction a with
  | nil => exact hb
  | cons c a ih =>
    rw [List.mem_cons, not_or] at ha
    exact (ih ha.2).cons fun hc => absurd hc.symm ha.1

theorem TagBody.brace_not_mem {body : List Char} (h : TagBody body) : '{' ∉ body := by
  intro hmem
  have := h.chars '{' hmem
  exact absurd this (by decide)

theorem Spaced.tag {body r : List Char} (hbody : TagBody body) (hr : Spaced r) :
    Spaced (percentText body ++ r) := by
  have hrest : Spaced (('%' :: ' ' :: (body ++ [' ', '%', '}'])) ++ r) :=
    hr.append (by simp [hbody.brace_not_mem])
  exact hrest.cons fun _ => ⟨body, r, hbody, rfl⟩

/-! ### The contents of a tag -/

namespace TagBody

variable {body : List Char} (h : TagBody body)
include h

theorem exists_cons : ∃ c r, body = c :: r ∧ isWord c = true := by
  obtain ⟨w, hw, r, rfl⟩ := h.head
  simp only [tagHeads, List.mem_cons, List.not_mem_nil, or_false] at hw
  obtain rfl | rfl | rfl | rfl | rfl := hw
  · exact ⟨'i', _, rfl, by decide⟩
  · exact ⟨'f', _, rfl, by decide⟩
  · exact ⟨'e', _, rfl, by decide⟩
  · exact ⟨'e', _, rfl, by decide⟩
  · exact ⟨'e', _, rfl, by decide⟩

theorem ne_of_mem {c d : Char} (hc : c ∈ body)
    (hd : (d.isAlphanum || d == '_' || d == ' ') = false) : c ≠ d := by
  rintro rfl
  rw [h.chars c hc] at hd
  cases hd

/-- Blanks inside of the contents stop before their end. -/
theorem runLength_lt (cs : CharSet) (hcs : ∀ c, cs.holds c = true → c = ' ') {j : Nat}
    (hj : j < body.length)
    (t : List Char) : Node.runLength cs (body.drop j ++ t) < (body.drop j).length := by
  obtain ⟨a, c, rfl, hc⟩ := h.stops
  have hlast : ¬cs.holds c = true := fun hh => hc (hcs c hh)
  rw [List.length_append, List.length_singleton] at hj
  rw [List.drop_append_of_le_length (by omega), Node.runLength, List.append_assoc]
  have hstop : ((a.drop j).takeWhile cs.holds).length ≤ (a.drop j).length :=
    (List.takeWhile_prefix _).length_le
  rw [List.takeWhile_append]
  split
  · simp [hlast]
  · simp only [List.length_append, List.length_singleton]
    omega

end TagBody

/-! ### The pattern of tags -/

/-- One character, in its own letter case. -/
def exactly (c : Char) : Node :=
  .one (.single c .exact)

def blanks : Node :=
  .rep (exactly ' ') 0 none true

/-- The opening bracket with its signs. -/
def percentOpening : Node :=
  .seq (exactly '{') (.seq (exactly '%') (.seq (.rep (exactly '-') 0 (some 1) false)
    (.rep (exactly '+') 0 (some 1) false)))

/-- The closing bracket with its signs. -/
def percentClosing : Node :=
  .seq (.rep (exactly '+') 0 (some 1) false) (.seq (.rep (exactly '-') 0 (some 1) false)
    (.seq (exactly '%') (exactly '}')))

/-- A character that does not begin the closing bracket. -/
def percentStep : Node :=
  .seq (.look false false (.seq (exactly '%') (exactly '}')))
    (.one ⟨[.range '\n' '\n'], true, .exact⟩)

def percentContents : Node :=
  .seq (.one ⟨[.named .word true], false, .exact⟩) (.rep percentStep 0 none true)

theorem percentTree_node : (percentTree.pattern {}).node =
    .seq (.group 1 percentOpening) (.seq blanks (.seq (.group 2 percentContents)
      (.seq blanks (.group 3 percentClosing)))) := rfl

section matching

variable {scene : Scene} {p : Point} {c d : Char} {body r : List Char}

theorem points_exactly (h : scene.rest p = c :: r) :
    (exactly c).points scene false p = [p.move 1] :=
  Node.points_one_of_holds h (by simp [CharSet.holds_single_exact])

theorem points_exactly_of_ne (h : scene.rest p = d :: r) (hne : c ≠ d) :
    (exactly c).points scene false p = [] :=
  Node.points_one_of_not (by simp [h, CharSet.holds_single_exact, hne])

theorem points_sign_of_ne (h : scene.rest p = d :: r) (hne : c ≠ d) :
    (Node.rep (exactly c) 0 (some 1) false).points scene false p = [p] := by
  rw [exactly, Node.points_optional]
  simp [h, CharSet.holds_single_exact, hne]

theorem points_percentOpening (h : scene.rest p = '{' :: '%' :: ' ' :: r) :
    percentOpening.points scene false p = [p.move 2] := by
  have h₁ : scene.rest (p.move 1) = '%' :: ' ' :: r := by rw [scene.rest_move, h]; rfl
  have h₂ : scene.rest (p.move 2) = ' ' :: r := by rw [scene.rest_move, h]; rfl
  rw [percentOpening, Node.points_seq_singleton (points_exactly h),
    Node.points_seq_singleton (points_exactly h₁), Point.move_move,
    Node.points_seq_singleton (points_sign_of_ne h₂ (by decide)), points_sign_of_ne h₂ (by decide)]

theorem points_percentClosing (h : scene.rest p = '%' :: '}' :: r) :
    percentClosing.points scene false p = [p.move 2] := by
  have h₁ : scene.rest (p.move 1) = '}' :: r := by rw [scene.rest_move, h]; rfl
  rw [percentClosing, Node.points_seq_singleton (points_sign_of_ne h (by decide)),
    Node.points_seq_singleton (points_sign_of_ne h (by decide)),
    Node.points_seq_singleton (points_exactly h),
    points_exactly h₁, Point.move_move]

theorem points_percentStep (h : scene.rest p = c :: r) (hpercent : c ≠ '%')
    (hline : c ≠ '\n') : percentStep.points scene false p = [p.move 1] := by
  have hlook : (Node.seq (exactly '%') (exactly '}')).points scene false p = [] :=
    Node.points_seq_nil_left (points_exactly_of_ne h hpercent.symm)
  have hfree : (Node.look false false (.seq (exactly '%') (exactly '}'))).points scene false p =
      [p] := by
    rw [Node.points, hlook]
    rfl
  rw [percentStep, Node.points_seq_singleton hfree]
  refine Node.points_one_of_holds h ?_
  simp [CharSet.holds, CharItem.holds_range_self, hline.symm]

/-- Behind a part of the contents the closing bracket does not follow. -/
theorem points_closing_inside {body t : List Char} (hbody : TagBody body) {j : Nat}
    (hj : j < body.length) (h : scene.rest p = body.drop j ++ t) :
    (Node.seq blanks (.group 3 percentClosing)).points scene false p = [] := by
  refine Node.points_seq_nil_right fun m hm => ?_
  obtain ⟨k, -, hk, rfl⟩ := Node.mem_points_run.1 hm
  have hlt := hbody.runLength_lt (.single ' ' .exact)
    (fun c hc => by rw [CharSet.holds_single_exact] at hc; exact (beq_iff_eq.1 hc).symm) hj t
  rw [h] at hk
  have hk' : k < (body.drop j).length := by omega
  -- the character behind the blanks is one of the contents
  refine Node.points_eq_nil fun q => ?_
  refine Node.not_reach_of_begins (fun c => c == '+' || c == '-' || c == '%') rfl (by decide) ?_
  intro c hc
  rw [scene.rest_move, h, List.head?_drop, List.getElem?_append_left hk'] at hc
  have hmem : c ∈ body := List.mem_of_mem_drop (List.mem_of_getElem? hc)
  simp [hbody.ne_of_mem hmem (d := '+') (by decide), hbody.ne_of_mem hmem (d := '-') (by decide),
    hbody.ne_of_mem hmem (d := '%') (by decide)]

/-- The closing bracket behind the contents. -/
theorem first_closing (h : scene.rest p = ' ' :: '%' :: '}' :: r) :
    (Node.seq blanks (.group 3 percentClosing)).First scene p
      ((p.move 3).mark 3 ⟨p.pos + 1, p.pos + 3⟩) := by
  have h₁ : scene.rest (p.move 1) = '%' :: '}' :: r := by rw [scene.rest_move, h]; rfl
  refine Node.First.near_seq (i := 1) ?_ ?_ ?_
  · simp [Node.runLength, h, CharSet.holds_single_exact]
  · intro j hj
    obtain rfl : j = 0 := by omega
    refine Node.points_eq_nil fun q => ?_
    refine Node.not_reach_of_begins (fun c => c == '+' || c == '-' || c == '%') rfl (by decide) ?_
    simp [h]
  · rw [Node.First, Node.points_group, points_percentClosing h₁]
    rfl

/-- The contents of a tag are taken up to the space before the closing bracket. -/
theorem points_percentContents (hbody : TagBody body)
    (h : scene.rest p = body ++ r) : ∃ l, percentContents.points scene false p =
      (List.range (body.length - 1)).map (fun j => p.move (j + 1)) ++ p.move body.length :: l := by
  obtain ⟨c, b, hcons, hc⟩ := hbody.exists_cons
  have hlen : body.length = b.length + 1 := by rw [hcons]; rfl
  have hfirst : (Node.one ⟨[.named .word true], false, .exact⟩).points scene false p =
      [p.move 1] := by
    refine Node.points_one_of_holds (c := c) (r := b ++ r) (by rw [h, hcons]; rfl) ?_
    simp [CharSet.holds, CharItem.holds, CharClass.holds, hc]
  have hroom : (p.move 1).pos + b.length ≤ scene.text.size := by
    have hrest : (scene.rest p).length = scene.text.size - p.pos := by simp [Scene.rest]
    rw [h, hcons] at hrest
    simp only [List.cons_append, List.length_cons, List.length_append] at hrest
    rw [Point.move_pos]
    omega
  obtain ⟨l, hl⟩ := Node.points_near_steps (a := percentStep) (p := p.move 1) rfl hroom
    fun j hj => by
      have hget : scene.rest ((p.move 1).move j) = b[j] :: (b.drop (j + 1) ++ r) := by
        rw [Point.move_move, scene.rest_move, h, hcons, Nat.add_comm 1 j, List.cons_append,
          List.drop_succ_cons, List.drop_append_of_le_length (by omega),
          List.drop_eq_getElem_cons hj]
        rfl
      have hmem : b[j] ∈ body := by rw [hcons]; exact List.mem_cons_of_mem _ (List.getElem_mem hj)
      rw [points_percentStep hget (hbody.ne_of_mem hmem (by decide))
        (hbody.ne_of_mem hmem (by decide))]
      simp [Nat.add_assoc]
  refine ⟨l, ?_⟩
  rw [percentContents, Node.points_seq_singleton hfirst, hl, hlen, Nat.add_sub_cancel]
  simp [Nat.add_comm 1]

/-- Where the contents and the closing bracket end. -/
def behindContents (p : Point) (n : Nat) : Point :=
  (((p.move n).mark 2 ⟨p.pos, p.pos + n⟩).move 3).mark 3 ⟨p.pos + n + 1, p.pos + n + 3⟩

theorem first_contents (hbody : TagBody body) (h : scene.rest p = body ++ ' ' :: '%' :: '}' :: r) :
    (Node.seq (.group 2 percentContents) (.seq blanks (.group 3 percentClosing))).First scene p
      (behindContents p body.length) := by
  obtain ⟨l, hl⟩ := points_percentContents hbody h
  have hpoints : (Node.group 2 percentContents).points scene false p =
      (List.range (body.length - 1)).map (fun j =>
        (p.move (j + 1)).mark 2 ⟨p.pos, p.pos + (j + 1)⟩) ++
        (p.move body.length).mark 2 ⟨p.pos, p.pos + body.length⟩ :: l.map fun q =>
        q.mark 2 ⟨p.pos, q.pos⟩ := by
    rw [Node.points_group, hl, List.map_append, List.map_map]
    rfl
  refine .seq_split hpoints (fun z hz => ?_) (first_closing (r := r) ?_)
  · obtain ⟨j, hj, rfl⟩ := List.mem_map.1 hz
    rw [List.mem_range] at hj
    refine points_closing_inside hbody (j := j + 1) (t := ' ' :: '%' :: '}' :: r) (by omega) ?_
    rw [scene.rest_mark, scene.rest_move, h, List.drop_append_of_le_length (by omega)]
  · rw [scene.rest_mark, scene.rest_move, h, List.drop_left]

/-- The preferred match at a tag takes its brackets and its contents. -/
theorem first_percentTag (hbody : TagBody body) (h : scene.rest p = percentText body ++ r) :
    (percentTree.pattern {}).node.First scene p
      (behindContents (((p.move 2).mark 1 ⟨p.pos, p.pos + 2⟩).move 1) body.length) := by
  have hopening : (Node.group 1 percentOpening).points scene false p =
      [(p.move 2).mark 1 ⟨p.pos, p.pos + 2⟩] := by
    rw [Node.points_group, points_percentOpening h]
    rfl
  have hm : scene.rest ((p.move 2).mark 1 ⟨p.pos, p.pos + 2⟩) = ' ' ::
      (body ++ ' ' :: '%' :: '}' :: r) := by
    rw [scene.rest_mark, scene.rest_move, h]
    simp [percentText]
  rw [percentTree_node, Node.First, Node.points_seq_singleton hopening]
  refine Node.First.near_seq (i := 1) ?_ ?_ (first_contents (r := r) hbody ?_)
  · simp [Node.runLength, hm, CharSet.holds_single_exact]
  · -- the contents do not begin with the space
    intro j hj
    obtain rfl : j = 0 := by omega
    refine Node.points_seq_nil_left ?_
    rw [Node.points_group, percentContents, Node.points_seq_nil_left (Node.points_one_of_not ?_)]
    · rfl
    · intro c hc
      rw [Point.move_zero, hm, List.head?_cons, Option.some.injEq] at hc
      subst hc
      rfl
  · rw [scene.rest_move, hm]
    rfl

end matching

/-! ### Texts that are left alone -/

theorem between_of_drop {text : Array Char} {i : Nat} {a b c : List Char}
    (h : text.toList.drop i = a ++ (b ++ c)) :
    between text (i + a.length) (i + a.length + b.length) = b := by
  rw [between_eq, ← List.drop_drop, h, List.drop_left, Nat.add_sub_cancel_left, List.take_left]

/-- A tag that is spaced already is spaced as it is. -/
theorem joined_captures {text : Array Char} {body r : List Char} {i : Nat}
    (h : text.toList.drop i = percentText body ++ r) {m : Match}
    (hm : m = .ofPoint (behindContents ((((Point.at i).move 2).mark 1 ⟨i, i + 2⟩).move 1)
      body.length)) :
    joinWith [' '] ((List.range 3).map fun k => m.capture text (k + 1)) = m.text text := by
  subst hm
  have hpiece : ∀ {j k : Nat} (a b c : List Char), percentText body ++ r = a ++ (b ++ c) →
      i + a.length = j → j + b.length = k → between text j k = b := by
    rintro j k a b c hsplit rfl rfl
    exact between_of_drop (h.trans hsplit)
  have hopening : between text i (i + 2) = ['{', '%'] :=
    hpiece [] ['{', '%'] (' ' :: (body ++ ' ' :: '%' :: '}' :: r)) (by simp [percentText]) rfl rfl
  have hbody : between text (i + 2 + 1) (i + 2 + 1 + body.length) = body :=
    hpiece ['{', '%', ' '] body (' ' :: '%' :: '}' :: r) (by simp [percentText]) rfl rfl
  have hclosing : between text (i + 2 + 1 + body.length + 1) (i + 2 + 1 + body.length + 3) =
      ['%', '}'] :=
    hpiece ('{' :: '%' :: ' ' :: (body ++ [' '])) ['%', '}'] r (by simp [percentText])
      (by simp; omega) rfl
  have htext : between text i (i + 2 + 1 + body.length + 3) = percentText body :=
    hpiece [] (percentText body) r rfl rfl (by simp [percentText]; omega)
  calc joinWith [' '] [between text i (i + 2), between text (i + 2 + 1) (i + 2 + 1 + body.length),
        between text (i + 2 + 1 + body.length + 1) (i + 2 + 1 + body.length + 3)]
      = percentText body := by
        rw [hopening, hbody, hclosing]
        simp [joinWith, percentText]
    _ = between text i (i + 2 + 1 + body.length + 3) := htext.symm

/-- Each brace of a spaced text begins a tag. -/
theorem Spaced.exists_tag {scene : Scene} {p q : Point} (h : Spaced scene.text.toList) {n : Node}
    (hsolid : n.solid = true) (hbegins : n.begins (· == '{') = true)
    (hn : n.Reach scene false p q) :
    ∃ body r, TagBody body ∧ scene.rest p = percentText body ++ r := by
  obtain ⟨c, r, hr, hc⟩ := Node.exists_good_of_begins hbegins hn (Node.lt_of_solid hsolid hn)
  refine h (scene.rest p) (List.drop_suffix _ _) ?_
  rw [hr, List.head?_cons, beq_iff_eq.1 hc]

theorem spaceGroups_percentTag {text : List Char} (h : Spaced text) (ignored : List Span) :
    spaceGroups ignored 3 percentTag text = text := by
  rw [spaceGroups]
  refine (replaceAll_eq_self fun m hm => ?_).trans (by simp)
  split
  · rfl
  rw [percentTag_eq] at hm
  have hfree : (percentTree.pattern {}).node.originFree = true := Choice.originFree_node _ _
  obtain ⟨i, hi, ⟨q, hq⟩, hfirst⟩ := exists_place_of_mem_findAll hfree hm
  have hspaced : Spaced ((percentTree.pattern {}).scene text.toArray 0).text.toList := h
  obtain ⟨body, r, hbody, hr⟩ := hspaced.exists_tag (by rfl) (by rfl) (Node.reach_of_mem_points hq)
  have hlt : i < i + 2 + 1 + body.length + 3 := by omega
  exact joined_captures hr (hfirst _ (first_percentTag hbody hr) hlt)

/-- Whether the pattern begins with a brace and no tag lets it go on. -/
def barsTags (n : Node) : Bool :=
  n.solid && n.begins (· == '{') &&
    tagHeads.all fun h => (n.walkOver ('{' :: '%' :: ' ' :: h.toList)).isEmpty

theorem Spaced.not_reach {scene : Scene} {p q : Point} (h : Spaced scene.text.toList) {n : Node}
    (hn : barsTags n = true) : ¬n.Reach scene false p q := by
  intro hreach
  simp only [barsTags, Bool.and_eq_true, List.all_eq_true, List.isEmpty_iff] at hn
  obtain ⟨⟨hsolid, hbegins⟩, hwalk⟩ := hn
  obtain ⟨body, r, hbody, hr⟩ := h.exists_tag hsolid hbegins hreach
  obtain ⟨w, hw, s, rfl⟩ := hbody.head
  refine Node.not_reach_of_walkOver _ (s ++ [' ', '%', '}'] ++ r) ?_ (hwalk w hw) hreach
  rw [show scene.text.toList.drop p.pos = _ from hr]
  simp [percentText]

/-- A pattern without the first part of its sequence. -/
def withoutFirst : Node → Node
  | .seq _ b => b
  | n => n

theorem exists_reach_withoutFirst {scene : Scene} {p q : Point} {n : Node}
    (h : n.Reach scene false p q) : ∃ m, (withoutFirst n).Reach scene false m q := by
  cases n with
  | seq a b =>
    obtain ⟨m, -, hm⟩ := h
    exact ⟨m, hm⟩
  | _ => exact ⟨p, h⟩

theorem findAll_of_barsTags {text : List Char} (h : Spaced text) {p : Pattern}
    (hp : barsTags p.node = true ∨ barsTags (withoutFirst p.node) = true) :
    p.findAll text.toArray = [] := by
  refine findAll_eq_nil fun scene hscene i q _ hreach => ?_
  have hspaced : Spaced scene.text.toList := by simpa [hscene] using h
  obtain hp | hp := hp
  · exact hspaced.not_reach hp hreach
  · obtain ⟨m, hm⟩ := exists_reach_withoutFirst hreach
    exact hspaced.not_reach hp hm

theorem replaceAll_of_barsTags {text : List Char} (h : Spaced text) {p : Pattern}
    {f : Match → List Char} (hp : barsTags p.node = true) : p.replaceAll f text.toArray = text :=
  (replaceAll_eq_self (by simp [findAll_of_barsTags h (.inl hp)])).trans (by simp)

theorem barsTags_hashTag : barsTags hashTag.node = true := by
  rw [hashTag_eq]
  decide +kernel

theorem barsTags_braceTag : barsTags braceTag.node = true := by
  rw [braceTag_eq]
  decide +kernel

/-- Behind the leading spaces neither data pattern goes on at a tag. -/
theorem barsTags_assignment : barsTags (withoutFirst assignment.node) = true := by
  rw [assignment_eq]
  decide +kernel

theorem barsTags_call : barsTags (withoutFirst call.node) = true := by
  rw [call_eq]
  decide +kernel

theorem spaceTags_of_spaced {s : Settings} {text : List Char} (h : Spaced text) :
    spaceTags s text = text := by
  simp only [spaceTags]
  split_ifs
  · exact replaceAll_of_barsTags h barsTags_hashTag
  · rfl
  · rw [spaceGroups_percentTag h]
    exact replaceAll_of_barsTags h barsTags_braceTag

theorem dataless_of_spaced {text : List Char} (h : Spaced text) : Dataless text :=
  ⟨findAll_of_barsTags h (.inr barsTags_assignment), findAll_of_barsTags h (.inr barsTags_call)⟩

end TemplateTidy.Layout
