import TemplateTidy.Proofs.Lint.VoidNames
import TemplateTidy.Proofs.Region.Absence

/-! # Comments that turn a rule off

A template comment that names a rule begins a region in which the rule is off, unless the region of
an earlier comment goes over it (`mem_found_or_covered`): matches do not overlap, so such a comment
is part of that region and its code is never read.  A comment that begins a region has its code as
the one code of the region, and without an on mark behind it the region goes to the end of the text
(`mem_ruleRegions_of_mark`). -/

namespace TemplateTidy

/-! ### Matches at a place -/

namespace Node

variable {scene scene' : Scene} {p p' q : Point} {a b : Node}

/-- Whether a pattern looks at nothing but the text ahead, character by character. -/
def isLocal : Node → Bool
  | .empty | .one _ => true
  | .seq a b => a.isLocal && b.isLocal
  | .rep (.one _) _ none _ => true
  | _ => false

/-- A local pattern takes the same lengths wherever the same text is ahead. -/
theorem exists_lengths : ∀ {n : Node}, n.isLocal = true → ∀ {p p' : Point},
    scene.rest p = scene'.rest p' →
    ∃ ks : List Nat, n.points scene false p = ks.map p.move ∧
    n.points scene' false p' = ks.map p'.move
  | .empty, _, p, p', _ => ⟨[0], rfl, rfl⟩
  | .one cs, _, p, p', h => by
      refine ⟨if (scene.rest p).head?.any cs.holds then [1] else [], ?_, ?_⟩
      · rw [points_one]
        cases scene.rest p with
        | nil => rfl
        | cons c r => by_cases hc : cs.holds c = true <;> simp [hc]
      · rw [points_one, ← h]
        cases scene.rest p with
        | nil => rfl
        | cons c r => by_cases hc : cs.holds c = true <;> simp [hc]
  | .seq a b, hn, p, p', h => by
      obtain ⟨ha, hb⟩ := Bool.and_eq_true_iff.1 hn
      obtain ⟨ks, hks, hks'⟩ := exists_lengths ha h
      have hnext : ∀ k, ∃ ls : List Nat, b.points scene false (p.move k) = ls.map (p.move k).move ∧
          b.points scene' false (p'.move k) = ls.map (p'.move k).move :=
        fun k => exists_lengths hb (by rw [Scene.rest_move, Scene.rest_move, h])
      choose f hf using hnext
      have hmove : ∀ (p : Point) (k : Nat), (p.move k).move = fun l => p.move (k + l) :=
        fun p k => funext fun l => p.move_move k l
      refine ⟨ks.flatMap fun k => (f k).map (k + ·), ?_, ?_⟩
      · simp [points_seq, hks, List.flatMap_map, List.map_flatMap, hf, hmove, Function.comp_def]
      · simp [points_seq, hks', List.flatMap_map, List.map_flatMap, hf, hmove, Function.comp_def]
  | .rep (.one cs) least none reluctant, _, p, p', h => by
      have hlen : runLength cs (scene.rest p) ≤ scene.text.size :=
        (runLength_le _ _).trans (scene.length_rest_le p)
      have hlen' : runLength cs (scene.rest p) ≤ scene'.text.size := by
        rw [h]
        exact (runLength_le _ _).trans (scene'.length_rest_le p')
      let near := (List.range (runLength cs (scene.rest p) + 1)).drop least
      refine ⟨if reluctant then near else near.reverse, ?_, ?_⟩
      · rw [points_run]
        simp only [Option.getD_none, Nat.min_eq_right hlen]
        cases reluctant <;> simp [near, List.map_drop]
      · rw [points_run, ← h]
        simp only [Option.getD_none, Nat.min_eq_right hlen']
        cases reluctant <;> simp [near, List.map_drop]

/-- A greedy run of steps goes on for as long as there are steps. -/
theorem First.far_steps (ha : a.isStep = true) {i : Nat} (hi : p.pos + i ≤ scene.text.size)
    (hsteps : ∀ j < i, a.points scene false (p.move j) = [p.move (j + 1)])
    (hstop : a.points scene false (p.move i) = []) :
    (Node.rep a 0 none false).First scene p (p.move i) := by
  have key : ∀ (i fuel : Nat) (p : Point), i ≤ fuel →
      (∀ j < i, a.points scene false (p.move j) = [p.move (j + 1)]) →
      a.points scene false (p.move i) = [] →
      nearest (fun p => (a.points scene false p).head?) fuel 0 p =
      (List.range (i + 1)).map p.move := by
    intro i
    induction i with
    | zero =>
      rintro (_ | fuel) p _ _ hstop
      · rfl
      · rw [Point.move_zero] at hstop
        simp [nearest, hstop]
    | succ i ih =>
      intro fuel p hfuel hsteps hstop
      obtain ⟨fuel, rfl⟩ : ∃ k, fuel = k + 1 := ⟨fuel - 1, by omega⟩
      have hfirst : (a.points scene false p).head? = some (p.move 1) := by
        rw [show p = p.move 0 from rfl, hsteps 0 (by omega)]
        rfl
      have hrest := ih fuel (p.move 1) (by omega)
        (fun j hj => by simpa [Nat.add_comm] using hsteps (j + 1) (by omega))
        (by simpa [Nat.add_comm] using hstop)
      simp only [nearest, if_true, hfirst, hrest]
      rw [List.range_succ_eq_map (n := i + 1)]
      simp [Function.comp_def, Nat.add_comm]
  rw [First, points, if_pos ha, runPoints_eq]
  simp only [Option.getD_none, List.drop_zero, Bool.false_eq_true, if_false, Nat.min_self]
  rw [key i _ p (by omega) hsteps hstop, List.range_succ]
  simp

/-- A reluctant run of at least one character in a group stops at the first place from which the
rest goes on. -/
theorem First.near_some_group_seq {cs : CharSet} {g i : Nat} (hone : 1 ≤ i)
    (hi : i ≤ runLength cs (scene.rest p))
    (hbefore : ∀ j, 1 ≤ j → j < i → b.points scene false ((p.move j).mark g ⟨p.pos, p.pos + j⟩) =
      [])
    (hq : b.First scene ((p.move i).mark g ⟨p.pos, p.pos + i⟩) q) :
    (Node.seq (.group g (.rep (.one cs) 1 none true)) b).First scene p q := by
  have hle : runLength cs (scene.rest p) ≤ scene.text.size :=
    (runLength_le _ _).trans (scene.length_rest_le _)
  have hpoints : (Node.group g (.rep (.one cs) 1 none true)).points scene false p =
      (((List.range i).drop 1).map fun j => (p.move j).mark g ⟨p.pos, p.pos + j⟩) ++
        (p.move i).mark g ⟨p.pos, p.pos + i⟩ ::
        (List.range' (i + 1) (runLength cs (scene.rest p) - i)).map fun j =>
          (p.move j).mark g ⟨p.pos, p.pos + j⟩ := by
    rw [points_group, points_run]
    simp only [Option.getD_none, Nat.min_eq_right hle, if_true]
    rw [range_map_move_split _ hi, List.drop_append_of_le_length (by simpa using hone),
      ← List.map_drop, List.map_append, List.map_cons, List.map_map, List.map_map]
    rfl
  refine First.seq_split hpoints (fun z hz => ?_) hq
  obtain ⟨j, hj, rfl⟩ := List.mem_map.1 hz
  rw [List.range_eq_range', List.drop_range', List.mem_range'_1] at hj
  exact hbefore j (by omega) (by omega)

end Node

namespace Pattern

/-- Where a match begins, it is found, or a match that is found goes over the place. -/
theorem mem_found_or_covered {p : Pattern} (hfree : p.node.originFree = true)
    (hkeep : p.node.keepless = true) (hsolid : p.node.solid = true) {text : Array Char} {n : Nat}
    {q : Point} (hn : n ≤ text.size)
    (hq : (p.pointsAt text n).head? = some q) : ∀ {pos : Nat}, pos ≤ n →
      .ofPoint q ∈ p.found text pos false ∨ ∃ m ∈ p.found text pos false, m.start < n ∧
      n < m.stop := by
  intro pos hpos
  obtain ⟨k, hk⟩ : ∃ k, n = pos + k := ⟨n - pos, by omega⟩
  induction k using Nat.strong_induction_on generalizing pos with
  | _ k ih =>
    cases hhead : (p.pointsAt text pos).head? with
    | none =>
      have hnil : p.pointsAt text pos = [] := List.head?_eq_none_iff.1 hhead
      obtain ⟨l, rfl⟩ : ∃ l, k = l + 1 := by
        obtain _ | l := k
        · rw [hk, Nat.add_zero, hhead] at hq
          cases hq
        · exact ⟨l, rfl⟩
      rw [found_skip hfree (by omega) (by simp [hnil])]
      exact ih l (by omega) (by omega) (by omega)
    | some r =>
      have hreach := Node.reach_of_mem_points (List.mem_of_head? hhead)
      have hstart : r.start = pos := hreach.start_eq hkeep
      have hlt : pos < r.pos := Node.lt_of_solid hsolid hreach
      rw [found_of_head? hfree (by omega) hhead, show (r.start == r.pos) = false by simp; omega]
      obtain rfl | hk0 := Nat.eq_zero_or_pos k
      · rw [hk, Nat.add_zero, hhead] at hq
        exact .inl (Option.some.inj hq ▸ List.mem_cons_self)
      · by_cases hover : r.pos ≤ n
        · obtain h | ⟨m, hm, h⟩ := ih (n - r.pos) (by omega) hover (by omega)
          · exact .inl (List.mem_cons_of_mem _ h)
          · exact .inr ⟨m, List.mem_cons_of_mem _ hm, h⟩
        · exact .inr ⟨.ofPoint r, List.mem_cons_self,
            show r.start < n by omega, show n < r.pos by omega⟩

/-- Where a match begins that is found, the pattern has a match. -/
theorem pointsAt_start_ne_nil {p : Pattern} (hfree : p.node.originFree = true)
    (hkeep : p.node.keepless = true)
    (hsolid : p.node.solid = true) {text : Array Char} {m : Match} (hm : m ∈ p.findAll text) :
    p.pointsAt text m.start ≠ [] := by
  obtain ⟨i, -, ⟨q', hq'⟩, hm⟩ := exists_place_of_mem_findAll hfree hm
  cases hhead : (p.pointsAt text i).head? with
  | none =>
    rw [List.head?_eq_none_iff.1 hhead] at hq'
    cases hq'
  | some q =>
    have hreach := Node.reach_of_mem_points (List.mem_of_head? hhead)
    have hstart : q.start = i := hreach.start_eq hkeep
    have hlt : i < q.pos := Node.lt_of_solid hsolid hreach
    rw [hm q hhead hlt, show (Match.ofPoint q).start = i from hstart]
    exact List.ne_nil_of_mem hq'

end Pattern

/-! ### Marks -/

namespace Region

open Text Pattern Node

/-- Options of the patterns of regions in which rules are off. -/
def ruleFlags : Flags :=
  { wide with multiline := false }

/-- Regions that template comments turn rules off in. -/
def commentOff : Pattern :=
  .ofSource ruleFlags commentSwitch.fromRuleOff

/-- The template comment that turns rules on again. -/
def commentOn : Pattern :=
  .ofSource ruleFlags commentSwitch.on

theorem commentOff_mem : commentOff ∈ rulesOff :=
  List.mem_map.2 ⟨commentSwitch, by simp, rfl⟩

/-- White space. -/
def spaces : Node :=
  .rep (.one { items := [.named .space true] }) 0 none false

/-- Any character. -/
def anything : CharSet :=
  { items := [], negated := true }

/-! The words of marks. -/

def openWord : List Char := ['\x7b', '#']
def nameWord : List Char := ['d', 'j', 'l', 'i', 'n', 't', ':']
def offWord : List Char := ['o', 'f', 'f']
def onWord : List Char := ['o', 'n']
def closeWord : List Char := ['#', '\x7d']

/-- A word in any letter case, and what follows. -/
def wordThen (word : List Char) (n : Node) : Node :=
  .ofList ((word.map (CharSet.single · .simple)).map .one ++ [n])

/-- The pattern of an on mark. -/
def onNode : Node :=
  wordThen openWord <| .seq spaces <| wordThen nameWord <| .seq spaces <| wordThen onWord <|
    .seq spaces <| .named closeWord

/-- What follows an off mark. -/
def beyondOff : Node :=
  .rep (.seq (.look false false onNode) (.one anything)) 0 none false

theorem commentOn_node : commentOn.node = onNode := by
  unfold commentOn
  rw [Pattern.ofSource_eq_ofChars]
  decide +kernel

theorem commentOff_node :
    commentOff.node = (wordThen openWord <| .seq spaces <| wordThen nameWord <| .seq spaces <|
    wordThen offWord <| .seq (.group 1 (.rep (.one anything) 1 none true)) <|
    wordThen closeWord beyondOff) := by
  unfold commentOff
  rw [Pattern.ofSource_eq_ofChars]
  decide +kernel

theorem commentOff_shape : commentOff.node.originFree = true ∧ commentOff.node.keepless = true ∧
    commentOff.node.solid = true := by
  rw [commentOff_node]
  decide +kernel

variable {text : Array Char} {before code after : List Char}

/-- Without an on mark, what follows an off mark goes to the end. -/
theorem first_beyondOff {scene : Scene} {p : Point} (hrest : scene.rest p = after)
    (hpos : p.pos + after.length = scene.text.size) (hon : commentOn.occurs after.toArray = false) :
    beyondOff.First scene p (p.move after.length) := by
  have hnone : ∀ j ≤ after.length, onNode.points scene false (p.move j) = [] := by
    intro j hj
    have hlengths : ∃ ks : List Nat, onNode.points scene false (p.move j) = ks.map (p.move j).move ∧
        onNode.points (commentOn.scene after.toArray 0) false (.at j) = ks.map (Point.at j).move :=
      exists_lengths (by decide +kernel) (by rw [Scene.rest_move, hrest]; rfl)
    obtain ⟨ks, hks, hks'⟩ := hlengths
    rw [hks, List.map_eq_nil_iff, List.eq_nil_iff_forall_not_mem]
    intro k hk
    have hoccurs : commentOn.occurs after.toArray = true := by
      refine Pattern.occurs_of_mem_points (i := j) (by simpa using hj) (q := (Point.at j).move k) ?_
      rw [commentOn_node, hks']
      exact List.mem_map_of_mem hk
    rw [hon] at hoccurs
    cases hoccurs
  have hlook : ∀ j ≤ after.length, (Node.look false false onNode).points scene false (p.move j) =
      [p.move j] := by
    intro j hj
    rw [points, hnone j hj]
    rfl
  refine First.far_steps rfl (by omega) (fun j hj => ?_) ?_
  · rw [points_seq_singleton (hlook j hj.le), points_one_of_holds (c := after[j])
      (r := after.drop (j + 1)), Point.move_move]
    · rw [Scene.rest_move, hrest, List.drop_eq_getElem_cons hj]
    · rfl
  · rw [points_seq_singleton (hlook _ le_rfl), points_one, Scene.rest_move, hrest, List.drop_length]

/-- A name that a mark can list. -/
structure IsCode (code : List Char) : Prop where
  ne_nil : code ≠ []
  plain : ∀ c ∈ code, c ≠ '#' ∧ c ≠ ',' ∧ isBlank c = false

/-- The comment that turns a rule off. -/
def offMark (code : List Char) : List Char :=
  openWord ++ ' ' :: (nameWord ++ (offWord ++ ' ' :: (code ++ ' ' :: closeWord)))

theorem first_wordThen {scene : Scene} {p q : Point} {word r : List Char} {n : Node}
    (hword : fits (word.map (CharSet.single · .simple)) word = true)
    (hrest : scene.rest p = word ++ r)
    (h : scene.rest (p.move word.length) = r → n.First scene (p.move word.length) q) :
    (wordThen word n).First scene p q := by
  rw [First, wordThen, points_word_then, if_pos (by rw [hrest]; exact fits_append hword),
    List.length_map]
  exact h (by rw [Scene.rest_move, hrest, List.drop_left])

/-- The point where the region of a mark ends, in a text that has `n` characters before the mark. -/
def offPoint (n width stop : Nat) : Point :=
  { pos := stop, start := n, groups := [(1, ⟨n + 13, n + 13 + width⟩)] }

/-- A mark without an on mark behind it is matched to the end of the text, and its group holds the
code. -/
theorem first_offMark (htext : text.toList = before ++ (offMark code ++ after))
    (hcode : IsCode code) (hon : commentOn.occurs after.toArray = false) :
    (commentOff.pointsAt text before.length).head? =
      some (offPoint before.length (code.length + 2) text.size) := by
  have hsize : text.size = before.length + 13 + (code.length + 2) + 2 + after.length := by
    rw [← Array.length_toList, htext]
    simp +arith [offMark, openWord, nameWord, offWord, closeWord]
  have hrest : (commentOff.scene text 0).rest (.at before.length) = offMark code ++ after :=
    rest_at htext
  rw [pointsAt, commentOff_node]
  have htextSize : (commentOff.scene text 0).text.size = text.size := rfl
  generalize commentOff.scene text 0 = scene at hrest htextSize ⊢
  simp only [offMark, List.append_assoc, List.cons_append] at hrest
  refine first_wordThen (by decide +kernel) hrest fun hrest => ?_
  refine First.run_seq (u := [' ']) (Nat.zero_le _) hrest
    (List.forall_mem_singleton.2 (by decide +kernel))
    (by rintro c ⟨⟩; decide +kernel) ?_
  have hrest := (scene.rest_move _ 1).trans (congrArg (List.drop 1) hrest)
  refine first_wordThen (by decide +kernel) hrest fun hrest => ?_
  refine First.run_seq (u := []) (Nat.zero_le _) hrest (by simp) (by rintro c ⟨⟩; decide +kernel) ?_
  refine first_wordThen (by decide +kernel) hrest fun hrest => ?_
  set p := ((((((Point.at before.length).move openWord.length).move [' '].length).move
    nameWord.length).move
    ([] : List Char).length).move offWord.length) with hp
  have hpos : p.pos = before.length + 13 := rfl
  have hwidth : scene.rest p = (' ' :: code ++ [' ']) ++ (closeWord ++ after) := by
    simpa using hrest
  have hlength : (' ' :: code ++ [' ']).length = code.length + 2 := by simp
  refine First.near_some_group_seq (i := code.length + 2) (by omega) ?_ (fun j _ hj => ?_) ?_
  · rw [hwidth, runLength_append (by simp [anything, CharSet.holds]), hlength]
    omega
  · have hj' : j < (' ' :: code ++ [' ']).length := by rwa [hlength]
    have hchar : (' ' :: code ++ [' '])[j] ≠ '#' := by
      intro h
      have hmem : '#' ∈ ' ' :: code ++ [' '] := h ▸ List.getElem_mem hj'
      exact (hcode.plain '#' (by simpa using hmem)).1 rfl
    rw [wordThen, points_word_then, if_neg]
    rw [Scene.rest_mark, Scene.rest_move, hwidth, List.drop_append_of_le_length hj'.le,
      List.drop_eq_getElem_cons hj']
    simp only [closeWord, List.map_cons, List.cons_append, fits, Bool.and_eq_true, not_and]
    intro h
    exact absurd (CharSet.eq_of_holds (by decide) h) hchar
  · refine first_wordThen (by decide +kernel) (r := after) ?_ fun hrest => ?_
    · rw [Scene.rest_mark, Scene.rest_move, hwidth, ← hlength, List.drop_left]
    · have hend : before.length + 13 + (code.length + 2) + 2 + after.length =
        scene.text.size := by omega
      rw [offPoint, ← htextSize, ← hend]
      exact first_beyondOff hrest hend hon

/-! ### Regions of marks -/

theorem strip_code (hcode : IsCode code) : strip (' ' :: code ++ [' ']) = code := by
  have hfirm : Firm code := by
    refine ⟨?_, ?_⟩
    · rw [List.head?_eq_some_head hcode.ne_nil]
      simp [(hcode.plain _ (List.head_mem hcode.ne_nil)).2.2]
    · rw [List.getLast?_eq_some_getLast hcode.ne_nil]
      simp [(hcode.plain _ (List.getLast_mem hcode.ne_nil)).2.2]
  have hleft : stripLeft (' ' :: code ++ [' ']) = stripLeft (code ++ [' ']) := rfl
  show stripRight (stripLeft _) = code
  rw [hleft, stripLeft_of_firm hfirm, stripRight_of_firm hfirm (List.forall_mem_singleton.2 rfl)]

theorem codeSeparator_node : codeSeparator.node =
    .alt (.one { items := [.named .space true] }) (.one (.single ',' .exact)) := by
  unfold codeSeparator
  rw [Pattern.ofSource_eq_ofChars]
  decide +kernel

theorem split_code (hcode : IsCode code) : codeSeparator.split code.toArray = [code] := by
  have hnone : codeSeparator.findAll code.toArray = [] := by
    refine findAll_eq_nil ?_
    rw [codeSeparator_node]
    rintro scene hscene i q - (hq | hq)
    all_goals
      obtain ⟨c, hc, hholds, -⟩ := Scene.stepOver_forward.1 hq
      have hmem : c ∈ code := by
        rw [hscene, List.getElem?_toArray] at hc
        exact List.mem_of_getElem? hc
      obtain ⟨-, hcomma, hblank⟩ := hcode.plain c hmem
    · have hspace : isSpace c = true := by
        simpa [CharSet.holds, CharItem.holds, CharClass.holds] using hholds
      simp [isBlank, hspace] at hblank
    · exact hcomma (CharSet.eq_of_holds (by decide) hholds)
  rw [Pattern.split, hnone, Pattern.split.go]
  simp [Span.of]

variable {s : Span}

/-- A mark that no earlier region goes over begins a region for its code. -/
theorem mem_ruleRegions_of_mark (htext : text.toList = before ++ (offMark code ++ after))
    (hcode : IsCode code) (hon : commentOn.occurs after.toArray = false)
    (hbefore : ∀ r ∈ spansOf commentOff text, r.start < before.length → r.stop ≤ before.length) :
    { span := ⟨before.length, text.size⟩, codes := [code], all := false } ∈ ruleRegions text := by
  have hsize : before.length ≤ text.size := by
    rw [← Array.length_toList, htext, List.length_append]
    omega
  have hfound : Match.ofPoint (offPoint before.length (code.length + 2) text.size) ∈
      commentOff.findAll text := by
    rw [findAll_eq_found]
    obtain h | ⟨m, hm, hlt, hgt⟩ := mem_found_or_covered commentOff_shape.1 commentOff_shape.2.1
      commentOff_shape.2.2 hsize (first_offMark htext hcode hon) (Nat.zero_le _)
    · exact h
    · have := hbefore m.span (List.mem_map_of_mem (by rwa [findAll_eq_found])) hlt
      exact absurd this (not_le.2 hgt)
  refine List.mem_flatMap.2 ⟨commentOff, commentOff_mem, List.mem_map.2 ⟨_, hfound, ?_⟩⟩
  have hcapture : (Match.ofPoint (offPoint before.length (code.length + 2) text.size)).capture
      text 1 = ' ' :: code ++ [' '] := by
    refine capture_group (u := before ++ (openWord ++ ' ' :: (nameWord ++ offWord)))
      (r := closeWord ++ after) ?_ ?_
    · rw [htext]
      simp [offMark]
    · rw [List.length_append]
      simp [offPoint, Point.group?, openWord, nameWord, offWord]
  simp only [hcapture, strip_code hcode, split_code hcode, List.isEmpty_eq_false_iff.2 hcode.ne_nil]
  rfl

/-- Behind a mark that no earlier region goes over its rule is off. -/
theorem ruleOff_of_mark (htext : text.toList = before ++ (offMark code ++ after))
    (hcode : IsCode code) (hon : commentOn.occurs after.toArray = false)
    (hbefore : ∀ r ∈ spansOf commentOff text, r.start < before.length → r.stop ≤ before.length)
    (hstart : before.length ≤ s.start) (hend : s.start ≤ text.size) :
    ruleOff text code s = true := by
  refine List.any_eq_true.2 ⟨_, mem_ruleRegions_of_mark htext hcode hon hbefore, ?_⟩
  simp [RuleRegion.covers, hstart, hend]

/-- The region of a mark goes over a second mark. -/
example : spansOf commentOff (offMark ['A'] ++ offMark ['B']).toArray = [⟨0, 36⟩] := by
  unfold commentOff
  rw [ofSource_eq_ofChars]
  decide +kernel

/-- No region begins before a mark if no template comment opens there. -/
theorem le_start_of_mem_commentOff (htext : text.toList = before ++ (offMark code ++ after))
    (hopen : ¬openWord <:+: before) {r : Span} (hr : r ∈ spansOf commentOff text) :
    before.length ≤ r.start := by
  have hnone : ∀ i < before.length, commentOff.pointsAt text i = [] := by
    intro i hi
    have hrest : (commentOff.scene text 0).rest (.at i) = before.drop i ++
        (offMark code ++ after) := by
      show text.toList.drop i = _
      rw [htext, List.drop_append_of_le_length hi.le]
    rw [pointsAt, commentOff_node, wordThen, points_word_then, if_neg]
    rw [hrest, List.drop_eq_getElem_cons hi]
    simp only [openWord, List.map_cons, List.map_nil, List.cons_append, fits, Bool.and_eq_true,
      not_and]
    intro hbrace hhash
    have hbrace : before[i] = '\x7b' := CharSet.eq_of_holds (by decide) hbrace
    by_cases hlast : i + 1 < before.length
    · rw [List.drop_eq_getElem_cons hlast, List.cons_append, fits, Bool.and_eq_true] at hhash
      have hhash : before[i + 1] = '#' := CharSet.eq_of_holds (by decide) hhash.1
      refine hopen ⟨before.take i, before.drop (i + 2), ?_⟩
      rw [openWord, ← hbrace, ← hhash, List.append_assoc, List.cons_append, List.singleton_append,
        ← List.drop_eq_getElem_cons hlast, ← List.drop_eq_getElem_cons hi, List.take_append_drop]
    · -- the mark itself begins with a brace
      rw [List.drop_eq_nil_of_le (by omega)] at hhash
      have hhash : (CharSet.single '#' .simple).holds '\x7b' = true :=
        (Bool.and_eq_true_iff.1 hhash).1
      exact absurd hhash (by decide)
  obtain ⟨m, hm, rfl⟩ := List.mem_map.1 hr
  by_contra hlt
  exact pointsAt_start_ne_nil commentOff_shape.1 commentOff_shape.2.1 commentOff_shape.2.2 hm
    (hnone _ (not_le.1 hlt))

end Region

end TemplateTidy
