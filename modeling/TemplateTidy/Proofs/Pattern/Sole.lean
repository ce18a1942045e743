import TemplateTidy.Proofs.Pattern.Beginnings

/-! # One way through a pattern

`Node.Sole` says that a pattern has one way only from a point, so that its preferred way is that one
and no other has to be ruled out afterwards.  The name of a tag is the main case: words may begin
one another, but only one of them ends at the edge of the name (`Sole.nameTail`).  For runs of
characters there are the preferred ways of a sequence that begins with a run (`First.run_seq`,
`First.near_group_seq`). -/

namespace TemplateTidy

namespace Node

variable {scene : Scene} {p q m : Point} {a b : Node} {cs : CharSet} {u r : List Char} {c : Char}

/-! ### Runs -/

theorem runLength_append (hu : ∀ c ∈ u, cs.holds c = true) :
    runLength cs (u ++ r) = u.length + runLength cs r := by
  rw [runLength, List.takeWhile_append_of_pos hu, List.length_append, runLength]

/-- A run ends where the next character is none of the set. -/
theorem runLength_eq (hu : ∀ c ∈ u, cs.holds c = true) (hr : ∀ c ∈ r.head?, cs.holds c = false) :
    runLength cs (u ++ r) = u.length := by
  rw [runLength_append hu]
  cases r with
  | nil => rfl
  | cons c r => simp [runLength, hr c rfl]

/-- A run does not get past a character that the set does not hold. -/
theorem runLength_le_of_stop (hc : cs.holds c = false) : runLength cs (u ++ c :: r) ≤ u.length := by
  induction u with
  | nil => simp [runLength, hc]
  | cons d u ih =>
    by_cases hd : cs.holds d = true
    · simpa [runLength, hd] using ih
    · simp [runLength, hd]

/-- A character stands at every place up to a given one. -/
theorem exists_drop_eq_cons {i : Nat} (hi : i ≤ u.length) :
    ∃ d l, (u ++ c :: r).drop i = d :: l ∧ d ∈ u ++ [c] := by
  rcases hi.lt_or_eq with hlt | rfl
  · exact ⟨u[i], u.drop (i + 1) ++ c :: r, by
      rw [List.drop_append_of_le_length hi, List.drop_eq_getElem_cons hlt, List.cons_append], by
        simp⟩
  · exact ⟨c, r, by simp, by simp⟩

/-- A greedy run takes all of its characters if what follows goes on from there. -/
theorem First.run_seq {least : Nat} (hleast : least ≤ u.length) (hrest : scene.rest p = u ++ r)
    (hu : ∀ c ∈ u, cs.holds c = true) (hr : ∀ c ∈ r.head?, cs.holds c = false)
    (hq : b.First scene (p.move u.length) q) :
    (Node.seq (.rep (.one cs) least none false) b).First scene p q := by
  have hrun : runLength cs (scene.rest p) = u.length := by rw [hrest, runLength_eq hu hr]
  exact First.far_seq hleast hrun.ge (fun j hj hj' => absurd hj' (by omega)) hq

/-- A reluctant run in a group stops at the first place from which the rest goes on. -/
theorem First.near_group_seq {g i : Nat} (hi : i ≤ runLength cs (scene.rest p))
    (hbefore : ∀ j < i, b.points scene false ((p.move j).mark g ⟨p.pos, p.pos + j⟩) = [])
    (hq : b.First scene ((p.move i).mark g ⟨p.pos, p.pos + i⟩) q) :
    (Node.seq (.group g (.rep (.one cs) 0 none true)) b).First scene p q := by
  have hpoints : (Node.group g (.rep (.one cs) 0 none true)).points scene false p =
      ((List.range i).map fun j => (p.move j).mark g ⟨p.pos, p.pos + j⟩) ++
        (p.move i).mark g ⟨p.pos, p.pos + i⟩ ::
        (List.range' (i + 1) (runLength cs (scene.rest p) - i)).map fun j =>
          (p.move j).mark g ⟨p.pos, p.pos + j⟩ := by
    have hle : runLength cs (scene.rest p) ≤ scene.text.size :=
      (runLength_le _ _).trans (scene.length_rest_le _)
    rw [points_group, points_run]
    simp only [Option.getD_none, Nat.min_eq_right hle, List.drop_zero, if_true]
    rw [range_map_move_split _ hi, List.map_append, List.map_cons, List.map_map, List.map_map]
    rfl
  refine First.seq_split hpoints (fun z hz => ?_) hq
  obtain ⟨j, hj, rfl⟩ := List.mem_map.1 hz
  exact hbefore j (by simpa using hj)

/-- A run that stops at a character leads nowhere if nothing goes on up to there. -/
theorem points_run_seq_nil {reluctant : Bool} (hrest : scene.rest p = u ++ c :: r)
    (hc : cs.holds c = false) (h : ∀ i ≤ u.length, b.points scene false (p.move i) = []) :
    (Node.seq (.rep (.one cs) 0 none reluctant) b).points scene false p = [] := by
  refine points_seq_nil_right fun m hm => ?_
  obtain ⟨i, -, hi, rfl⟩ := mem_points_run.1 hm
  rw [hrest] at hi
  exact h i (hi.trans (runLength_le_of_stop hc))

/-- From inside a text whose last character is none of the set, a run stops inside the text. -/
theorem points_run_seq_inside {reluctant : Bool} {v : List Char} {j : Nat}
    (hrest : scene.rest p = v ++ r) (hm : m.pos = p.pos + j) (hj : j < v.length)
    (hlast : ∀ c ∈ v.getLast?, cs.holds c = false)
    (hb : ∀ q d l, scene.rest q = d :: l → d ∈ v → b.points scene false q = []) :
    (Node.seq (.rep (.one cs) 0 none reluctant) b).points scene false m = [] := by
  obtain ⟨u, c, rfl⟩ : ∃ u c, v = u ++ [c] :=
    ⟨_, _, (List.dropLast_append_getLast (List.ne_nil_of_length_pos (by omega))).symm⟩
  have hj : j ≤ u.length := by
    rw [List.length_append, List.length_singleton] at hj
    omega
  have hrest' : scene.rest m = u.drop j ++ c :: r := by
    rw [scene.rest_eq_of_pos (p.move j) hm, Scene.rest_move, hrest, List.append_assoc,
      List.drop_append_of_le_length hj]
    rfl
  refine points_run_seq_nil hrest' (hlast c (by simp)) fun i hi => ?_
  obtain ⟨d, l, hd, hmem⟩ := exists_drop_eq_cons (r := r) (c := c) hi
  refine hb _ d l (by rw [Scene.rest_move, hrest', hd]) ?_
  obtain hmem | hmem := List.mem_append.1 hmem
  · exact List.mem_append_left _ (List.mem_of_mem_drop hmem)
  · exact List.mem_append_right _ hmem

/-- A repetition that cannot begin leaves the point where it is. -/
theorem points_rep_of_nil {most : Option Nat} {reluctant : Bool} (h : a.points scene false p = []) :
    (Node.rep a 0 most reluctant).points scene false p = [p] := by
  rw [points]
  split
  · have hnear : ∀ fuel, nearest (fun p => (a.points scene false p).head?) fuel 0 p = [p] := by
      rintro (_ | fuel) <;> simp [nearest, h]
    rw [runPoints_eq, hnear]
    cases reluctant <;> rfl
  · rw [roundPoints]
    cases hm : most.all (0 < ·) <;> cases reluctant <;> simp [h, gather]

theorem First.of_points {l : List Point} (h : a.points scene false p = q :: l) :
    a.First scene p q := by
  rw [First, h]
  rfl

/-! ### One way only -/

/-- A pattern has one way only from a point. -/
structure Sole (n : Node) (scene : Scene) (p q : Point) : Prop where
  mem : q ∈ n.points scene false p
  only : ∀ q' ∈ n.points scene false p, q' = q

theorem Sole.of_points (h : a.points scene false p = [q]) : a.Sole scene p q :=
  ⟨by simp [h], by simp [h]⟩

theorem Sole.first (h : a.Sole scene p q) : a.First scene p q := by
  obtain ⟨q', l, hl⟩ := List.exists_cons_of_ne_nil (List.ne_nil_of_mem h.mem)
  obtain rfl := h.only q' (by simp [hl])
  exact .of_points hl

/-- Ways of the first part that the second part does not go on from do not count. -/
theorem Sole.seq_of (hm : m ∈ a.points scene false p)
    (hothers : ∀ m' ∈ a.points scene false p, m' = m ∨ b.points scene false m' = [])
    (hq : b.Sole scene m q) : (Node.seq a b).Sole scene p q where
  mem := by
    rw [points_seq]
    exact List.mem_flatMap.2 ⟨m, hm, hq.mem⟩
  only q' hq' := by
    rw [points_seq] at hq'
    obtain ⟨m', hm', hq'⟩ := List.mem_flatMap.1 hq'
    obtain rfl | hnil := hothers m' hm'
    · exact hq.only q' hq'
    · rw [hnil] at hq'
      cases hq'

theorem Sole.seq (hm : a.Sole scene p m) (hq : b.Sole scene m q) : (Node.seq a b).Sole scene p q :=
  .seq_of hm.mem (fun m' hm' => .inl (hm.only m' hm')) hq

theorem Sole.group {i : Nat} (h : a.Sole scene p q) :
    (Node.group i a).Sole scene p (q.mark i ⟨p.pos, q.pos⟩) where
  mem := by
    rw [points_group]
    exact List.mem_map.2 ⟨q, h.mem, rfl⟩
  only q' hq' := by
    rw [points_group] at hq'
    obtain ⟨m, hm, rfl⟩ := List.mem_map.1 hq'
    rw [h.only m hm]

theorem Sole.one (hr : scene.rest p = c :: r) (h : cs.holds c = true) :
    (Node.one cs).Sole scene p (p.move 1) :=
  .of_points (points_one_of_holds hr h)

theorem Sole.anchor {k : Anchor} (h : scene.holdsAt k p.pos = true) :
    (Node.anchor k).Sole scene p p :=
  .of_points (points_anchor_of_holds h)

/-! ### Names in tags -/

theorem fits_append : ∀ {w : List CharSet} {t : List Char}, fits w t = true → fits w (t ++ r) = true
  | [], _, _ => rfl
  | _ :: _, [], h => by cases h
  | cs :: w, c :: t, h => by
      simp only [List.cons_append, fits, Bool.and_eq_true] at h ⊢
      exact ⟨h.1, fits_append h.2⟩

theorem length_le_of_fits : ∀ {w : List CharSet} {t : List Char}, (∀ cs ∈ w, cs.holds c = false) →
    fits w (t ++ c :: r) = true → w.length ≤ t.length
  | [], _, _, _ => Nat.zero_le _
  | cs :: w, [], hw, h => by
      simp only [List.nil_append, fits, Bool.and_eq_true] at h
      rw [hw cs (by simp)] at h
      cases h.1
  | cs :: w, d :: t, hw, h => by
      simp only [List.cons_append, fits, Bool.and_eq_true] at h
      exact Nat.succ_le_succ (length_le_of_fits (fun cs hcs => hw cs (by simp [hcs])) h.2)

/-- The name in a tag and the end of the tag: one of the words, an edge, pieces and a closing
bracket. -/
def nameTail (names piece : Node) (bracket : CharSet) : Node :=
  .seq names <| .seq (.anchor (.wordEdge false true)) <|
    .seq (.rep piece 0 none false) (.one bracket)

/-- A name that ends in one way only has one way through the tag. -/
theorem Sole.nameTail {names piece : Node} {bracket : CharSet} (hm : m ∈ names.points scene false p)
    (honly : ∀ m' ∈ names.points scene false p, scene.holdsAt (.wordEdge false true) m'.pos = true →
      m' = m)
    (hedge : scene.holdsAt (.wordEdge false true) m.pos = true) (hrest : scene.rest m = '>' :: r)
    (hpiece : piece.walkOver ['>'] = []) (hbracket : bracket.holds '>' = true) :
    (nameTail names piece bracket).Sole scene p (m.move 1) := by
  refine .seq_of hm (fun m' hm' => ?_)
    (.seq (.anchor hedge) (.seq (.of_points (points_rep_of_nil ?_)) ?_))
  · by_cases hedge' : scene.holdsAt (.wordEdge false true) m'.pos = true
    · exact .inl (honly m' hm' hedge')
    · exact .inr (points_seq_nil_left (points_anchor_of_not (by simpa using hedge')))
  · exact points_eq_nil fun q => not_reach_of_walkOver ['>'] r hrest hpiece
  · exact .one hrest hbracket

section names

variable {ws : List (List CharSet)} {t : List Char} (hws : ∀ w ∈ ws, w ≠ [] ∧ ∀ cs ∈ w,
    cs.holds '>' = false)
  (ht : ∀ c ∈ t, isSmall c = true) (hrest : scene.rest p = t ++ '>' :: r)
include hws ht hrest

/-- Of the words only the name itself ends at an edge. -/
theorem eq_of_mem_points_words (hq : q ∈ (choice (ws.map word)).points scene false p)
    (hedge : scene.holdsAt (.wordEdge false true) q.pos = true) : q = p.move t.length := by
  obtain ⟨w, hw, hfits, rfl⟩ := mem_points_words.1 hq
  obtain ⟨hne, hbracket⟩ := hws w hw
  rw [hrest] at hfits
  have hle := length_le_of_fits hbracket hfits
  have hlen : (t.take w.length).length = w.length := by simpa using hle
  have htake : t.take w.length ≠ [] := by
    intro he
    rw [he] at hlen
    exact hne (List.length_eq_zero_iff.1 hlen.symm)
  rw [Point.move_pos, ← hlen] at hedge
  have heq := (edge_after_name hrest (List.take_prefix _ _) htake ht (by decide)).1 hedge
  rw [← hlen, heq]

/-- A name among the words ends at an edge. -/
theorem points_name (hname : ∃ w ∈ ws, w.length = t.length ∧ fits w t = true) :
    p.move t.length ∈ (choice (ws.map word)).points scene false p ∧
      scene.holdsAt (.wordEdge false true) (p.move t.length).pos = true := by
  obtain ⟨w, hw, hlen, hfits⟩ := hname
  have hne : t ≠ [] := by
    rintro rfl
    exact (hws w hw).1 (List.length_eq_zero_iff.1 hlen)
  exact ⟨mem_points_words.2 ⟨w, hw, by rw [hrest, fits_append hfits], by rw [hlen]⟩,
    (edge_after_name hrest List.prefix_rfl hne ht (by decide)).2 rfl⟩

end names

/-- The beginning of a tag. -/
def bracket (closing : Bool) : List Char :=
  if closing then ['<', '/'] else ['<']

/-- The beginning of a tag before a name. -/
theorem Sole.brackets {less slash : CharSet} {n : Node} (closing : Bool)
    (hless : less.holds '<' = true) (hslash : slash.holds '/' = true)
    (hrest : scene.rest p = bracket closing ++ r)
    (hr : closing = false → ∀ c ∈ r.head?, slash.holds c = false) (hn : n.walkOver ['/'] = [])
    (hq : n.Sole scene (p.move (bracket closing).length) q) :
    (Node.seq (.one less) (.seq (.rep (.one slash) 0 (some 1) false) n)).Sole scene p q := by
  cases closing with
  | false =>
    have hrest : scene.rest p = '<' :: r := hrest
    have hrest' : scene.rest (p.move 1) = r := by rw [Scene.rest_move, hrest]; rfl
    refine .seq (.one hrest hless) (.seq (.of_points ?_) hq)
    have hany : r.head?.any slash.holds = false := by
      cases hh : r.head? with
      | none => rfl
      | some c => exact hr rfl c hh
    rw [points_optional, hrest', hany]
    rfl
  | true =>
    have hrest : scene.rest p = '<' :: '/' :: r := hrest
    have hrest' : scene.rest (p.move 1) = '/' :: r := by rw [Scene.rest_move, hrest]; rfl
    have hpoints : (Node.rep (.one slash) 0 (some 1) false).points scene false (p.move 1) =
        [p.move 2, p.move 1] := by
      rw [points_optional, hrest', if_pos (by simpa using hslash)]
      rfl
    refine .seq (.one hrest hless) (.seq_of (by rw [hpoints]; exact List.mem_cons_self)
      (fun m hm => ?_) hq)
    rw [hpoints] at hm
    obtain rfl | rfl : m = p.move 2 ∨ m = p.move 1 := by simpa using hm
    · exact .inl rfl
    · -- without the slash the name would have to begin with it
      exact .inr (points_eq_nil fun q => not_reach_of_walkOver ['/'] r hrest' hn)

end Node

end TemplateTidy
