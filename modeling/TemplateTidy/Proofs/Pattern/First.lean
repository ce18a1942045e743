import TemplateTidy.Proofs.Pattern.Search

/-! # The preferred way of a match

`Node.First` says where the preferred match of a pattern ends, and `Node.points` is computed at a
point from the rest of the text there: for one character (`points_one`), for a run of characters of
a set (`points_run`), for a choice of words (`points_words`).  The preferred way of a sequence leads
over the preferred way of its first part, if the second goes on from there (`First.seq`). -/

namespace TemplateTidy

/-- A point farther on. -/
def Point.move (p : Point) (n : Nat) : Point :=
  { p with pos := p.pos + n }

/-- A point at which a group is remembered. -/
def Point.mark (p : Point) (i : Nat) (held : Span) : Point :=
  { p with groups := (i, held) :: p.groups }

namespace Point

@[simp] theorem move_pos (p : Point) (n : Nat) : (p.move n).pos = p.pos + n := rfl
@[simp] theorem move_start (p : Point) (n : Nat) : (p.move n).start = p.start := rfl
@[simp] theorem move_groups (p : Point) (n : Nat) : (p.move n).groups = p.groups := rfl
@[simp] theorem move_zero (p : Point) : p.move 0 = p := rfl

@[simp] theorem move_move (p : Point) (m n : Nat) : (p.move m).move n = p.move (m + n) := by
  simp [move, Nat.add_assoc]

@[simp] theorem mark_pos (p : Point) (i : Nat) (held : Span) : (p.mark i held).pos = p.pos := rfl
@[simp] theorem mark_start (p : Point) (i : Nat) (held : Span) : (p.mark i held).start = p.start :=
    rfl

@[simp] theorem mark_groups (p : Point) (i : Nat) (held : Span) :
    (p.mark i held).groups = (i, held) :: p.groups := rfl

end Point

theorem CharItem.holds_range_self {c d : Char} : (CharItem.range c c).holds d = (c == d) := by
  rw [holds, Bool.eq_iff_iff, Bool.and_eq_true, decide_eq_true_eq, decide_eq_true_eq, beq_iff_eq]
  constructor
  · rintro ⟨h₁, h₂⟩
    exact Char.le_antisymm h₁ h₂
  · rintro rfl
    exact ⟨Char.le_refl c, Char.le_refl c⟩

theorem CharSet.holds_single_exact {c d : Char} : (CharSet.single c .exact).holds d = (c == d) := by
  simp [CharSet.holds, CharSet.single, CharItem.holds_range_self]

/-- The rest of the text at a point. -/
def Scene.rest (scene : Scene) (p : Point) : List Char :=
  scene.text.toList.drop p.pos

namespace Scene

variable (scene : Scene) (p : Point)

theorem rest_move (n : Nat) : scene.rest (p.move n) = (scene.rest p).drop n := by
  simp [rest, List.drop_drop]

@[simp] theorem rest_mark (i : Nat) (held : Span) : scene.rest (p.mark i held) = scene.rest p := rfl

theorem rest_eq_of_pos {m : Point} (h : m.pos = p.pos) : scene.rest m = scene.rest p := by
  rw [rest, rest, h]

theorem getElem?_pos : scene.text[p.pos]? = (scene.rest p).head? := by
  rw [rest, List.head?_drop]
  simp

theorem getElem?_add (n : Nat) : scene.text[p.pos + n]? = (scene.rest p)[n]? := by
  rw [rest, List.getElem?_drop]
  simp

theorem length_rest_le : (scene.rest p).length ≤ scene.text.size := by
  simp [rest]

end Scene

namespace Node

variable {scene : Scene} {p q m : Point} {a b : Node}

/-- The preferred match from `p` ends at `q`. -/
def First (n : Node) (scene : Scene) (p q : Point) : Prop :=
  (n.points scene false p).head? = some q

/-! ### Single characters and conditions -/

theorem points_one (cs : CharSet) :
    (Node.one cs).points scene false p =
      match scene.rest p with
      | c :: _ => if cs.holds c then [p.move 1] else []
      | [] => [] := by
  rw [points, Scene.stepOver, if_neg (by simp), scene.getElem?_pos]
  cases scene.rest p with
  | nil => rfl
  | cons c r =>
    by_cases h : cs.holds c = true
    · simp [h, Point.move]
    · simp [h]

theorem points_one_of_holds {cs : CharSet} {c : Char} {r : List Char} (hr : scene.rest p = c :: r)
    (h : cs.holds c = true) : (Node.one cs).points scene false p = [p.move 1] := by
  rw [points_one, hr]
  simp [h]

theorem points_one_of_not {cs : CharSet} (h : ∀ c, (scene.rest p).head? = some c →
    cs.holds c = false) : (Node.one cs).points scene false p = [] := by
  rw [points_one]
  cases hr : scene.rest p with
  | nil => rfl
  | cons c r => simp [h c (by simp [hr])]

theorem points_seq : (Node.seq a b).points scene false p =
    (a.points scene false p).flatMap (b.points scene false) := by
  rw [points, if_neg (by simp)]

theorem points_alt : (Node.alt a b).points scene false p =
    a.points scene false p ++ b.points scene false p := by
  rw [points]

theorem points_anchor_of_holds {k : Anchor} (h : scene.holdsAt k p.pos = true) :
    (Node.anchor k).points scene false p = [p] := by
  rw [points, if_pos h]

theorem points_anchor_of_not {k : Anchor} (h : scene.holdsAt k p.pos = false) :
    (Node.anchor k).points scene false p = [] := by
  rw [points, if_neg (by simp [h])]

theorem points_group (i : Nat) : (Node.group i a).points scene false p =
    (a.points scene false p).map fun q => q.mark i ⟨p.pos, q.pos⟩ := by
  rw [points]
  rfl

/-! ### Sequences -/

theorem First.mem {n : Node} (h : n.First scene p q) : q ∈ n.points scene false p :=
  List.mem_of_head? h

theorem points_seq_nil_left (h : a.points scene false p = []) :
    (Node.seq a b).points scene false p = [] := by
  rw [points_seq, h]
  rfl

theorem points_seq_nil_right (h : ∀ m ∈ a.points scene false p, b.points scene false m = []) :
    (Node.seq a b).points scene false p = [] := by
  rw [points_seq]
  exact List.flatMap_eq_nil_iff.2 h

theorem points_seq_singleton (h : a.points scene false p = [m]) :
    (Node.seq a b).points scene false p = b.points scene false m := by
  rw [points_seq, h]
  simp

theorem First.seq (hm : a.First scene p m) (hq : b.First scene m q) :
    (Node.seq a b).First scene p q := by
  unfold First at hm hq ⊢
  rw [points_seq]
  cases hl : a.points scene false p with
  | nil => simp [hl] at hm
  | cons x l =>
    rw [hl, List.head?_cons, Option.some.injEq] at hm
    subst hm
    rw [List.flatMap_cons, List.head?_append, hq]
    rfl

theorem First.group {i : Nat} (h : a.First scene p q) :
    (Node.group i a).First scene p (q.mark i ⟨p.pos, q.pos⟩) := by
  unfold First at h ⊢
  rw [points_group, List.head?_map, h]
  rfl

/-! ### Runs -/

/-- How far a run of characters of a set goes. -/
def runLength (cs : CharSet) (r : List Char) : Nat :=
  (r.takeWhile cs.holds).length

theorem nearest_stepOver (cs : CharSet) :
    ∀ (fuel : Nat) (p : Point), nearest (scene.stepOver false cs) fuel 0 p =
      (List.range (min fuel (runLength cs (scene.rest p)) + 1)).map p.move
  | 0, p => by simp [nearest, Point.move]
  | fuel + 1, p => by
      simp only [nearest, if_true, Nat.zero_sub, List.singleton_append]
      cases hr : scene.rest p with
      | nil =>
        have hstep : scene.stepOver false cs p = none := by
          simp [Scene.stepOver, scene.getElem?_pos, hr]
        simp [hstep, runLength]
      | cons c r =>
        by_cases h : cs.holds c = true
        · have hstep : scene.stepOver false cs p = some (p.move 1) := by
            simp [Scene.stepOver, scene.getElem?_pos, hr, h, Point.move]
          have hlen : runLength cs (c :: r) = runLength cs r + 1 := by simp [runLength, h]
          simp only [hstep]
          rw [nearest_stepOver cs fuel (p.move 1), scene.rest_move, hr, List.drop_one,
            List.tail_cons,
            hlen, Nat.succ_min_succ, List.range_succ_eq_map (n := _ + 1), List.map_cons,
            List.map_map]
          congr 1
          refine List.map_congr_left fun i _ => ?_
          simp [Nat.add_comm]
        · have hstep : scene.stepOver false cs p = none := by
            simp [Scene.stepOver, scene.getElem?_pos, hr, h]
          simp [hstep, runLength, h]

/-- The points of a run of characters of a set. -/
theorem points_run (cs : CharSet) (least : Nat) (most : Option Nat) (reluctant : Bool) :
    (Node.rep (.one cs) least most reluctant).points scene false p =
      let length := min (most.getD scene.text.size) (runLength cs (scene.rest p))
      let near := ((List.range (length + 1)).map p.move).drop least
      if reluctant then near else near.reverse := by
  have hstep : (fun p => ((Node.one cs).points scene false p).head?) = scene.stepOver false cs := by
    funext p
    rw [points]
    cases scene.stepOver false cs p <;> rfl
  rw [points, if_pos (show (Node.one cs).isStep = true from rfl), hstep, runPoints_eq,
    nearest_stepOver]
  have hlen : runLength cs (scene.rest p) ≤ scene.text.size :=
    (List.takeWhile_prefix _).length_le.trans (scene.length_rest_le p)
  have hmin : min ((most.getD scene.text.size).min scene.text.size) (runLength cs (scene.rest p)) =
      min (most.getD scene.text.size) (runLength cs (scene.rest p)) := by
    rw [show (most.getD scene.text.size).min scene.text.size =
      min (most.getD scene.text.size) scene.text.size from rfl]
    omega
  rw [hmin]

theorem mem_points_run {cs : CharSet} {least : Nat} {reluctant : Bool} :
    q ∈ (Node.rep (.one cs) least none reluctant).points scene false p ↔
      ∃ i, least ≤ i ∧ i ≤ runLength cs (scene.rest p) ∧ q = p.move i := by
  have hlen : runLength cs (scene.rest p) ≤ scene.text.size :=
    (List.takeWhile_prefix _).length_le.trans (scene.length_rest_le p)
  have hmem : q ∈ (((List.range (runLength cs (scene.rest p) + 1)).map p.move).drop least) ↔
      ∃ i, least ≤ i ∧ i ≤ runLength cs (scene.rest p) ∧ q = p.move i := by
    rw [← List.map_drop, List.mem_map]
    constructor
    · rintro ⟨i, hi, rfl⟩
      rw [List.range_eq_range', List.drop_range', List.mem_range'_1] at hi
      exact ⟨i, by omega, by omega, rfl⟩
    · rintro ⟨i, h1, h2, rfl⟩
      refine ⟨i, ?_, rfl⟩
      rw [List.range_eq_range', List.drop_range', List.mem_range'_1]
      omega
  rw [points_run]
  simp only [Option.getD_none, Nat.min_eq_right hlen]
  cases reluctant with
  | true => simpa using hmem
  | false => simpa using hmem

theorem head?_flatMap_of_split {α β : Type} {f : α → List β} {l₁ l₂ : List α} {x : α} {y : β}
    (h₁ : ∀ z ∈ l₁, f z = []) (hx : (f x).head? = some y) :
    ((l₁ ++ x :: l₂).flatMap f).head? = some y := by
  rw [List.flatMap_append, List.flatMap_eq_nil_iff.2 h₁, List.nil_append, List.flatMap_cons,
    List.head?_append, hx]
  rfl

theorem range_map_move_split (p : Point) {i n : Nat} (h : i ≤ n) :
    (List.range (n + 1)).map p.move =
      (List.range i).map p.move ++ p.move i :: (List.range' (i + 1) (n - i)).map p.move := by
  rw [show n + 1 = i +
    (n - i + 1) by omega, List.range_add, List.map_append, List.range_succ_eq_map,
    List.map_cons, List.map_cons, Nat.add_zero, List.map_map, List.range'_eq_map_range,
    List.map_map]
  congr 2
  rw [List.map_map]
  refine List.map_congr_left fun j _ => ?_
  simp [Nat.add_assoc, Nat.add_comm 1 j]

theorem First.seq_split {l₁ l₂ : List Point} (ha : a.points scene false p = l₁ ++ m :: l₂)
    (h₁ : ∀ z ∈ l₁, b.points scene false z = []) (hq : b.First scene m q) :
    (Node.seq a b).First scene p q := by
  unfold First at hq ⊢
  rw [points_seq, ha]
  exact head?_flatMap_of_split h₁ hq

/-- A reluctant run stops at the first place from which the rest goes on. -/
theorem First.near_seq {cs : CharSet} {i : Nat} (hi : i ≤ runLength cs (scene.rest p))
    (hbefore : ∀ j < i, b.points scene false (p.move j) = []) (hq : b.First scene (p.move i) q) :
    (Node.seq (.rep (.one cs) 0 none true) b).First scene p q := by
  have hlen : runLength cs (scene.rest p) ≤ scene.text.size :=
    (List.takeWhile_prefix _).length_le.trans (scene.length_rest_le p)
  have hpoints : (Node.rep (.one cs) 0 none true).points scene false p =
      (List.range i).map p.move ++
      p.move i :: (List.range' (i + 1) (runLength cs (scene.rest p) - i)).map p.move := by
    rw [points_run]
    simp only [Option.getD_none, Nat.min_eq_right hlen, List.drop_zero, if_true]
    exact range_map_move_split p hi
  exact .seq_split hpoints (by simpa using hbefore) hq

/-- A reluctant run of steps tries the nearest points first. -/
theorem points_near_steps (ha : a.isStep = true) {i : Nat} (hi : p.pos + i ≤ scene.text.size)
    (hsteps : ∀ j < i, a.points scene false (p.move j) = [p.move (j + 1)]) :
    ∃ l, (Node.rep a 0 none true).points scene false p = (List.range i).map p.move ++
    p.move i :: l := by
  rw [points, if_pos ha, runPoints_eq]
  simp only [Option.getD_none, List.drop_zero, if_true]
  have key : ∀ (i fuel : Nat) (p : Point), i ≤ fuel →
      (∀ j < i, a.points scene false (p.move j) = [p.move (j + 1)]) →
      ∃ l, nearest (fun p => (a.points scene false p).head?) fuel 0 p =
        (List.range i).map p.move ++ p.move i :: l := by
    intro i
    induction i with
    | zero =>
      intro fuel p _ _
      cases fuel with
      | zero => exact ⟨[], rfl⟩
      | succ fuel => exact ⟨_, rfl⟩
    | succ i ih =>
      intro fuel p hfuel hsteps
      obtain ⟨fuel, rfl⟩ : ∃ k, fuel = k + 1 := ⟨fuel - 1, by omega⟩
      obtain ⟨l, hl⟩ := ih fuel (p.move 1) (by omega) fun j hj => by
        simpa [Nat.add_comm] using hsteps (j + 1) (by omega)
      have hfirst : (a.points scene false p).head? = some (p.move 1) := by
        rw [show p = p.move 0 from rfl, hsteps 0 (by omega)]
        rfl
      refine ⟨l, ?_⟩
      simp only [nearest, if_true, hfirst, hl, List.range_succ_eq_map, List.map_cons, List.map_map]
      simp [Function.comp_def, Nat.add_comm]
  exact key i _ p (by rw [show scene.text.size.min scene.text.size = scene.text.size by simp]; omega) hsteps

/-- A greedy run goes back to the last place from which the rest goes on. -/
theorem First.far_seq {cs : CharSet} {least i : Nat} (hleast : least ≤ i)
    (hi : i ≤ runLength cs (scene.rest p))
    (hafter : ∀ j, i < j → j ≤ runLength cs (scene.rest p) → b.points scene false (p.move j) = [])
    (hq : b.First scene (p.move i) q) :
    (Node.seq (.rep (.one cs) least none false) b).First scene p q := by
  have hlen : runLength cs (scene.rest p) ≤ scene.text.size :=
    (List.takeWhile_prefix _).length_le.trans (scene.length_rest_le p)
  have hpoints : (Node.rep (.one cs) least none false).points scene false p =
      ((List.range' (i + 1) (runLength cs (scene.rest p) - i)).map p.move).reverse ++
        p.move i :: (((List.range i).map p.move).drop least).reverse := by
    rw [points_run]
    simp only [Option.getD_none, Nat.min_eq_right hlen, Bool.false_eq_true, if_false]
    rw [range_map_move_split p hi, List.drop_append_of_le_length (by simpa using hleast),
      List.reverse_append, List.reverse_cons, List.append_assoc, List.singleton_append]
  refine .seq_split hpoints (fun z hz => ?_) hq
  rw [List.mem_reverse, List.mem_map] at hz
  obtain ⟨j, hj, rfl⟩ := hz
  rw [List.mem_range'_1] at hj
  exact hafter j (by omega) (by omega)

/-- A character that may be left out. -/
theorem points_optional (cs : CharSet) :
    (Node.rep (.one cs) 0 (some 1) false).points scene false p =
      if (scene.rest p).head?.any cs.holds then [p.move 1, p] else [p] := by
  rw [points_run]
  cases hr : scene.rest p with
  | nil => simp [runLength]
  | cons c r =>
    by_cases h : cs.holds c = true
    · have hlen : min 1 (runLength cs (c :: r)) = 1 := by simp [runLength, h]
      simp [hlen, h, List.range_succ]
    · simp [runLength, h]

/-! ### Words -/

/-- Whether the text begins with characters of the sets. -/
def fits : List CharSet → List Char → Bool
  | [], _ => true
  | _ :: _, [] => false
  | cs :: w, c :: r => cs.holds c && fits w r

/-- The pattern of a word. -/
def word (w : List CharSet) : Node :=
  .ofList (w.map .one)

theorem points_word : ∀ (w : List CharSet) (p : Point),
    (word w).points scene false p = if fits w (scene.rest p) then [p.move w.length] else []
  | [], p => by simp [word, ofList, points, fits]
  | [cs], p => by
      rw [show word [cs] = .one cs from rfl, points_one]
      cases scene.rest p with
      | nil => simp [fits]
      | cons c r => simp [fits]
  | cs :: cs' :: w, p => by
      rw [show word (cs :: cs' :: w) = .seq (.one cs) (word (cs' :: w)) from rfl, points_seq,
        points_one]
      cases hr : scene.rest p with
      | nil => simp [fits]
      | cons c r =>
        by_cases h : cs.holds c = true
        · simp only [h, if_true, List.flatMap_cons, List.flatMap_nil, List.append_nil]
          rw [points_word (cs' :: w) (p.move 1), scene.rest_move, hr]
          simp [fits, h, Nat.add_comm]
        · simp [fits, h]

theorem points_choice : ∀ (ns : List Node) (back : Bool) (p : Point),
    (Node.choice ns).points scene back p = ns.flatMap fun n => n.points scene back p
  | [], _, _ => by simp [choice, points]
  | [n], _, _ => by simp [choice]
  | n :: n' :: ns, back, p => by
      rw [choice, points, points_choice (n' :: ns) back p]
      rfl

/-- The points of a choice of words. -/
theorem mem_points_words {ws : List (List CharSet)} :
    q ∈ (Node.choice (ws.map word)).points scene false p ↔
      ∃ w ∈ ws, fits w (scene.rest p) = true ∧ q = p.move w.length := by
  rw [points_choice, List.mem_flatMap]
  constructor
  · rintro ⟨n, hn, hq⟩
    obtain ⟨w, hw, rfl⟩ := List.mem_map.1 hn
    rw [points_word] at hq
    by_cases h : fits w (scene.rest p) = true
    · exact ⟨w, hw, h, by simpa [h] using hq⟩
    · simp [h] at hq
  · rintro ⟨w, hw, h, rfl⟩
    exact ⟨word w, List.mem_map.2 ⟨w, hw, rfl⟩, by simp [points_word, h]⟩

end Node

end TemplateTidy
