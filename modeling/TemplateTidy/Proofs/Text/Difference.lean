import TemplateTidy.Text.Difference

/-! # Differences of equal and of different lists

A difference is empty exactly if there is none (`unified_eq_nil_iff`).  One half needs that shared
blocks are shared (`Agrees`) and stand in order (`InOrder`): if no edit changes anything, the blocks
cover both lists.  For the other half, the sweep over two equal lists keeps to the diagonal
(`OnDiagonal`): a block off the diagonal is never longer than one that was found on it before, so
the one block that is found covers the whole list. -/

namespace TemplateTidy.Text.Difference

variable {α : Type} {a b : Array α}

/-! ### The sweep -/

/-- The length of the shared block that ends with the next element of the left list and the element
`j` of the right one. -/
def Sweep.grow (s : Sweep) (j : Nat) : Nat :=
  (if j = 0 then 0 else (s.lengths.lookup (j - 1)).getD 0) + 1

/-- The better one of a block and the block that ends at the places `i` and `j`. -/
def Sweep.better (s : Sweep) (i : Nat) (best : Block) (j : Nat) : Block :=
  if best.size < s.grow j then ⟨i + 1 - s.grow j, j + 1 - s.grow j, s.grow j⟩ else best

theorem Sweep.step_eq (s : Sweep) (i : Nat) (found : List Nat) : s.step i found =
    { lengths := (found.map fun j => (j, s.grow j)).reverse, best := found.foldl (s.better i) s.best } := by
  have hgo : ∀ (found : List Nat) (done : List (Nat × Nat)) (best : Block),
      found.foldl (fun (now : Sweep) j =>
        let before := if j = 0 then 0 else (s.lengths.lookup (j - 1)).getD 0
        let k := before + 1
        { lengths := (j, k) :: now.lengths
          best := if now.best.size < k then ⟨i + 1 - k, j + 1 - k, k⟩ else now.best }) ⟨done,
            best⟩ =
      ⟨(found.map fun j => (j, s.grow j)).reverse ++ done, found.foldl (s.better i) best⟩ := by
    intro found
    induction found with
    | nil => exact fun _ _ => rfl
    | cons j found ih =>
      intro done best
      rw [List.foldl_cons, ih, List.foldl_cons, List.map_cons, List.reverse_cons, List.append_assoc]
      rfl
  unfold Sweep.step
  rw [hgo, List.append_nil]

theorem Sweep.mem_of_lookup {s : Sweep} {j k : Nat} (h : s.lengths.lookup j = some k) :
    (j, k) ∈ s.lengths := by
  obtain ⟨before, after, heq, -⟩ := List.lookup_eq_some_iff.1 h
  rw [heq]
  exact List.mem_append_right _ List.mem_cons_self

/-- The places at which the element `i` of the left list may stand in a range of the right one. -/
def spotsOf (spots : Array (List Nat)) (low' high' i : Nat) : List Nat :=
  ((spots[i]?).getD []).filter fun j => low' ≤ j && j < high'

/-- The sweep over `k` elements of the left list. -/
def swept (spots : Array (List Nat)) (low low' high' k : Nat) : Sweep :=
  (List.range k).foldl (fun (s : Sweep) d => s.step (low + d) (spotsOf spots low' high' (low + d)))
    { lengths := [], best := ⟨low, low', 0⟩ }

theorem swept_succ (spots : Array (List Nat)) (low low' high' k : Nat) :
    swept spots low low' high' (k + 1) =
    (swept spots low low' high' k).step (low + k) (spotsOf spots low' high' (low + k)) := by
  unfold swept
  rw [List.range_succ, List.foldl_append, List.foldl_cons, List.foldl_nil]

theorem longest_eq [BEq α] (spots : Array (List Nat)) (low high low' high' : Nat) :
    longest a b spots low high low' high' = extendRight a b high high' a.size
      (extendLeft a b low low' a.size (swept spots low low' high' (high - low)).best) :=
  rfl

theorem mem_places [BEq α] [LawfulBEq α] {i j : Nat} (h : j ∈ ((places a b)[i]?).getD []) :
    j < b.size ∧ a[i]? = b[j]? := by
  unfold places at h
  rw [Array.getElem?_map] at h
  cases hi : a[i]? with
  | none => simp [hi] at h
  | some x =>
    rw [hi, Option.map_some, Option.getD_some] at h
    split at h
    · exact absurd h List.not_mem_nil
    · obtain ⟨hrange, heq⟩ := List.mem_filter.1 h
      have hj := List.mem_range.1 hrange
      rw [Array.getElem?_eq_getElem hj, Option.any_some, beq_iff_eq] at heq
      exact ⟨hj, by rw [Array.getElem?_eq_getElem hj, heq]⟩

/-! ### Shared blocks -/

/-- A block that the two lists share, within ranges of them. -/
structure Agrees (a b : Array α) (low high low' high' : Nat) (m : Block) : Prop where
  low_le : low ≤ m.left
  low_le' : low' ≤ m.right
  le_high : m.left + m.size ≤ high
  le_high' : m.right + m.size ≤ high'
  same : ∀ d < m.size, a[m.left + d]? = b[m.right + d]?

/-- What a sweep knows before the element `i` of the left list: the blocks that end right before
it. -/
structure Sweep.Knows (a b : Array α) (low low' high' i : Nat) (s : Sweep) : Prop where
  best : Agrees a b low i low' high' s.best
  lengths : ∀ e ∈ s.lengths, low + e.2 ≤ i ∧ low' + e.2 ≤ e.1 + 1 ∧ ∀ d < e.2,
    a[i - 1 - d]? = b[e.1 - d]?

variable {low high low' high' i : Nat} {s : Sweep} {m : Block}

theorem Agrees.mono {low₁ high₁ low₁' high₁' : Nat} (h : Agrees a b low high low' high' m)
    (hlow : low₁ ≤ low) (hhigh : high ≤ high₁) (hlow' : low₁' ≤ low') (hhigh' : high' ≤ high₁') :
    Agrees a b low₁ high₁ low₁' high₁' m :=
  ⟨Nat.le_trans hlow h.low_le, Nat.le_trans hlow' h.low_le', Nat.le_trans h.le_high hhigh,
    Nat.le_trans h.le_high' hhigh', h.same⟩

/-- The block that a step makes of a shorter one. -/
theorem Sweep.Knows.grow (h : s.Knows a b low low' high' i) (hi : low ≤ i) {j : Nat} (hj : low' ≤ j)
    (hsame : a[i]? = b[j]?) : low + s.grow j ≤ i + 1 ∧ low' + s.grow j ≤ j + 1 ∧
      ∀ d < s.grow j, a[i - d]? = b[j - d]? := by
  have hbefore : ∀ k, (if j = 0 then 0 else (s.lengths.lookup (j - 1)).getD 0) = k → low + k ≤ i ∧
      low' + k ≤ j ∧ ∀ d < k, a[i - 1 - d]? = b[j - 1 - d]? := by
    rintro k rfl
    split
    next => exact ⟨hi, hj, fun d hd => absurd hd (Nat.not_lt_zero d)⟩
    next hpos =>
      cases hlookup : s.lengths.lookup (j - 1) with
      | none => exact ⟨hi, hj, fun d hd => absurd hd (Nat.not_lt_zero d)⟩
      | some k =>
        obtain ⟨h₁, h₂, h₃⟩ := h.lengths _ (Sweep.mem_of_lookup hlookup)
        exact ⟨h₁, by dsimp only [Option.getD_some] at h₂ ⊢; omega, h₃⟩
  obtain ⟨h₁, h₂, h₃⟩ := hbefore _ rfl
  unfold Sweep.grow
  refine ⟨by omega, by omega, fun d hd => ?_⟩
  cases d with
  | zero => exact hsame
  | succ d =>
    rw [show i - (d + 1) = i - 1 - d by omega, show j - (d + 1) = j - 1 - d by omega]
    exact h₃ d (by omega)

/-- Every block that may take the place of the best one is shared. -/
theorem Sweep.Knows.better (h : s.Knows a b low low' high' i) (hi : low ≤ i) {best : Block}
    (hbest : Agrees a b low (i + 1) low' high' best) {j : Nat} (hj : low' ≤ j) (hj' : j < high')
    (hsame : a[i]? = b[j]?) : Agrees a b low (i + 1) low' high' (s.better i best j) := by
  obtain ⟨h₁, h₂, h₃⟩ := h.grow hi hj hsame
  unfold Sweep.better
  split
  · constructor <;> dsimp only
    · omega
    · omega
    · omega
    · omega
    · intro d hd
      have hd' := h₃ (s.grow j - 1 - d) (by omega)
      rw [show i + 1 - s.grow j + d = i - (s.grow j - 1 - d) by omega,
        show j + 1 - s.grow j + d = j - (s.grow j - 1 - d) by omega]
      exact hd'
  · exact hbest

theorem Sweep.Knows.step (h : s.Knows a b low low' high' i) (hi : low ≤ i) {found : List Nat}
    (hfound : ∀ j ∈ found, low' ≤ j ∧ j < high' ∧ a[i]? = b[j]?) :
    (s.step i found).Knows a b low low' high' (i + 1) := by
  rw [Sweep.step_eq]
  constructor
  · have hbest : Agrees a b low (i + 1) low' high' s.best :=
      h.best.mono (Nat.le_refl _) (Nat.le_succ _) (Nat.le_refl _) (Nat.le_refl _)
    revert hbest
    generalize s.best = best
    induction found generalizing best with
    | nil => exact id
    | cons j found ih =>
      obtain ⟨⟨hj, hj', hsame⟩, hrest⟩ := List.forall_mem_cons.1 hfound
      exact fun hbest => ih hrest _ (h.better hi hbest hj hj' hsame)
  · intro e he
    obtain ⟨j, hj, rfl⟩ := List.mem_map.1 (List.mem_reverse.1 he)
    obtain ⟨hlow, -, hsame⟩ := hfound j hj
    exact h.grow hi hlow hsame

theorem knows_swept [BEq α] [LawfulBEq α] (a b : Array α) (low : Nat)
    (hle' : low' ≤ high') (k : Nat) :
    (swept (places a b) low low' high' k).Knows a b low low' high' (low + k) := by
  induction k with
  | zero =>
    refine ⟨⟨Nat.le_refl _, Nat.le_refl _, Nat.le_refl _, hle', ?_⟩, fun e he =>
      absurd he List.not_mem_nil⟩
    exact fun d hd => absurd hd (Nat.not_lt_zero d)
  | succ k ih =>
    rw [swept_succ]
    refine ih.step (Nat.le_add_right _ _) fun j hj => ?_
    obtain ⟨hmem, hrange⟩ := List.mem_filter.1 hj
    rw [Bool.and_eq_true, decide_eq_true_iff, decide_eq_true_iff] at hrange
    exact ⟨hrange.1, hrange.2, (mem_places hmem).2⟩

theorem agrees_extendLeft [BEq α] [LawfulBEq α] (fuel : Nat)
    (h : Agrees a b low high low' high' m) :
    Agrees a b low high low' high' (extendLeft a b low low' fuel m) := by
  induction fuel generalizing m with
  | zero => exact h
  | succ fuel ih =>
    rw [extendLeft]
    split
    next hmore =>
      simp only [Bool.and_eq_true, decide_eq_true_eq, beq_iff_eq] at hmore
      obtain ⟨⟨hleft, hright⟩, hsame⟩ := hmore
      have hhigh := h.le_high
      have hhigh' := h.le_high'
      refine ih ⟨?_, ?_, ?_, ?_, ?_⟩ <;> dsimp only
      · omega
      · omega
      · omega
      · omega
      · intro d hd
        cases d with
        | zero => exact hsame
        | succ d =>
          rw [show m.left - 1 + (d + 1) = m.left +
            d by omega, show m.right - 1 + (d + 1) = m.right + d by omega]
          exact h.same d (by omega)
    next => exact h

theorem agrees_extendRight [BEq α] [LawfulBEq α] (fuel : Nat)
    (h : Agrees a b low high low' high' m) :
    Agrees a b low high low' high' (extendRight a b high high' fuel m) := by
  induction fuel generalizing m with
  | zero => exact h
  | succ fuel ih =>
    rw [extendRight]
    split
    next hmore =>
      simp only [Bool.and_eq_true, decide_eq_true_eq, beq_iff_eq] at hmore
      obtain ⟨⟨hleft, hright⟩, hsame⟩ := hmore
      refine ih ⟨h.low_le, h.low_le', ?_, ?_, ?_⟩ <;> dsimp only
      · omega
      · omega
      · intro d hd
        by_cases hlast : d = m.size
        · rw [hlast]
          exact hsame
        · exact h.same d (by omega)
    next => exact h

theorem agrees_longest [BEq α] [LawfulBEq α] (hle : low ≤ high) (hle' : low' ≤ high') :
    Agrees a b low high low' high' (longest a b (places a b) low high low' high') := by
  have hbest := (knows_swept a b low hle' (high - low)).best
  rw [Nat.add_sub_cancel' hle] at hbest
  exact agrees_extendRight _ (agrees_extendLeft _ hbest)

/-! ### Blocks in order -/

/-- Shared blocks one after the other, from the places `low` and `low'` on. -/
def InOrder (a b : Array α) (high high' : Nat) : (low low' : Nat) → List Block → Prop
  | _, _, [] => True
  | low, low', m :: rest =>
    Agrees a b low high low' high' m ∧ InOrder a b high high' (m.left + m.size)
      (m.right + m.size) rest

theorem InOrder.mono {low₁ low₁' : Nat} {ms : List Block} (h : InOrder a b high high' low low' ms)
    (hlow : low₁ ≤ low) (hlow' : low₁' ≤ low') : InOrder a b high high' low₁ low₁' ms := by
  cases ms with
  | nil => trivial
  | cons m rest => exact ⟨h.1.mono hlow (Nat.le_refl _) hlow' (Nat.le_refl _), h.2⟩

theorem InOrder.append (mid mid' : Nat) {ms ns : List Block}
    (hms : InOrder a b mid mid' low low' ms) (hns : InOrder a b high high' mid mid' ns)
    (hlow : low ≤ mid) (hlow' : low' ≤ mid')
    (hhigh : mid ≤ high) (hhigh' : mid' ≤ high') : InOrder a b high high' low low' (ms ++ ns) := by
  induction ms generalizing low low' with
  | nil => exact hns.mono hlow hlow'
  | cons m rest ih =>
    exact ⟨hms.1.mono (Nat.le_refl _) hhigh (Nat.le_refl _) hhigh',
      ih hms.2 hms.1.le_high hms.1.le_high'⟩

theorem inOrder_blocksIn [BEq α] [LawfulBEq α] (fuel : Nat) (hle : low ≤ high)
    (hle' : low' ≤ high') :
    InOrder a b high high' low low' (blocksIn a b (places a b) fuel low high low' high') := by
  induction fuel generalizing low high low' high' with
  | zero => trivial
  | succ fuel ih =>
    have hm := agrees_longest (a := a) (b := b) hle hle'
    rw [blocksIn]
    dsimp only
    split
    · trivial
    · refine InOrder.append (longest a b (places a b) low high low' high').left
        (longest a b (places a b) low high low' high').right ?_ ⟨?_, ?_⟩ hm.low_le hm.low_le' ?_ ?_
      · split
        · exact ih hm.low_le hm.low_le'
        · trivial
      · exact ⟨Nat.le_refl _, Nat.le_refl _, hm.le_high, hm.le_high', hm.same⟩
      · split
        · exact ih hm.le_high hm.le_high'
        · trivial
      · exact Nat.le_trans (Nat.le_add_right _ _) hm.le_high
      · exact Nat.le_trans (Nat.le_add_right _ _) hm.le_high'

/-- Two shared blocks next to each other make one. -/
theorem Agrees.join {n : Block} (hm : Agrees a b low high low' high' m)
    (hn : Agrees a b (m.left + m.size) high (m.right + m.size) high' n)
    (hleft : m.left + m.size = n.left) (hright : m.right + m.size = n.right) :
    Agrees a b low high low' high' { m with size := m.size + n.size } := by
  have hhigh := hn.le_high
  have hhigh' := hn.le_high'
  refine ⟨hm.low_le, hm.low_le', ?_, ?_, ?_⟩ <;> dsimp only
  · omega
  · omega
  · intro d hd
    by_cases hfirst : d < m.size
    · exact hm.same d hfirst
    · rw [show m.left + d = n.left +
        (d - m.size) by omega, show m.right + d = n.right + (d - m.size) by omega]
      exact hn.same _ (by omega)

theorem inOrder_joinBlocks {ms : List Block} (h : InOrder a b high high' low low' ms) :
    InOrder a b high high' low low' (joinBlocks ms) := by
  fun_induction joinBlocks ms generalizing low low' with
  | case1 m n rest hnext ih =>
    simp only [Bool.and_eq_true, decide_eq_true_eq] at hnext
    obtain ⟨hm, hn, hrest⟩ := h
    refine ih ⟨hm.join hn hnext.1 hnext.2, ?_⟩
    dsimp only
    rw [← Nat.add_assoc, hnext.1, ← Nat.add_assoc, hnext.2]
    exact hrest
  | case2 m n rest hapart ih => exact ⟨h.1, ih h.2⟩
  | case3 ms => exact h

theorem inOrder_blocks [BEq α] [LawfulBEq α] : InOrder a b a.size b.size 0 0 (blocks a b) :=
  inOrder_joinBlocks (inOrder_blocksIn _ (Nat.zero_le _) (Nat.zero_le _))

/-! ### No change, no difference -/

/-- If no edit changes anything, the blocks cover what is left of both lists. -/
theorem drop_eq_of_editsFrom {ms : List Block} {i j : Nat} (h : InOrder a b a.size b.size i j ms)
    (hsame : ∀ e ∈ editsFrom i j a.size b.size ms, e.same) : a.toList.drop i = b.toList.drop j := by
  induction ms generalizing i j with
  | nil =>
    rw [editsFrom] at hsame
    split at hsame
    · exact absurd (hsame _ (List.mem_singleton.2 rfl)) Bool.false_ne_true
    next hend =>
      simp only [Bool.or_eq_true, decide_eq_true_eq, not_or, Nat.not_lt] at hend
      rw [List.drop_eq_nil_of_le (by simpa using hend.1),
        List.drop_eq_nil_of_le (by simpa using hend.2)]
  | cons m rest ih =>
    obtain ⟨hm, hrest⟩ := h
    rw [editsFrom] at hsame
    split at hsame
    · exact absurd (hsame _ List.mem_cons_self) Bool.false_ne_true
    next hstart =>
      simp only [Bool.or_eq_true, decide_eq_true_eq, not_or, Nat.not_lt] at hstart
      have hi : m.left = i := Nat.le_antisymm hstart.1 hm.low_le
      have hj : m.right = j := Nat.le_antisymm hstart.2 hm.low_le'
      have hafter := ih hrest fun e he => hsame e (List.mem_cons_of_mem _ he)
      rw [hi, hj] at hafter
      refine List.ext_getElem? fun d => ?_
      by_cases hd : d < m.size
      · have hshared := hm.same d hd
        rw [hi, hj] at hshared
        simpa using hshared
      · have hlater := congrArg (fun l => l[d - m.size]?) hafter
        simp only [List.getElem?_drop] at hlater ⊢
        rwa [show i + m.size + (d - m.size) = i + d by omega,
          show j + m.size + (d - m.size) = j + d by omega] at hlater

theorem same_of_groupsFrom {n : Nat} {group es : List Edit} (h : groupsFrom n group es = []) :
    ∀ e ∈ group ++ es, e.same := by
  induction es generalizing group with
  | nil =>
    rw [groupsFrom] at h
    split at h
    · exact absurd h (List.cons_ne_nil _ _)
    next hsame => simpa using hsame
  | cons e es ih =>
    rw [groupsFrom] at h
    split at h
    · exact absurd h (List.cons_ne_nil _ _)
    · intro e' he'
      refine ih h e' ?_
      simp only [List.cons_append, List.mem_append, List.mem_cons] at he' ⊢
      exact or_left_comm.1 he'

theorem map_same_trimContext (n : Nat) (es : List Edit) :
    (trimContext n es).map Edit.same = es.map Edit.same := by
  cases es with
  | nil => rfl
  | cons e es =>
    have hfirst : ((if e.same then e.lastOf n else e) :: es).map Edit.same =
        (e :: es).map Edit.same := by
      cases hsame : e.same <;> simp [hsame, Edit.lastOf]
    unfold trimContext
    dsimp only
    rw [← hfirst]
    generalize (if e.same then e.lastOf n else e) :: es = kept
    split
    next last hlast =>
      obtain ⟨before, rfl⟩ := List.getLast?_eq_some_iff.1 hlast
      rw [List.dropLast_concat, List.map_append, List.map_append]
      cases hsame : last.same <;> simp [hsame, Edit.firstOf]
    next hnone => rw [List.getLast?_eq_none_iff.1 hnone]

/-- A difference without groups is one of equal lists. -/
theorem eq_of_groups_eq_nil [BEq α] [LawfulBEq α]
    (h : groupsFrom 3 [] (trimContext 3 (edits a b)) = []) : a = b := by
  have htrimmed := same_of_groupsFrom h
  rw [List.nil_append] at htrimmed
  have hedits : ∀ e ∈ edits a b, e.same := by
    have hall : ∀ flag ∈ (edits a b).map Edit.same, flag = true := by
      rw [← map_same_trimContext 3, List.forall_mem_map]
      exact htrimmed
    exact List.forall_mem_map.1 hall
  have hdrop := drop_eq_of_editsFrom inOrder_blocks hedits
  rw [List.drop_zero, List.drop_zero] at hdrop
  exact Array.toList_inj.1 hdrop

/-! ### Equal lists -/

/-- The length of the block on the diagonal that ends right before the place `i`. -/
def diagonal (spots : Array (List Nat)) : Nat → Nat
  | 0 => 0
  | i + 1 => if (spots[i]?).getD [] = [] then 0 else diagonal spots i + 1

/-- The sweep has found nothing better than blocks on the diagonal. -/
structure Sweep.OnDiagonal (spots : Array (List Nat)) (i : Nat) (s : Sweep) : Prop where
  best : s.best.left = s.best.right
  reaches : ∀ i' ≤ i, diagonal spots i' ≤ s.best.size
  bound : ∀ e ∈ s.lengths, e.2 ≤ diagonal spots i ∧ e.2 ≤ diagonal spots (e.1 + 1)
  last : i ≠ 0 → (s.lengths.lookup (i - 1)).getD 0 = diagonal spots i

theorem diagonal_succ {spots : Array (List Nat)} {i : Nat} (h : (spots[i]?).getD [] ≠ []) :
    diagonal spots (i + 1) = diagonal spots i + 1 := by
  rw [diagonal, if_neg h]

variable {spots : Array (List Nat)}

theorem Sweep.OnDiagonal.grow_self (h : s.OnDiagonal spots i) (hi : (spots[i]?).getD [] ≠ []) :
    s.grow i = diagonal spots (i + 1) := by
  rw [diagonal_succ hi]
  unfold Sweep.grow
  split
  next hzero => rw [hzero, diagonal]
  next hpos => rw [h.last hpos]

theorem Sweep.OnDiagonal.grow_le (h : s.OnDiagonal spots i) {j : Nat}
    (hi : (spots[i]?).getD [] ≠ []) (hj : (spots[j]?).getD [] ≠ []) :
    s.grow j ≤ diagonal spots (i + 1) ∧ s.grow j ≤ diagonal spots (j + 1) := by
  rw [diagonal_succ hi, diagonal_succ hj]
  unfold Sweep.grow
  split
  next => omega
  next hpos =>
    cases hlookup : s.lengths.lookup (j - 1) with
    | none => simp
    | some k =>
      obtain ⟨hrow, hcolumn⟩ := h.bound _ (Sweep.mem_of_lookup hlookup)
      rw [Nat.sub_add_cancel (Nat.pos_of_ne_zero hpos)] at hcolumn
      exact ⟨Nat.succ_le_succ hrow, Nat.succ_le_succ hcolumn⟩

/-- The places are gone through from left to right.  Before the diagonal, a block is as long at most
as one that was found on it in an earlier row; after it, as the one that was just found. -/
theorem Sweep.OnDiagonal.foldl_better (h : s.OnDiagonal spots i) {found : List Nat}
    (hi : (spots[i]?).getD [] ≠ []) (hsorted : found.Pairwise (· < ·))
    (hfound : ∀ j ∈ found, (spots[j]?).getD [] ≠ []) {best : Block} (hbest : best.left = best.right)
    (hreaches : ∀ i' ≤ i, diagonal spots i' ≤ best.size)
    (hmem : i ∈ found ∨ diagonal spots (i + 1) ≤ best.size) :
    (found.foldl (s.better i) best).left = (found.foldl (s.better i) best).right ∧
      ∀ i' ≤ i + 1, diagonal spots i' ≤ (found.foldl (s.better i) best).size := by
  induction found generalizing best with
  | nil =>
    have hlast := hmem.resolve_left List.not_mem_nil
    refine ⟨hbest, fun i' hi' => ?_⟩
    by_cases heq : i' = i + 1
    · rw [heq]
      exact hlast
    · exact hreaches i' (by omega)
  | cons j found ih =>
    obtain ⟨hlater, hsorted⟩ := List.pairwise_cons.1 hsorted
    obtain ⟨hj, hfound⟩ := List.forall_mem_cons.1 hfound
    obtain ⟨hrow, hcolumn⟩ := h.grow_le hi hj
    rw [List.foldl_cons]
    have hself := h.grow_self hi
    unfold Sweep.better
    split
    next hlonger =>
      -- Only a block on the diagonal can be longer.
      have heq : j = i := by
        rcases Nat.lt_trichotomy j i with hlt | heq | hgt
        · have := hreaches (j + 1) hlt
          omega
        · exact heq
        · have hnot : i ∉ j :: found := by
            intro hin
            rcases List.mem_cons.1 hin with hij | hin
            · omega
            · have := hlater i hin
              omega
          have := hmem.resolve_left hnot
          omega
      subst heq
      refine ih hsorted hfound rfl (fun i' hi' => ?_) (.inr ?_)
      · exact Nat.le_trans (hreaches i' hi') (Nat.le_of_lt hlonger)
      · exact Nat.le_of_eq hself.symm
    next hshort =>
      refine ih hsorted hfound hbest hreaches ?_
      by_cases heq : j = i
      · subst heq
        exact .inr (by omega)
      · refine hmem.imp_left fun hin => ?_
        exact (List.mem_cons.1 hin).resolve_left (Ne.symm heq)

theorem lookup_map_of_mem (f : Nat → Nat) {found : List Nat} {i : Nat} (h : i ∈ found) :
    (found.map fun j => (j, f j)).lookup i = some (f i) := by
  induction found with
  | nil => exact absurd h List.not_mem_nil
  | cons j rest ih =>
    rw [List.map_cons, List.lookup_cons]
    by_cases heq : i = j
    · rw [heq, beq_self_eq_true]
    · rw [beq_false_of_ne heq]
      exact ih ((List.mem_cons.1 h).resolve_left heq)

theorem Sweep.OnDiagonal.step (h : s.OnDiagonal spots i) {found : List Nat}
    (hempty : (spots[i]?).getD [] = [] → found = []) (hmem : (spots[i]?).getD [] ≠ [] → i ∈ found)
    (hsorted : found.Pairwise (· < ·)) (hfound : ∀ j ∈ found, (spots[j]?).getD [] ≠ []) :
    (s.step i found).OnDiagonal spots (i + 1) := by
  rw [Sweep.step_eq]
  by_cases hi : (spots[i]?).getD [] = []
  · have hzero : diagonal spots (i + 1) = 0 := by rw [diagonal, if_pos hi]
    rw [hempty hi]
    refine ⟨h.best, fun i' hi' => ?_, fun e he => absurd he List.not_mem_nil, fun _ => hzero.symm⟩
    by_cases heq : i' = i + 1
    · rw [heq, hzero]
      exact Nat.zero_le _
    · exact h.reaches i' (by omega)
  · obtain ⟨hbest, hreaches⟩ := h.foldl_better hi hsorted hfound h.best h.reaches (.inl (hmem hi))
    refine ⟨hbest, hreaches, fun e he => ?_, fun _ => ?_⟩
    · obtain ⟨j, hj, rfl⟩ := List.mem_map.1 (List.mem_reverse.1 he)
      exact h.grow_le hi (hfound j hj)
    · rw [Nat.add_sub_cancel, ← List.map_reverse,
        lookup_map_of_mem _ (List.mem_reverse.2 (hmem hi)), h.grow_self hi, Option.getD_some]

variable [BEq α] [LawfulBEq α]

/-- The places of an element in its own list: none if it is too frequent, else its own place is one
of them. -/
theorem mem_places_self (h : ((places a a)[i]?).getD [] ≠ []) : i ∈ ((places a a)[i]?).getD [] := by
  unfold places at h ⊢
  rw [Array.getElem?_map] at h ⊢
  cases hi : a[i]? with
  | none => simp [hi] at h
  | some x =>
    rw [hi, Option.map_some, Option.getD_some] at h
    rw [Option.map_some, Option.getD_some]
    split
    next hpopular => simp [hpopular] at h
    next =>
      obtain ⟨hsize, hx⟩ := Array.getElem?_eq_some_iff.1 hi
      refine List.mem_filter.2 ⟨List.mem_range.2 hsize, ?_⟩
      rw [hi, Option.any_some, beq_self_eq_true]

/-- Equal elements have the same places. -/
theorem places_eq_of_mem {j : Nat} (h : j ∈ ((places a a)[i]?).getD []) :
    ((places a a)[j]?).getD [] = ((places a a)[i]?).getD [] := by
  have heq := (mem_places h).2
  unfold places
  rw [Array.getElem?_map, Array.getElem?_map, heq]

omit [LawfulBEq α] in
theorem pairwise_places : (((places a a)[i]?).getD []).Pairwise (· < ·) := by
  unfold places
  rw [Array.getElem?_map]
  cases a[i]? with
  | none => exact List.Pairwise.nil
  | some x =>
    rw [Option.map_some, Option.getD_some]
    split
    · exact List.Pairwise.nil
    · exact List.pairwise_lt_range.filter _

theorem spotsOf_self : spotsOf (places a a) 0 a.size i = ((places a a)[i]?).getD [] := by
  unfold spotsOf
  refine List.filter_eq_self.2 fun j hj => ?_
  simpa using (mem_places hj).1

theorem onDiagonal_swept (a : Array α) (k : Nat) :
    (swept (places a a) 0 0 a.size k).OnDiagonal (places a a) k := by
  induction k with
  | zero =>
    refine ⟨rfl, fun i' hi' => ?_, fun e he => absurd he List.not_mem_nil, fun hne =>
      absurd rfl hne⟩
    rw [Nat.le_zero.1 hi']
    exact Nat.le_refl _
  | succ k ih =>
    rw [swept_succ, Nat.zero_add, spotsOf_self]
    refine ih.step id mem_places_self pairwise_places fun j hj => ?_
    rw [places_eq_of_mem hj]
    exact List.ne_nil_of_mem hj

theorem extendLeft_self (a : Array α) {fuel x : Nat} (size : Nat) (hfuel : x ≤ fuel) :
    extendLeft a a 0 0 fuel ⟨x, x, size⟩ = ⟨0, 0, x + size⟩ := by
  induction fuel generalizing x size with
  | zero => rw [Nat.le_zero.1 hfuel, Nat.zero_add, extendLeft]
  | succ fuel ih =>
    rw [extendLeft]
    cases x with
    | zero => simp
    | succ x =>
      rw [if_pos (by simp), Nat.add_sub_cancel, ih _ (Nat.le_of_succ_le_succ hfuel)]
      rw [Nat.add_right_comm, Nat.add_assoc]

theorem extendRight_self (a : Array α) {fuel size : Nat} (hsize : size ≤ a.size)
    (hfuel : a.size ≤ size + fuel) :
    extendRight a a a.size a.size fuel ⟨0, 0, size⟩ = ⟨0, 0, a.size⟩ := by
  induction fuel generalizing size with
  | zero => rw [Nat.le_antisymm hsize hfuel, extendRight]
  | succ fuel ih =>
    rw [extendRight]
    by_cases hmore : size < a.size
    · rw [if_pos (by simp [hmore])]
      exact ih hmore (by dsimp only; omega)
    · rw [if_neg (by simp [hmore]), Nat.le_antisymm hsize (Nat.le_of_not_lt hmore)]

theorem longest_self (a : Array α) :
    longest a a (places a a) 0 a.size 0 a.size = ⟨0, 0, a.size⟩ := by
  have hshared := (knows_swept a a 0 (Nat.zero_le a.size) a.size).best
  have hdiagonal := (onDiagonal_swept a a.size).best
  rw [longest_eq, Nat.sub_zero]
  generalize (swept (places a a) 0 0 a.size a.size).best = m at hshared hdiagonal
  obtain ⟨x, y, size⟩ := m
  have hhigh := hshared.le_high
  dsimp only at hdiagonal hhigh
  subst hdiagonal
  rw [extendLeft_self a size (by omega), extendRight_self a (by omega) (by omega)]

theorem edits_self (a : Array α) :
    edits a a = if a.size = 0 then [] else [⟨true, 0, a.size, 0, a.size⟩] := by
  unfold edits blocks
  rw [blocksIn, longest_self]
  by_cases hempty : a.size = 0
  · simp [hempty, joinBlocks, editsFrom]
  · simp [hempty, joinBlocks, editsFrom]

omit [LawfulBEq α] in
theorem groups_eq_nil_of_edits (h : edits a b = [] ∨ edits a b = [⟨true, 0, a.size, 0, b.size⟩]) :
    groupsFrom 3 [] (trimContext 3 (edits a b)) = [] := by
  rcases h with h | h
  · rw [h]
    rfl
  · rw [h]
    have hlength : min a.size (max 0 (a.size - 3) + 3) - max 0 (a.size - 3) ≤ 3 := by omega
    simp [trimContext, groupsFrom, Edit.lastOf, Edit.firstOf]
    omega

/-- A difference is empty exactly if there is none. -/
theorem unified_eq_nil_iff (left right : List (List Char)) :
    unified left right = [] ↔ left = right := by
  unfold unified
  constructor
  · intro h
    dsimp only at h
    split at h
    next hgroups => exact List.toArray_inj (eq_of_groups_eq_nil hgroups)
    next => exact absurd h (List.cons_ne_nil _ _)
  · rintro rfl
    dsimp only
    rw [groups_eq_nil_of_edits]
    rw [edits_self]
    split
    · exact .inl rfl
    · exact .inr rfl

end TemplateTidy.Text.Difference
