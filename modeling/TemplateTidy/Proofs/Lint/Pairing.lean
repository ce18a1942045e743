import TemplateTidy.Proofs.Lint.Places
import TemplateTidy.Proofs.Lint.Returns

/-! # How tags are paired

Tags of different names do not meet: those of one name that wait for a partner form a stack of their
own (`ofName_unpaired`).  On that stack a closing tag takes away what lies on top, whether this is
an opening tag or an earlier closing tag without a partner.  So a balanced sequence leaves nothing
(`unpaired_eq_nil`), and the check for orphan tags tells those that are left from the last to the
first (`orphanCheck_balanced`).  A closing tag before which no tag of its name opens is left only if
an even number of its kind came before it (`mem_unpaired_iff_even`). -/

namespace TemplateTidy.Lint

/-! ### One name -/

/-- The tags of a name. -/
def ofName (name : List Char) (tags : List TagMark) : List TagMark :=
  tags.filter (·.name = name)

/-- Adds a tag to the waiting tags of its name: a closing tag takes away the latest. -/
def pairNext (waiting : List TagMark) (t : TagMark) : List TagMark :=
  if t.closing then
    match waiting with
    | [] => [t]
    | _ :: rest => rest
  else t :: waiting

variable {name : List Char} {t : TagMark} {tags waiting rest : List TagMark}

theorem ofName_cons_self : ofName t.name (t :: tags) = t :: ofName t.name tags :=
  List.filter_cons_of_pos (decide_eq_true rfl)

theorem ofName_cons_of_ne (h : t.name ≠ name) : ofName name (t :: tags) = ofName name tags :=
  List.filter_cons_of_neg (by simpa using h)

theorem takeNamed_eq_none (h : takeNamed name waiting = none) : ofName name waiting = [] := by
  induction waiting with
  | nil => rfl
  | cons u waiting ih =>
    rw [takeNamed] at h
    split at h
    · cases h
    next hne => rw [ofName_cons_of_ne hne, ih (Option.map_eq_none_iff.1 h)]

/-- The first tag of the name goes, and no other. -/
theorem ofName_of_takeNamed : ∀ {waiting rest : List TagMark}, takeNamed name waiting = some rest →
    (∃ u, ofName name waiting = u :: ofName name rest) ∧
      ∀ other, other ≠ name → ofName other waiting = ofName other rest
  | [], _, h => by cases h
  | u :: waiting, rest, h => by
      rw [takeNamed] at h
      split at h
      next heq =>
        obtain rfl := Option.some.inj h
        subst heq
        exact ⟨⟨u, ofName_cons_self⟩, fun other hother => ofName_cons_of_ne hother.symm⟩
      next hne =>
        obtain ⟨rest', hrest, rfl⟩ := Option.map_eq_some_iff.1 h
        obtain ⟨⟨v, hv⟩, hothers⟩ := ofName_of_takeNamed hrest
        refine ⟨⟨v, ?_⟩, fun other hother => ?_⟩
        · rw [ofName_cons_of_ne hne, ofName_cons_of_ne hne, hv]
        · by_cases hu : u.name = other
          · subst hu
            rw [ofName_cons_self, ofName_cons_self, hothers _ hother]
          · rw [ofName_cons_of_ne hu, ofName_cons_of_ne hu, hothers other hother]

theorem pairNext_opening (ht : t.closing = false) : pairNext waiting t = t :: waiting := by
  simp [pairNext, ht]

theorem pairNext_closing_nil (ht : t.closing = true) : pairNext [] t = [t] := by
  simp [pairNext, ht]

theorem pairNext_closing_cons {u : TagMark} (ht : t.closing = true) :
    pairNext (u :: waiting) t = waiting := by
  simp [pairNext, ht]

/-- A tag changes the waiting tags of its own name only. -/
theorem ofName_pairTag (name : List Char) (waiting : List TagMark) (t : TagMark) :
    ofName name (pairTag waiting t) =
      if t.name = name then pairNext (ofName name waiting) t else ofName name waiting := by
  unfold pairTag
  cases ht : t.closing with
  | false =>
    rw [if_neg Bool.false_ne_true, pairNext_opening ht]
    split
    next heq => rw [← heq, ofName_cons_self]
    next hne => exact ofName_cons_of_ne hne
  | true =>
    rw [if_pos rfl]
    cases htake : takeNamed t.name waiting with
    | none =>
      rw [Option.getD_none]
      split
      next heq => rw [← heq, ofName_cons_self, takeNamed_eq_none htake, pairNext_closing_nil ht]
      next hne => exact ofName_cons_of_ne hne
    | some rest =>
      obtain ⟨⟨u, hu⟩, hothers⟩ := ofName_of_takeNamed htake
      rw [Option.getD_some]
      split
      next heq => rw [← heq, hu, pairNext_closing_cons ht]
      next hne => rw [hothers name (Ne.symm hne)]

theorem ofName_foldl_pairTag (name : List Char) : ∀ tags waiting : List TagMark,
    ofName name (tags.foldl pairTag waiting) = (ofName name tags).foldl pairNext
      (ofName name waiting)
  | [], _ => rfl
  | t :: tags, waiting => by
      rw [List.foldl_cons, ofName_foldl_pairTag name tags, ofName_pairTag]
      split
      next heq =>
        subst heq
        rw [ofName_cons_self, List.foldl_cons]
      next hne => rw [ofName_cons_of_ne hne]

/-- The tags of a name that are left depend on the tags of that name only. -/
theorem ofName_unpaired (name : List Char) (tags : List TagMark) :
    ofName name (unpaired tags) = (ofName name tags).foldl pairNext [] :=
  ofName_foldl_pairTag name tags []

/-! ### Balance -/

/-- How many tags open. -/
def openings (tags : List TagMark) : Nat :=
  tags.countP (!·.closing)

/-- How many tags close. -/
def closings (tags : List TagMark) : Nat :=
  tags.countP (·.closing)

/-- At no time more tags have closed than opened, beyond `depth`. -/
def Covered (depth : Nat) (tags : List TagMark) : Prop :=
  ∀ p, p <+: tags → closings p ≤ openings p + depth

/-- At no time more tags have closed than opened, and in the end as many. -/
structure Balanced (tags : List TagMark) : Prop where
  covered : ∀ p, p <+: tags → closings p ≤ openings p
  settled : closings tags = openings tags

theorem openings_cons (t : TagMark) (tags : List TagMark) :
    openings (t :: tags) = openings tags + if t.closing then 0 else 1 := by
  cases h : t.closing <;> simp [openings, h]

theorem closings_cons (t : TagMark) (tags : List TagMark) :
    closings (t :: tags) = closings tags + if t.closing then 1 else 0 := by
  cases h : t.closing <;> simp [closings, h]

/-- An opening tag covers one more. -/
theorem covered_cons_opening {depth : Nat} (ht : t.closing = false) :
    Covered depth (t :: tags) ↔ Covered (depth + 1) tags := by
  constructor
  · intro h p hp
    have := h (t :: p) (List.cons_prefix_cons.2 ⟨rfl, hp⟩)
    rw [closings_cons, openings_cons, ht] at this
    simp at this
    omega
  · intro h p hp
    obtain rfl | ⟨p', rfl, hp'⟩ := List.prefix_cons_iff.1 hp
    · simp [closings]
    · have := h p' hp'
      rw [closings_cons, openings_cons, ht]
      simp
      omega

/-- A closing tag needs one to take away. -/
theorem covered_cons_closing {depth : Nat} (ht : t.closing = true) :
    Covered depth (t :: tags) ↔ 0 < depth ∧ Covered (depth - 1) tags := by
  constructor
  · intro h
    have hpos := h [t] (List.cons_prefix_cons.2 ⟨rfl, List.nil_prefix⟩)
    rw [closings_cons, openings_cons, ht] at hpos
    simp [closings, openings] at hpos
    refine ⟨hpos, fun p hp => ?_⟩
    have := h (t :: p) (List.cons_prefix_cons.2 ⟨rfl, hp⟩)
    rw [closings_cons, openings_cons, ht] at this
    simp at this
    omega
  · rintro ⟨hpos, h⟩ p hp
    obtain rfl | ⟨p', rfl, hp'⟩ := List.prefix_cons_iff.1 hp
    · simp [closings]
    · have := h p' hp'
      rw [closings_cons, openings_cons, ht]
      simp
      omega

/-! ### Runs over the tags of one name -/

/-- Tags that close no more than they opened leave the others. -/
theorem length_foldl_pairNext : ∀ tags waiting : List TagMark, Covered waiting.length tags →
    (tags.foldl pairNext waiting).length + closings tags = waiting.length + openings tags
  | [], _, _ => by simp [closings, openings]
  | t :: tags, waiting, h => by
      rw [List.foldl_cons, closings_cons, openings_cons]
      cases ht : t.closing with
      | false =>
        rw [covered_cons_opening ht] at h
        have := length_foldl_pairNext tags (t :: waiting) h
        rw [pairNext_opening ht]
        simp only [List.length_cons, Bool.false_eq_true, if_false] at this ⊢
        omega
      | true =>
        obtain ⟨hpos, h⟩ := (covered_cons_closing ht).1 h
        obtain ⟨u, waiting, rfl⟩ := List.exists_cons_of_length_pos hpos
        have := length_foldl_pairNext tags waiting h
        rw [pairNext_closing_cons ht]
        simp only [List.length_cons, if_true] at this ⊢
        omega

theorem foldl_pairNext_eq_nil (h : Balanced tags) : tags.foldl pairNext [] = [] := by
  have hlength := length_foldl_pairNext tags [] h.covered
  rw [h.settled, List.length_nil] at hlength
  exact List.eq_nil_of_length_eq_zero (by omega)

/-- Tags that never close more than `upper` do not reach below it. -/
theorem exists_foldl_pairNext (lower : List TagMark) :
    ∀ tags upper : List TagMark, Covered upper.length tags →
    ∃ upper', tags.foldl pairNext (upper ++ lower) = upper' ++ lower
  | [], upper, _ => ⟨upper, rfl⟩
  | t :: tags, upper, h => by
      rw [List.foldl_cons]
      cases ht : t.closing with
      | false =>
        rw [covered_cons_opening ht] at h
        rw [pairNext_opening ht]
        exact exists_foldl_pairNext lower tags (t :: upper) h
      | true =>
        obtain ⟨hpos, h⟩ := (covered_cons_closing ht).1 h
        obtain ⟨u, upper, rfl⟩ := List.exists_cons_of_length_pos hpos
        rw [List.cons_append, pairNext_closing_cons ht]
        exact exists_foldl_pairNext lower tags upper h

theorem mem_of_foldl_pairNext {x : TagMark} :
    ∀ {tags waiting : List TagMark}, x ∈ tags.foldl pairNext waiting → x ∈ tags ∨ x ∈ waiting
  | [], _, h => .inr h
  | t :: tags, waiting, h => by
      have h : x ∈ tags ∨ x ∈ pairNext waiting t := mem_of_foldl_pairNext h
      obtain h | h := h
      · exact .inl (List.mem_cons_of_mem t h)
      cases ht : t.closing with
      | false =>
        rw [pairNext_opening ht, List.mem_cons] at h
        exact h.imp_left fun h => List.mem_cons.2 (.inl h)
      | true =>
        cases waiting with
        | nil =>
          rw [pairNext_closing_nil ht, List.mem_singleton] at h
          exact .inl (h ▸ List.mem_cons_self)
        | cons u waiting =>
          rw [pairNext_closing_cons ht] at h
          exact .inr (List.mem_cons_of_mem u h)

/-- Tags that close more than what lies upon a tag take it away. -/
theorem not_mem_foldl_pairNext {x : TagMark} {lower : List TagMark} (hlower : x ∉ lower) :
    ∀ tags upper : List TagMark, x ∉ tags → ¬Covered upper.length tags →
      x ∉ tags.foldl pairNext (upper ++ x :: lower)
  | [], upper, _, h => absurd (fun p hp => by simp [List.prefix_nil.1 hp, closings]) h
  | t :: tags, upper, hx, h => by
      have hx : x ∉ tags := fun hmem => hx (List.mem_cons_of_mem t hmem)
      rw [List.foldl_cons]
      cases ht : t.closing with
      | false =>
        rw [covered_cons_opening ht] at h
        rw [pairNext_opening ht]
        exact not_mem_foldl_pairNext hlower tags (t :: upper) hx h
      | true =>
        rw [covered_cons_closing ht] at h
        cases upper with
        | nil =>
          rw [List.nil_append, pairNext_closing_cons ht]
          intro hmem
          exact (mem_of_foldl_pairNext hmem).elim hx hlower
        | cons u upper =>
          rw [List.cons_append, pairNext_closing_cons ht]
          exact not_mem_foldl_pairNext hlower tags upper hx fun hcovered =>
            h ⟨Nat.succ_pos _, hcovered⟩

/-- Closing tags alone take each other away, two by two. -/
theorem length_foldl_closings : ∀ tags waiting : List TagMark, (∀ t ∈ tags, t.closing = true) →
    waiting.length ≤ 1 → (tags.foldl pairNext waiting).length = (waiting.length + tags.length) % 2
  | [], waiting, _, h => (Nat.mod_eq_of_lt (Nat.lt_succ_of_le h)).symm
  | t :: tags, waiting, hclosing, h => by
      have ht := hclosing t List.mem_cons_self
      have htags : ∀ u ∈ tags, u.closing = true := fun u hu =>
        hclosing u (List.mem_cons_of_mem t hu)
      rw [List.foldl_cons]
      cases waiting with
      | nil =>
        rw [pairNext_closing_nil ht, length_foldl_closings tags _ htags (by simp)]
        simp [Nat.add_comm]
      | cons u waiting =>
        obtain rfl : waiting = [] := List.eq_nil_of_length_eq_zero (by simpa using h)
        rw [pairNext_closing_cons ht, length_foldl_closings tags _ htags (by simp)]
        simp only [List.length_nil, List.length_cons]
        omega

/-! ### All names -/

/-- If the tags of each name are balanced, every tag has a partner. -/
theorem unpaired_eq_nil (h : ∀ name, Balanced (ofName name tags)) : unpaired tags = [] := by
  refine List.eq_nil_iff_forall_not_mem.2 fun t ht => ?_
  have hnone : ofName t.name (unpaired tags) = [] := by
    rw [ofName_unpaired, foldl_pairNext_eq_nil (h t.name)]
  exact absurd (List.mem_filter.2 ⟨ht, decide_eq_true rfl⟩) (hnone ▸ List.not_mem_nil)

/-- One more tag adds at most itself in front. -/
theorem pairTag_sublist (waiting : List TagMark) (t : TagMark) :
    (pairTag waiting t).Sublist (t :: waiting) := by
  have htake : ∀ {waiting rest : List TagMark}, takeNamed t.name waiting = some rest →
      rest.Sublist waiting := by
    intro waiting
    induction waiting with
    | nil =>
      intro rest h
      cases h
    | cons u waiting ih =>
      intro rest h
      rw [takeNamed] at h
      split at h
      · obtain rfl := Option.some.inj h
        exact List.sublist_cons_self u waiting
      · obtain ⟨rest', hrest, rfl⟩ := Option.map_eq_some_iff.1 h
        exact (ih hrest).cons_cons u
  unfold pairTag
  split
  · cases h : takeNamed t.name waiting with
    | none => exact List.Sublist.refl _
    | some rest => exact (htake h).cons t
  · exact List.Sublist.refl _

theorem foldl_pairTag_sublist : ∀ tags waiting : List TagMark,
    (tags.foldl pairTag waiting).Sublist (tags.reverse ++ waiting)
  | [], waiting => List.Sublist.refl _
  | t :: tags, waiting => by
      rw [List.foldl_cons, List.reverse_cons, List.append_assoc]
      exact (foldl_pairTag_sublist tags _).trans ((pairTag_sublist waiting t).append_left _)

/-- What is left stands in the opposite order of the document. -/
theorem unpaired_sublist (tags : List TagMark) : (unpaired tags).Sublist tags.reverse := by
  have h := foldl_pairTag_sublist tags []
  rwa [List.append_nil] at h

/-- A closing tag before which no tag of its name opens is left if and only if an even number of
closing tags of its name came before it and the tags of its name behind it never close more than
they opened. -/
theorem mem_unpaired_iff_even {before after : List TagMark} (ht : t.closing = true)
    (hbefore : ∀ u ∈ before, u.name = t.name → u.closing = true)
    (hnodup : (before ++ t :: after).Nodup) : t ∈ unpaired (before ++ t :: after) ↔
      Even (ofName t.name before).length ∧
        ∀ p, p <+: ofName t.name after → closings p ≤ openings p := by
  have hclosing : ∀ u ∈ ofName t.name before, u.closing = true := by
    intro u hu
    obtain ⟨hmem, hname⟩ := List.mem_filter.1 hu
    exact hbefore u hmem (of_decide_eq_true hname)
  have hlength := length_foldl_closings _ [] hclosing (by simp)
  have hafter : t ∉ ofName t.name after := fun hmem =>
    (List.nodup_cons.1 (List.nodup_append.1 hnodup).2.1).1 (List.mem_filter.1 hmem).1
  have hsplit : ofName t.name (unpaired (before ++ t :: after)) =
    (ofName t.name after).foldl pairNext
      (pairNext ((ofName t.name before).foldl pairNext []) t) := by
    rw [ofName_unpaired, ofName, List.filter_append, List.foldl_append]
    exact congrArg (List.foldl pairNext _) ofName_cons_self
  have hmem : t ∈ unpaired (before ++ t :: after) ↔
      t ∈ ofName t.name (unpaired (before ++ t :: after)) := by
    simp [ofName]
  rw [List.length_nil, Nat.zero_add] at hlength
  rw [hmem, hsplit]
  by_cases heven : Even (ofName t.name before).length
  · have hnil : (ofName t.name before).foldl pairNext [] = [] :=
      List.eq_nil_of_length_eq_zero (hlength.trans (Nat.even_iff.1 heven))
    rw [hnil, pairNext_closing_nil ht]
    refine ⟨fun h => ⟨heven, ?_⟩, fun h => ?_⟩
    · by_contra hcovered
      exact not_mem_foldl_pairNext List.not_mem_nil _ [] hafter hcovered h
    · obtain ⟨upper, hupper⟩ := exists_foldl_pairNext [t] _ [] h.2
      rw [List.nil_append] at hupper
      rw [hupper]
      exact List.mem_append_right upper List.mem_cons_self
  · -- The closing tag takes away an earlier one.
    rw [Nat.not_even_iff.1 heven] at hlength
    obtain ⟨u, hu⟩ := List.length_eq_one_iff.1 hlength
    rw [hu, pairNext_closing_cons ht]
    exact ⟨fun h => absurd ((mem_of_foldl_pairNext h).resolve_right List.not_mem_nil) hafter,
      fun h => absurd h.1 heven⟩

/-! ### Tags of a document -/

theorem le_start_of_ordered {text : Array Char} {m : Match} :
    ∀ {pos : Nat} {ms : List Match}, Ordered text pos ms → m ∈ ms → pos ≤ m.start
  | pos, m' :: ms, h, hm => by
      obtain rfl | hm := List.mem_cons.1 hm
      · exact h.1
      · exact (h.1.trans h.2.1).trans (le_start_of_ordered h.2.2 hm)

theorem pairwise_start_of_ordered {text : Array Char} :
    ∀ {pos : Nat} {ms : List Match}, Ordered text pos ms →
    (∀ m ∈ ms, m.start < m.stop) → ms.Pairwise (·.start < ·.start)
  | _, [], _, _ => List.Pairwise.nil
  | _, m :: ms, h, hlt => by
      refine List.pairwise_cons.2 ⟨fun m' hm' => ?_, ?_⟩
      · exact (hlt m List.mem_cons_self).trans_le (le_start_of_ordered h.2.2 hm')
      · exact pairwise_start_of_ordered h.2.2 fun m' hm' => hlt m' (List.mem_cons_of_mem m hm')

/-- The matches of a pattern that takes a character begin one behind the other. -/
theorem pairwise_start_findAll {p : Pattern} (hp : p.takes = true) (text : Array Char) :
    (p.findAll text).Pairwise (·.start < ·.start) := by
  refine pairwise_start_of_ordered (p.findAll_ordered text) fun m hm => ?_
  obtain ⟨origin, i, q, -, hq, rfl⟩ := Pattern.exists_reach_of_mem_findAll hm
  simp only [Pattern.takes, Bool.and_eq_true] at hp
  have hstart : q.start = i := hq.start_eq hp.1.2
  have hstop : i < q.pos := Node.lt_of_solid hp.2 hq
  rw [← hstart] at hstop
  exact hstop

/-- The tags of a document come one behind the other. -/
theorem pairwise_pairedTags (text : Array Char) :
    (pairedTags text).Pairwise (·.span.start < ·.span.start) := by
  unfold pairedTags
  refine (pairwise_start_findAll tagPattern_takes text).filterMap _ fun m m' hm t ht t' ht' => ?_
  dsimp only at ht ht'
  split at ht
  · cases ht
  split at ht'
  · cases ht'
  rw [← Option.some.inj ht, ← Option.some.inj ht']
  exact hm

/-- The check for orphan tags tells of each tag that is left and counts. -/
theorem orphanCheck_eq (rule : Rule) (text : List Char) (path : String) :
    orphanCheck rule (Document.ofText text path) =
    .ok (some (((unpaired (pairedTags text.toArray)).filter
      fun t => (Document.ofText text path).counts rule.name t.span).map fun t =>
          findingAt rule text t.span)) := by
  have hstart : ∀ s ∈ orphanSpans text.toArray, s.start < text.length := fun s hs =>
    start_lt_size_of_mem_spansOf tagPattern_takes (mem_of_orphanSpans hs)
  unfold orphanCheck
  rw [show (Document.ofText text path).text = text.toArray from rfl, findings_eq hstart,
    Outcome.ok_bind]
  unfold orphanSpans
  -- The regions and the tags stay closed, or they would be computed.
  generalize unpaired (pairedTags text.toArray) = left
  generalize (Document.ofText text path).counts rule.name = counts
  rw [List.filter_map, List.map_map]
  rfl

/-- Orphan tags.  If the tags of each name are balanced, however the names mix, the check for orphan
tags finds nothing.  In any case it tells of some of the tags, each once, from the last to the
first. -/
theorem orphanCheck_balanced (rule : Rule) (text : List Char) (path : String) :
    ((∀ name, Balanced (ofName name (pairedTags text.toArray))) →
      orphanCheck rule (Document.ofText text path) = .ok (some [])) ∧
    ∃ marks : List TagMark, marks.Sublist (pairedTags text.toArray).reverse ∧
      orphanCheck rule (Document.ofText text path) =
      .ok (some (marks.map fun t => findingAt rule text t.span)) ∧
      marks.Pairwise fun a b => b.span.start < a.span.start ∧
        (lineAt text b.span.start < lineAt text a.span.start ∨
          lineAt text b.span.start = lineAt text a.span.start ∧
            columnAt text b.span.start < columnAt text a.span.start) := by
  refine ⟨fun h => ?_, _, ?_, orphanCheck_eq rule text path, ?_⟩
  · rw [orphanCheck_eq, unpaired_eq_nil h]
    rfl
  · exact List.filter_sublist.trans (unpaired_sublist _)
  · have hpairwise := List.pairwise_reverse.2 (pairwise_pairedTags text.toArray)
    have hleft : (unpaired (pairedTags text.toArray)).Pairwise fun a b =>
        b.span.start < a.span.start :=
      hpairwise.sublist (unpaired_sublist _)
    refine (hleft.sublist List.filter_sublist).imp_of_mem fun {a b} ha _ hlt => ⟨hlt, ?_⟩
    have hspan : a.span ∈ orphanSpans text.toArray := List.mem_map_of_mem (List.mem_filter.1 ha).1
    have hend : a.span.start < text.length := start_lt_size_of_mem_spansOf tagPattern_takes
      (mem_of_orphanSpans hspan)
    exact lineAt_lt_or_columnAt_lt hlt hend.le

/-- Two elements that overlap. -/
def overlapping : List Char :=
  ['<', 'a', '>', '<', 'b', '>', '<', '/', 'a', '>', '<', '/', 'b', '>']

/-- The point behind a tag of an overlapping element, whose name begins at `name`. -/
def overlappingPoint (start name stop : Nat) : Point :=
  { pos := stop, start, groups := [(3, ⟨stop - 1, stop - 1⟩), (1, ⟨start + 1, stop - 1⟩), (2, ⟨name, stop - 1⟩)] }

theorem tagPattern_overlapping : tagPattern.node.originFree = true ∧
    (tagPattern.pointsAt overlapping.toArray 0).head? = some (overlappingPoint 0 1 3) ∧
    (tagPattern.pointsAt overlapping.toArray 3).head? = some (overlappingPoint 3 4 6) ∧
    (tagPattern.pointsAt overlapping.toArray 6).head? = some (overlappingPoint 6 8 10) ∧
    (tagPattern.pointsAt overlapping.toArray 10).head? = some (overlappingPoint 10 12 14) ∧
    tagPattern.pointsAt overlapping.toArray 14 = [] := by
  unfold tagPattern Markup.attributeSource Markup.quotedSource Markup.conditionalSource
  rw [Pattern.ofSource_eq_ofChars]
  simp only [String.toList_append, -String.reduceAppend]
  repeat rw [String.toList_ofList]
  decide +kernel

theorem pairedTags_overlapping : pairedTags overlapping.toArray =
    [⟨['a'], false, ⟨0, 3⟩⟩, ⟨['b'], false, ⟨3, 6⟩⟩, ⟨['a'], true, ⟨6, 10⟩⟩,
    ⟨['b'], true, ⟨10, 14⟩⟩] := by
  have hvoid : [['a'], ['b'], ['/', 'a'], ['/', 'b']].all (fun n => !voidPattern.occurs n.toArray) =
      true := by
    unfold voidPattern Markup.voidSource
    rw [Pattern.ofSource_eq_ofChars]
    decide +kernel
  obtain ⟨hfree, h₀, h₃, h₆, h₁₀, h₁₄⟩ := tagPattern_overlapping
  have hend : tagPattern.found overlapping.toArray 14 false = [] :=
    Pattern.found_end hfree fun q hq => absurd (h₁₄ ▸ hq) List.not_mem_nil
  have hfound : tagPattern.findAll overlapping.toArray = [.ofPoint (overlappingPoint 0 1 3),
      .ofPoint (overlappingPoint 3 4 6), .ofPoint (overlappingPoint 6 8 10),
      .ofPoint (overlappingPoint 10 12 14)] := by
    rw [Pattern.findAll_eq_found, Pattern.found_of_head? hfree (by decide) h₀]
    refine congrArg (List.cons _) ((Pattern.found_of_head? hfree (by decide) h₃).trans
      (congrArg (List.cons _) ?_))
    refine (Pattern.found_of_head? hfree (by decide) h₆).trans (congrArg (List.cons _) ?_)
    exact (Pattern.found_of_head? hfree (by decide) h₁₀).trans (congrArg (List.cons _) hend)
  simp only [List.all_cons, List.all_nil, Bool.and_true, Bool.and_eq_true,
    Bool.not_eq_true'] at hvoid
  obtain ⟨ha, hb, ha', hb'⟩ := hvoid
  have hmark : ∀ (m : Match) (full name : List Char), m.capture overlapping.toArray 1 = full →
      m.capture overlapping.toArray 2 = name → voidPattern.occurs full.toArray = false →
      (if voidPattern.occurs (m.capture overlapping.toArray 1).toArray then none
        else some (⟨m.capture overlapping.toArray 2, (m.capture overlapping.toArray 1).head? ==
          some '/', m.span⟩ : TagMark)) = some ⟨name, full.head? == some '/', m.span⟩ := by
    rintro m full name rfl rfl hfull
    rw [hfull]
    rfl
  have h₁ := hmark (.ofPoint (overlappingPoint 0 1 3)) ['a'] ['a'] (by decide) (by decide) ha
  have h₂ := hmark (.ofPoint (overlappingPoint 3 4 6)) ['b'] ['b'] (by decide) (by decide) hb
  have h₃ := hmark (.ofPoint (overlappingPoint 6 8 10)) ['/', 'a'] ['a'] (by decide) (by decide) ha'
  have h₄ := hmark (.ofPoint (overlappingPoint 10 12 14)) ['/', 'b'] ['b']
    (by decide) (by decide) hb'
  unfold pairedTags
  simp only [hfound, List.filterMap_cons, List.filterMap_nil, h₁, h₂, h₃, h₄]
  rfl

/-- Overlapping elements are balanced. -/
theorem balanced_overlapping (name : List Char) :
    Balanced (ofName name (pairedTags overlapping.toArray)) := by
  have hpair : ∀ t u : TagMark, t.closing = false → u.closing = true → Balanced [t, u] := by
    intro t u ht hu
    refine ⟨?_, by simp [closings, openings, ht, hu]⟩
    have hcovered : Covered 0 [t, u] :=
      (covered_cons_opening ht).2 ((covered_cons_closing hu).2 ⟨Nat.one_pos, fun p hp => by
        simp [List.prefix_nil.1 hp, closings]⟩)
    exact hcovered
  rw [pairedTags_overlapping]
  by_cases ha : name = ['a']
  · subst ha
    exact hpair ⟨['a'], false, ⟨0, 3⟩⟩ ⟨['a'], true, ⟨6, 10⟩⟩ rfl rfl
  by_cases hb : name = ['b']
  · subst hb
    exact hpair ⟨['b'], false, ⟨3, 6⟩⟩ ⟨['b'], true, ⟨10, 14⟩⟩ rfl rfl
  have hnone : ofName name [⟨['a'], false, ⟨0, 3⟩⟩, ⟨['b'], false, ⟨3, 6⟩⟩, ⟨['a'], true, ⟨6, 10⟩⟩,
      ⟨['b'], true, ⟨10, 14⟩⟩] = [] := by
    simp [ofName, Ne.symm ha, Ne.symm hb]
  rw [hnone]
  exact ⟨fun p hp => by simp [List.prefix_nil.1 hp, closings], rfl⟩

/-- Overlapping elements have no orphan tags. -/
theorem orphanCheck_balanced_overlapping :
    (∀ name, Balanced (ofName name (pairedTags overlapping.toArray))) ∧
    orphanCheck Catalog.h025 (Document.ofText overlapping "a.html") = .ok (some []) :=
  ⟨balanced_overlapping, (orphanCheck_balanced Catalog.h025 overlapping "a.html").1
    balanced_overlapping⟩

end TemplateTidy.Lint
