import TemplateTidy.Proofs.Layout.BreakTags

/-! # Tags on lines of their own

In a text without quotes and braces, `Broken` says what a pass of breaks writes, in terms of the
text alone: it goes from left to right, copies what begins no tag, and puts a tag on one side of a
line feed unless the tag has its line there already; then it goes on inside the tag.  `Scanned` says
what holds of the tags that a search finds.  After both passes each tag has only spaces before it
and white space after it on its line (`isolated_of_passes`). -/

namespace TemplateTidy.Layout

open Node Pattern Text

/-! ### Lines -/

/-- Only spaces stand behind the last line feed. -/
def opensLine (u : List Char) : Bool :=
  (u.reverse.takeWhile (· != '\n')).all (· == ' ')

/-- Only white space stands before the next line feed. -/
def closesLine (s : List Char) : Bool :=
  (s.takeWhile (· != '\n')).all isSpace

theorem opensLine_concat (u : List Char) (c : Char) :
    opensLine (u ++ [c]) = (c == '\n' || c == ' ' && opensLine u) := by
  rw [opensLine, List.reverse_append, List.reverse_singleton, List.singleton_append,
    List.takeWhile_cons]
  by_cases hc : c = '\n'
  · simp [hc]
  · rw [if_pos (bne_iff_ne.2 hc), List.all_cons, beq_eq_false_iff_ne.2 hc, Bool.false_or]
    rfl

theorem opensLine_feed (u : List Char) : opensLine (u ++ ['\n']) = true := by
  rw [opensLine_concat]
  rfl

/-- Behind the end of a tag no line opens. -/
theorem opensLine_close (u : List Char) : opensLine (u ++ ['>']) = false := by
  rw [opensLine_concat]
  rfl

/-- One more character opens a line if the line was open before. -/
theorem opensLine_concat_of {u u' : List Char} (h : opensLine u = true → opensLine u' = true)
    (c : Char) (hc : opensLine (u ++ [c]) = true) : opensLine (u' ++ [c]) = true := by
  rw [opensLine_concat, Bool.or_eq_true, Bool.and_eq_true] at hc ⊢
  exact hc.imp_right fun hc => ⟨hc.1, h hc.2⟩

/-- White space stands before the next line feed, or nothing is left. -/
def EndsLine (s : List Char) : Prop :=
  s = [] ∨ ∃ g t, s = g ++ '\n' :: t ∧ ∀ c ∈ g, isSpace c = true

theorem closesLine_append {g : List Char} (hg : ∀ c ∈ g, isSpace c = true) (t : List Char) :
    closesLine (g ++ '\n' :: t) = true := by
  induction g with
  | nil => rfl
  | cons d g ih =>
    rw [List.forall_mem_cons] at hg
    rw [closesLine, List.cons_append, List.takeWhile_cons]
    split
    · rw [List.all_cons, hg.1]
      exact ih hg.2
    · rfl

/-- Where a line has ended, it has ended after line feeds beside brackets as well. -/
theorem closesLine_of_spread {s s' : List Char} (h : EndsLine s) (hs : Spread '<' '>' s s') :
    closesLine s' = true := by
  obtain rfl | ⟨g, t, rfl, hg⟩ := h
  · cases hs
    rfl
  · have hnot : ∀ x : Char, isSpace x = false → x ∉ g := by
      intro x hx hmem
      rw [hg x hmem] at hx
      cases hx
    obtain ⟨b, rfl, hb⟩ := hs.exists_of_append (hnot '<' (by decide)) (hnot '>' (by decide))
    cases hb with
    | keep _ hb => exact closesLine_append hg _

/-! ### Conditions of the patterns -/

variable {scene : Scene} {p q : Point}

/-- Going back over spaces to a line feed, the line is open. -/
theorem opensLine_of_iter {n : Nat} {m : Point}
    (hiter : Iter (Reach scene (.one (signSet ' ')) true) n p m)
    (hfeed : scene.stepOver true feedSet m = some q) :
    ∀ {u r : List Char}, scene.text.toList = u ++ r → p.pos = u.length → opensLine u = true := by
  have hlast : ∀ {m : Point} {u r : List Char} {c : Char}, scene.text.toList = u ++ r →
      m.pos = u.length → 0 < m.pos → scene.text[m.pos - 1]? = some c → ∃ x, u = x ++ [c] := by
    intro m u r c htext hpos h0 hc
    rw [hpos] at h0 hc
    exact ⟨_, (List.dropLast_append_getLast? c (getLast?_of_getElem? htext h0 hc)).symm⟩
  induction hiter with
  | zero p =>
    intro u r htext hpos
    obtain ⟨c, h0, hc, hholds, -⟩ := Scene.stepOver_backward.1 hfeed
    obtain ⟨x, rfl⟩ := hlast htext hpos h0 hc
    obtain rfl := eq_of_feedSet hholds
    exact opensLine_feed x
  | succ hstep _ ih =>
    intro u r htext hpos
    obtain ⟨c, h0, hc, hholds, rfl⟩ := Scene.stepOver_backward.1 hstep
    obtain ⟨x, rfl⟩ := hlast htext hpos h0 hc
    rw [holds_signSet (by decide), beq_iff_eq] at hholds
    subst hholds
    rw [opensLine_concat]
    exact ih hfeed (r := ' ' :: r) (by simp [htext]) (by simp [hpos])

theorem opensLine_of_behind {u r : List Char} (htext : scene.text.toList = u ++ r)
    (hpos : p.pos = u.length)
    (h : (Node.seq (.one feedSet) blankRun).points scene true p ≠ []) : opensLine u = true := by
  obtain ⟨q, hq⟩ := List.exists_mem_of_ne_nil _ h
  obtain ⟨m, ⟨n, -, -, hiter⟩, hfeed⟩ := reach_of_mem_points hq
  exact opensLine_of_iter hiter hfeed htext hpos

/-- White space up to a line feed. -/
theorem points_lineEnd_ne_nil_iff :
    (Node.seq (.rep (.one spaceSet) 0 none true) (.one feedSet)).points scene false p ≠ [] ↔
    ∃ g t, scene.rest p = g ++ '\n' :: t ∧ ∀ c ∈ g, isSpace c = true := by
  constructor
  · intro h
    obtain ⟨q, hq⟩ := List.exists_mem_of_ne_nil _ h
    rw [points_seq] at hq
    obtain ⟨m, hm, hq⟩ := List.mem_flatMap.1 hq
    obtain ⟨i, -, hi, rfl⟩ := mem_points_run.1 hm
    obtain ⟨c, t, hc, hholds, -⟩ := reach_one.1 (reach_of_mem_points hq)
    obtain rfl := eq_of_feedSet hholds
    rw [Scene.rest_move] at hc
    refine ⟨(scene.rest p).take i, t, by rw [← hc, List.take_append_drop], fun c hmem => ?_⟩
    -- the run is a part of the text from its beginning on
    have hrun : (scene.rest p).take i = ((scene.rest p).takeWhile spaceSet.holds).take i := by
      rw [List.prefix_iff_eq_take.1 (List.takeWhile_prefix spaceSet.holds), List.take_take,
        ← runLength, Nat.min_eq_left hi]
    rw [hrun] at hmem
    rw [← holds_spaceSet]
    exact List.mem_takeWhile_imp (List.mem_of_mem_take hmem)
  · rintro ⟨g, t, hrest, hg⟩
    have hfeed : scene.rest (p.move g.length) = '\n' :: t := by
      rw [Scene.rest_move, hrest, List.drop_left]
    have hrun : g.length ≤ runLength spaceSet (scene.rest p) := by
      rw [hrest, runLength_append fun c hc => by rw [holds_spaceSet, hg c hc]]
      exact Nat.le_add_right _ _
    rw [points_seq]
    refine List.ne_nil_of_mem (a := (p.move g.length).move 1)
      (List.mem_flatMap.2 ⟨p.move g.length, ?_, ?_⟩)
    · exact mem_points_run.2 ⟨g.length, Nat.zero_le _, hrun, rfl⟩
    · rw [points_one_of_holds hfeed (by decide)]
      exact List.mem_singleton_self _

/-- Nothing stands ahead on the line exactly if the line ends there. -/
theorem points_ahead : aheadNode.points scene false p = [] ∧ EndsLine (scene.rest p) ∨
    aheadNode.First scene p p ∧ ¬EndsLine (scene.rest p) := by
  by_cases hend : (Node.seq (.rep (.one spaceSet) 0 none true) (.one feedSet)).points
    scene false p = []
  · have hstay : (Node.look false false (.seq (.rep (.one spaceSet) 0 none true)
      (.one feedSet))).points scene
        false p = [p] := by
      rw [points, hend]
      rfl
    have hnone : ¬∃ g t, scene.rest p = g ++ '\n' :: t ∧ ∀ c ∈ g, isSpace c = true :=
      fun h => points_lineEnd_ne_nil_iff.2 h hend
    rw [aheadNode, First, points_seq_singleton hstay, points]
    cases hrest : scene.rest p with
    | nil =>
      rw [points_one_of_not (by simp [hrest])]
      exact .inl ⟨rfl, .inl rfl⟩
    | cons c l =>
      have hc : c ≠ '\n' := by
        rintro rfl
        exact hnone ⟨[], l, hrest, by simp⟩
      rw [points_one_of_holds hrest (by simp [holds_beyondSet, hc]), ← hrest]
      exact .inr ⟨rfl, fun h => h.elim (by simp [hrest]) hnone⟩
  · refine .inl ⟨points_seq_nil_left ?_, .inr (points_lineEnd_ne_nil_iff.1 hend)⟩
    obtain ⟨m, l, hm⟩ := List.exists_cons_of_ne_nil hend
    rw [points, hm]
    rfl

/-! ### What a pass writes -/

/-- A tag needs no line feed: before it the line is open, or after it the line ends. -/
def Side.Keeps : Side → List Char → List Char → Prop
  | .before, u, _ => opensLine u = true
  | .after, _, s => EndsLine s

/-- What a pass writes for the rest of a text, where `u` stands before it. -/
inductive Broken (side : Side) : (u rest out : List Char) → Prop
  | nil (u : List Char) : Broken side u [] []
  | copy {u r out : List Char} {c : Char} (hno : ¬BeginsTag (c :: r))
      (h : Broken side (u ++ [c]) r out) : Broken side u (c :: r) (c :: out)
  | keep {u v s out : List Char} (htag : BeginsTag ('<' :: (v ++ '>' :: s))) (hv : '>' ∉ v)
      (hkeep : side.Keeps u s)
      (h : Broken side (u ++ ['<']) (v ++ '>' :: s) out) :
        Broken side u ('<' :: (v ++ '>' :: s)) ('<' :: out)
  | isolate {u v s out : List Char} (htag : BeginsTag ('<' :: (v ++ '>' :: s))) (hv : '>' ∉ v)
      (hends : side = .after → ¬EndsLine s) (h : Broken side (u ++ '<' :: (v ++ ['>'])) s out) :
      Broken side u ('<' :: (v ++ '>' :: s)) (side.isolate u.length ('<' :: (v ++ ['>'])) ++ out)

theorem BeginsTag.exists_split {r : List Char} (h : BeginsTag r) :
    ∃ v s, r = '<' :: (v ++ '>' :: s) ∧ '>' ∉ v := by
  obtain ⟨hclose, closing, t, rfl, -⟩ := h
  obtain ⟨x, hx⟩ : ∃ x, bracket closing ++ t = '<' :: x := by cases closing <;> exact ⟨_, rfl⟩
  rw [hx, List.mem_cons] at hclose
  obtain ⟨v, s, rfl, hv⟩ := List.eq_append_cons_of_mem (hclose.resolve_left (by decide))
  exact ⟨v, s, hx, hv⟩

theorem not_beginsTag_of_ne {c : Char} {r : List Char} (hc : c ≠ '<') : ¬BeginsTag (c :: r) := by
  intro h
  obtain ⟨v, s, hsplit, -⟩ := h.exists_split
  exact hc (List.cons.inj hsplit).1

/-- The pattern finds tags and leaves those alone that need no line feed. -/
structure BreaksOn (P : Pattern) (side : Side) : Prop where
  starts : P.StartsTag
  none : ∀ {text : Array Char} {u r : List Char}, Unquoted text.toList → text.toList = u ++ r →
    ¬BeginsTag r → P.pointsAt text u.length = []
  tag : ∀ {text : Array Char} {u v s : List Char}, Unquoted text.toList →
    text.toList = u ++ '<' :: (v ++ '>' :: s) → BeginsTag ('<' :: (v ++ '>' :: s)) → '>' ∉ v →
    side.Keeps u s ∧ P.pointsAt text u.length = [] ∨ (side = .after → ¬EndsLine s) ∧
      ∃ q, P.node.First (P.scene text 0) (.at u.length) q ∧ q.start = u.length ∧
        q.pos = (u ++ '<' :: (v ++ ['>'])).length ∧
        q.group? 1 = some ⟨u.length, u.length + ('<' :: (v ++ ['>'])).length⟩

/-- A pass writes what the relation says. -/
theorem BreaksOn.broken_rewriteFrom {P : Pattern} {side : Side} (hP : BreaksOn P side)
    {text : Array Char} {f : Match → List Char}
    (hf : ∀ m, f m = side.isolate m.start (m.capture text 1)) (hfree : Unquoted text.toList)
    (u : List Char) : ∀ r : List Char, text.toList = u ++ r →
      Broken side u r (P.rewriteFrom f text u.length false)
  | [], htext => by
      rw [hP.starts.rewriteFrom_stop (htext.trans (List.append_nil u))]
      exact .nil u
  | c :: r, htext => by
      have hcopy : P.pointsAt text u.length = [] → P.rewriteFrom f text u.length false =
          c :: P.rewriteFrom f text (u ++ [c]).length false := by
        intro hnone
        rw [rewriteFrom_skip hP.starts.originFree (getElem?_length htext) (by simp [hnone])]
        simp
      have hnext := hP.broken_rewriteFrom hf hfree (u ++ [c]) r (by simp [htext])
      by_cases htag : BeginsTag (c :: r)
      · obtain ⟨v, s, hsplit, hv⟩ := htag.exists_split
        obtain ⟨rfl, rfl⟩ := List.cons.inj hsplit
        obtain ⟨hkeep, hnone⟩ | ⟨hends, q, hfirst, hstart, hpos, hgroup⟩ :=
          hP.tag hfree htext htag hv
        · rw [hcopy hnone]
          exact .keep htag hv hkeep hnext
        · have hpiece : text.toList = u ++ ('<' :: (v ++ ['>']) ++ s) := by simp [htext]
          rw [rewriteFrom_piece hP.starts.originFree hpiece hfirst hstart hpos, hf,
            capture_group hpiece hgroup]
          rw [show (Match.ofPoint q).start = u.length from hstart]
          exact .isolate htag hv hends
            (hP.broken_rewriteFrom hf hfree (u ++ '<' :: (v ++ ['>'])) s (by simp [htext]))
      · rw [hcopy (hP.none hfree htext htag)]
        exact .copy htag hnext
termination_by r => r.length

section patterns

variable {P : Pattern} {text : Array Char} {u v s : List Char} (hfree : Unquoted text.toList)
include hfree

theorem points_tagGroup_eq_nil {r : List Char} (htext : text.toList = u ++ r) (hno : ¬BeginsTag r) :
    (Node.group 1 breakTagNode).points (P.scene text 0) false (.at u.length) = [] := by
  rw [points_group, points_breakTag_eq_nil hfree (by rwa [rest_at htext])]
  rfl

/-- The group of a tag goes up to the first closing bracket, whichever way it is matched. -/
theorem pos_of_mem_tagGroup (htext : text.toList = u ++ '<' :: (v ++ '>' :: s)) (hv : '>' ∉ v)
    (hq : q ∈ (Node.group 1 breakTagNode).points (P.scene text 0) false (.at u.length)) :
    q.pos = (u ++ '<' :: (v ++ ['>'])).length := by
  rw [points_group] at hq
  obtain ⟨m, hm, rfl⟩ := List.mem_map.1 hq
  obtain ⟨-, v', s', hrest, hv', hpos, -⟩ := mem_points_breakTag hfree hm
  rw [rest_at htext] at hrest
  have hopen : '>' ∉ '<' :: v := by simp [hv]
  obtain ⟨rfl, -⟩ := split_unique hv' hopen hrest.symm
  rw [Point.mark_pos, hpos]
  simp [Point.at]
  omega

theorem exists_first_tagGroup (htext : text.toList = u ++ '<' :: (v ++ '>' :: s))
    (htag : BeginsTag ('<' :: (v ++ '>' :: s))) (hv : '>' ∉ v) :
    ∃ q, (Node.group 1 breakTagNode).First (P.scene text 0) (.at u.length) q ∧ q.start = u.length ∧
      q.pos = (u ++ '<' :: (v ++ ['>'])).length ∧
      q.group? 1 = some ⟨u.length, u.length + ('<' :: (v ++ ['>'])).length⟩ := by
  have hrest : (P.scene text 0).rest (.at u.length) = ('<' :: v) ++ '>' :: s := rest_at htext
  obtain ⟨q, hfirst, hpos, hstart⟩ := exists_first_breakTag (by exact hfree) (hrest ▸ htag)
    hrest (by simp [hv])
  refine ⟨_, hfirst.group, hstart, ?_, ?_⟩
  · rw [Point.mark_pos, hpos]
    simp [Point.at]
  · rw [hpos]
    rfl

end patterns

theorem breaksOn_before : BreaksOn beforePattern .before where
  starts := startsTag_before
  none := by
    intro text u r hfree htext hno
    rw [pointsAt, node_beforePattern]
    refine points_seq_nil_right fun m hm => ?_
    obtain ⟨-, rfl⟩ := reach_of_mem_points hm
    exact (points_seq_singleton (m := .at u.length) (by rw [points]; rfl)).trans
      (points_tagGroup_eq_nil hfree htext hno)
  tag := by
    intro text u v s hfree htext htag hv
    by_cases hlook : (Node.seq (.one feedSet) blankRun).points (beforePattern.scene text 0) true
      (.at u.length) = []
    · obtain ⟨q, hfirst, hq⟩ := exists_first_tagGroup (P := beforePattern) hfree htext htag hv
      refine .inr ⟨by simp, q, ?_, hq⟩
      rw [node_beforePattern]
      refine First.seq (m := .at u.length) ?_ (First.seq (m := .at u.length) ?_ hfirst)
      · rw [First, points, hlook]
        rfl
      · rw [First, points]
        rfl
    · refine .inl ⟨opensLine_of_behind htext rfl hlook, ?_⟩
      rw [pointsAt, node_beforePattern]
      refine points_seq_nil_left ?_
      rw [points]
      obtain ⟨q, l, hq⟩ := List.exists_cons_of_ne_nil hlook
      rw [hq]
      rfl

theorem breaksOn_after : BreaksOn afterPattern .after where
  starts := startsTag_after
  none := by
    intro text u r hfree htext hno
    rw [pointsAt, node_afterPattern]
    exact points_seq_nil_left (points_tagGroup_eq_nil hfree htext hno)
  tag := by
    intro text u v s hfree htext htag hv
    have hrest : ∀ m : Point, m.pos = (u ++ '<' :: (v ++ ['>'])).length →
        (afterPattern.scene text 0).rest m = s := by
      intro m hm
      rw [(afterPattern.scene text 0).rest_eq_of_pos (.at _) hm]
      exact rest_at (by simp [htext])
    obtain ⟨q, hfirst, hstart, hpos, hgroup⟩ :=
      exists_first_tagGroup (P := afterPattern) hfree htext htag hv
    by_cases hend : EndsLine s
    · refine .inl ⟨hend, ?_⟩
      rw [pointsAt, node_afterPattern]
      refine points_seq_nil_right fun m hm => ?_
      have hm := hrest m (pos_of_mem_tagGroup hfree htext hv hm)
      exact (points_ahead.resolve_right fun h => h.2 (hm ▸ hend)).1
    · refine .inr ⟨fun _ => hend, q, ?_, hstart, hpos, hgroup⟩
      rw [node_afterPattern]
      exact First.seq hfirst (points_ahead.resolve_left fun h => hend (hrest q hpos ▸ h.2)).1

/-! ### What a search finds -/

/-- A search finds tags from left to right, and each of them has the property, which is about what
stands before the tag and what stands after it. -/
inductive Scanned (Q : List Char → List Char → Prop) : (u rest : List Char) → Prop
  | nil (u : List Char) : Scanned Q u []
  | skip {u r : List Char} {c : Char} (hno : ¬BeginsTag (c :: r)) (h : Scanned Q (u ++ [c]) r) :
      Scanned Q u (c :: r)
  | tag {u v s : List Char} (htag : BeginsTag ('<' :: (v ++ '>' :: s))) (hv : '>' ∉ v) (hQ : Q u s)
      (h : Scanned Q (u ++ '<' :: (v ++ ['>'])) s) : Scanned Q u ('<' :: (v ++ '>' :: s))

namespace Broken

variable {side : Side} {u r out v s : List Char}

theorem spread (h : Broken side u r out) : Spread '<' '>' r out := by
  induction h with
  | nil => exact .nil
  | copy _ _ ih => exact .keep _ ih
  | keep _ _ _ _ ih => exact .keep _ ih
  | @isolate u v s out _ _ _ _ ih =>
    have htag : Spread '<' '>' ('<' :: (v ++ ['>']))
        (side.isolate u.length ('<' :: (v ++ ['>']))) :=
      spread_isolate ⟨_, rfl⟩ ⟨'<' :: v, rfl⟩ side _
    simpa using htag.append ih

/-- From inside a tag, the first pass writes what ends at the same closing bracket. -/
theorem through_before (h : Broken .before u r out) (hr : r = v ++ '>' :: s) (hv : '>' ∉ v) :
    ∃ v' out', out = v' ++ '>' :: out' ∧ '>' ∉ v' ∧ Broken .before (u ++ (v ++ ['>'])) s out' := by
  have hopen : ∀ {w}, '>' ∉ w → '>' ∉ '<' :: w := fun hw => by simp [hw]
  induction h generalizing v with
  | nil => simp at hr
  | @copy u r out c hno h ih =>
    cases v with
    | nil =>
      obtain ⟨rfl, rfl⟩ := List.cons.inj hr
      exact ⟨[], out, rfl, List.not_mem_nil, h⟩
    | cons d v =>
      obtain ⟨rfl, rfl⟩ := List.cons.inj hr
      rw [List.mem_cons, not_or] at hv
      obtain ⟨v', out', rfl, hv', hout⟩ := ih rfl hv.2
      exact ⟨c :: v', out', rfl, by simp [hv.1, hv'], by simpa using hout⟩
  | keep _ hv' _ _ ih =>
    obtain ⟨rfl, rfl⟩ := split_unique hv (hopen hv') hr.symm
    obtain ⟨v', out', rfl, hv'', hout⟩ := ih rfl hv'
    exact ⟨'<' :: v', out', rfl, hopen hv'', by simpa using hout⟩
  | @isolate u v' s' out _ hv' _ h ih =>
    obtain ⟨rfl, rfl⟩ := split_unique hv (hopen hv') hr.symm
    rw [isolate_before]
    split
    · exact ⟨'<' :: v', out, by simp, hopen hv', h⟩
    · exact ⟨'\n' :: '<' :: v', out, by simp, by simp [hv'], h⟩

/-- From inside a tag after which the line ends, the second pass copies up to the closing
bracket. -/
theorem through_after (h : Broken .after u r out) (hr : r = v ++ '>' :: s) (hv : '>' ∉ v)
    (hs : EndsLine s) :
    ∃ out', out = v ++ '>' :: out' ∧ Broken .after (u ++ (v ++ ['>'])) s out' := by
  have hopen : ∀ {w}, '>' ∉ w → '>' ∉ '<' :: w := fun hw => by simp [hw]
  induction h generalizing v with
  | nil => simp at hr
  | @copy u r out c hno h ih =>
    cases v with
    | nil =>
      obtain ⟨rfl, rfl⟩ := List.cons.inj hr
      exact ⟨out, rfl, h⟩
    | cons d v =>
      obtain ⟨rfl, rfl⟩ := List.cons.inj hr
      obtain ⟨out', rfl, hout⟩ := ih rfl (fun hmem => hv (List.mem_cons_of_mem _ hmem))
      exact ⟨out', rfl, by simpa using hout⟩
  | keep _ hv' _ _ ih =>
    obtain ⟨rfl, rfl⟩ := split_unique hv (hopen hv') hr.symm
    obtain ⟨out', rfl, hout⟩ := ih rfl hv'
    exact ⟨out', rfl, by simpa using hout⟩
  | isolate _ hv' hends _ _ =>
    obtain ⟨rfl, rfl⟩ := split_unique hv (hopen hv') hr.symm
    exact absurd hs (hends rfl)

theorem not_opensLine_tag {u v : List Char} {P : Prop}
    (h : opensLine (u ++ '<' :: (v ++ ['>'])) = true) : P := by
  rw [← List.cons_append, ← List.append_assoc, opensLine_close] at h
  cases h

/-- After the first pass, the line is open before each tag. -/
theorem scanned_before {u r out : List Char} (h : Broken .before u r out) (u' : List Char)
    (hu : opensLine u = true → opensLine u' = true) :
    Scanned (fun u _ => opensLine u = true) u' out := by
  cases h with
  | nil => exact .nil _
  | @copy _ r out c hno h =>
    exact .skip (fun htag => hno ((beginsTag_spread h.spread).1 htag))
      (scanned_before h _ (opensLine_concat_of hu c))
  | @keep _ v s out htag hv hkeep h =>
    -- inside the tag a line feed may come in, but the tag ends at the same place
    obtain ⟨v', out', rfl, hv', hout⟩ := h.through_before rfl hv
    exact .tag ((beginsTag_spread h.spread).2 htag) hv' (hu hkeep)
      (scanned_before hout _ fun hline => not_opensLine_tag (by simpa using hline))
  | @isolate _ v s out htag hv hends h =>
    have htag' : BeginsTag ('<' :: (v ++ '>' :: out)) :=
      (beginsTag_spread ((Spread.refl v).append (.keep '>' h.spread))).2 htag
    have hscan : ∀ u'', opensLine u'' = true →
        Scanned (fun u _ => opensLine u = true) u'' ('<' :: (v ++ ['>']) ++ out) := by
      intro u'' hline
      have hnext := scanned_before h (u'' ++ '<' :: (v ++ ['>'])) not_opensLine_tag
      simpa using Scanned.tag htag' hv hline hnext
    rw [isolate_before, List.append_assoc]
    split
    next hzero =>
      obtain rfl := List.length_eq_zero_iff.1 hzero
      exact hscan u' (hu rfl)
    next => exact .skip (not_beginsTag_of_ne (by decide)) (hscan _ (opensLine_feed u'))
termination_by r.length

/-- After the second pass, the line is open before each tag and ends after it. -/
theorem scanned_after {u r : List Char} (hscan : Scanned (fun u _ => opensLine u = true) u r) :
    ∀ {out : List Char}, Broken .after u r out → ∀ u', (opensLine u = true → opensLine u' = true) →
      Scanned (fun u s => opensLine u = true ∧ closesLine s = true) u' out := by
  induction hscan with
  | nil u =>
    intro out h u' _
    cases h
    exact .nil u'
  | @skip u r c hno _ ih =>
    intro out h u' hu
    cases h with
    | copy _ h =>
      exact .skip (fun htag => hno ((beginsTag_spread h.spread).1 htag))
        (ih h _ (opensLine_concat_of hu c))
    | keep htag => exact absurd htag hno
    | isolate htag => exact absurd htag hno
  | @tag u v s htag hv hline _ ih =>
    intro out h u' hu
    -- what is written behind the tag is scanned on, whatever is written before it
    have hnext : ∀ {out : List Char} (x : List Char),
        Broken .after (u ++ '<' :: (v ++ ['>'])) s out →
        Scanned (fun u s => opensLine u = true ∧ closesLine s = true) x out :=
      fun x h => ih h x not_opensLine_tag
    generalize hr : '<' :: (v ++ '>' :: s) = r at h
    cases h with
    | nil => cases hr
    | copy hno => exact absurd (hr ▸ htag) hno
    | keep _ hv' hend h =>
      obtain ⟨rfl, rfl⟩ := split_unique hv hv' (List.cons.inj hr).2
      obtain ⟨out', rfl, hout⟩ := h.through_after rfl hv hend
      have hout : Broken .after (u ++ '<' :: (v ++ ['>'])) s out' := by simpa using hout
      exact .tag ((beginsTag_spread h.spread).2 htag) hv ⟨hu hline,
        closesLine_of_spread hend hout.spread⟩
        (hnext _ hout)
    | @isolate _ _ _ out _ hv' _ h =>
      obtain ⟨rfl, rfl⟩ := split_unique hv hv' (List.cons.inj hr).2
      have hspread : Spread '<' '>' (v ++ '>' :: s) (v ++ '>' :: '\n' :: out) :=
        (Spread.refl v).append (.after h.spread)
      have htag' := (beginsTag_spread hspread).2 htag
      simpa [Side.isolate] using Scanned.tag htag' hv ⟨hu hline,
        closesLine_append (g := []) (by simp) out⟩
        (.skip (not_beginsTag_of_ne (by decide)) (hnext _ h))

end Broken

/-! ### Tags in the result -/

/-- The pattern of a tag that stands on a line of its own. -/
abbrev breakTagPattern : Pattern := (Choice.last <| .atom (breakTag []) .fin).pattern loose

theorem node_breakTagPattern : breakTagPattern.node = .group 1 breakTagNode := by
  have h : Node.seq breakTagPattern.node _ = .seq (.group 1 breakTagNode) aheadNode :=
    node_afterPattern
  exact (Node.seq.inj h).1

theorem originFree_breakTagPattern : breakTagPattern.node.originFree = true := by
  have h := startsTag_after.originFree
  rw [node_afterPattern] at h
  rw [node_breakTagPattern]
  exact (Bool.and_eq_true_iff.1 h).1

theorem not_beginsTag_nil : ¬BeginsTag [] := fun h => by simpa using h.1

/-- What is said of a scan holds of each match. -/
theorem Scanned.of_mem_found {Q : List Char → List Char → Prop} {text : Array Char}
    (hfree : Unquoted text.toList) {u r : List Char} (h : Scanned Q u r) : text.toList = u ++ r →
      ∀ m ∈ breakTagPattern.found text u.length false, Q (text.toList.take m.start)
        (text.toList.drop m.stop) := by
  have hnone : ∀ {u r : List Char}, text.toList = u ++ r → ¬BeginsTag r →
      breakTagPattern.pointsAt text u.length = [] := by
    intro u r htext hno
    rw [pointsAt, node_breakTagPattern]
    exact points_tagGroup_eq_nil hfree htext hno
  induction h with
  | nil u =>
    intro htext m hm
    have hsize : text.size = u.length := by rw [← Array.length_toList, htext, List.append_nil]
    rw [← hsize, found_end originFree_breakTagPattern
      (by simp [hsize, hnone htext not_beginsTag_nil])] at hm
    cases hm
  | @skip u r c hno _ ih =>
    intro htext m hm
    have hlt : u.length < text.size := by
      rw [← Array.length_toList, htext]
      simp
    rw [found_skip originFree_breakTagPattern hlt (by simp [hnone htext hno])] at hm
    exact ih (by simp [htext]) m (by simpa using hm)
  | @tag u v s htag hv hQ _ ih =>
    intro htext m hm
    obtain ⟨q, hfirst, hstart, hpos, -⟩ :=
      exists_first_tagGroup (P := breakTagPattern) hfree htext htag hv
    have hhead : (breakTagPattern.pointsAt text u.length).head? = some q := by
      rw [pointsAt, node_breakTagPattern]
      exact hfirst
    have hne : (q.start == q.pos) = false := by
      rw [beq_eq_false_iff_ne, hstart, hpos]
      simp
    have htext' : text.toList = u ++ '<' :: (v ++ ['>']) ++ s := by simp [htext]
    rw [found_of_head? originFree_breakTagPattern (length_le_size htext) hhead, hne, hpos,
      List.mem_cons] at hm
    obtain rfl | hm := hm
    · show Q (text.toList.take q.start) (text.toList.drop q.pos)
      rw [hstart, hpos, htext', List.drop_left, List.append_assoc, List.take_left]
      exact hQ
    · exact ih htext' m hm

/-- In a text without quotes and braces, after both passes each tag has only spaces before it and
white space after it on its line. -/
theorem isolated_of_passes {text : List Char} {f g : Match → List Char} {middle result : List Char}
    (hfree : Unquoted text) (hf : ∀ m, f m = Side.before.isolate m.start (m.capture text.toArray 1))
    (hmiddle : beforePattern.replaceAll f text.toArray = middle)
    (hg : ∀ m, g m = Side.after.isolate m.start (m.capture middle.toArray 1))
    (hresult : afterPattern.replaceAll g middle.toArray = result) :
    ∀ m ∈ breakTagPattern.findAll result.toArray,
      opensLine (result.take m.start) = true ∧ closesLine (result.drop m.stop) = true := by
  have hkeeps : ∀ {a b : List Char}, Spread '<' '>' a b → Unquoted a → Unquoted b := by
    intro a b hspread ha c hc hmem
    exact ha c hc ((hspread.fed.mem_iff (by rintro rfl; simp at hc)).1 hmem)
  have hbefore : Broken .before [] text middle := by
    rw [← hmiddle]
    exact breaksOn_before.broken_rewriteFrom hf hfree [] text rfl
  have hfree' := hkeeps hbefore.spread hfree
  have hafter : Broken .after [] middle result := by
    rw [← hresult]
    exact breaksOn_after.broken_rewriteFrom hg hfree' [] middle rfl
  have hscan := Broken.scanned_after (hbefore.scanned_before [] id) hafter [] id
  have hfree'' : Unquoted result.toArray.toList := hkeeps hafter.spread hfree'
  exact hscan.of_mem_found hfree'' rfl

end TemplateTidy.Layout
