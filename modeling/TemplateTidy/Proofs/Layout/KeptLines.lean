import TemplateTidy.Proofs.Layout.TrimmedLines

/-! # Lines of regions

Trimming takes a line with the blank lines behind it, so no match crosses the beginning of a line
that is not blank (`pos_lt_of_mem_points_trim`).  A match inside a region is copied.  Hence the
whole lines of a region stay as they are (`trimEnds_keeps_lines`), while a line that begins before a
region or ends behind it is trimmed. -/

namespace TemplateTidy.Layout

open Node Pattern Text

/-- A line that is not blank begins here. -/
def BeginsLine (r : List Char) : Prop :=
  ∃ b c t, r = b ++ c :: t ∧ (∀ d ∈ b, isTab d = true) ∧ isGap c = false

variable {text : Array Char} {u r : List Char}

/-- No match from before a line that is not blank gets to the line. -/
theorem pos_lt_of_mem_points_trim (htext : text.toList = u ++ r) (hu : u.getLast? = some '\n')
    (hr : BeginsLine r)
    {i : Nat} (hi : i < u.length) {q : Point} (hq : q ∈ trimPattern.pointsAt text i) :
    q.pos < u.length := by
  obtain ⟨v, rfl⟩ := List.getLast?_eq_some_iff.1 hu
  obtain ⟨b, c, t, rfl, hb, hc⟩ := hr
  rw [List.length_append, List.length_singleton] at hi ⊢
  have hrest : ∀ m : Point, m.pos ≤ v.length →
      (trimPattern.scene text 0).rest m = v.drop m.pos ++ '\n' :: (b ++ c :: t) := by
    intro m hm
    show text.toList.drop m.pos = _
    rw [htext, List.append_assoc, List.drop_append_of_le_length hm]
    rfl
  rw [pointsAt, node_trimPattern] at hq
  simp only [trimNode, points_seq, List.mem_flatMap] at hq
  obtain ⟨m, hm, m₁, hm₁, m₂, hm₂, m₃, hm₃, hq⟩ := hq
  obtain rfl : m = .at i := by
    rw [points] at hm
    split at hm <;> simp_all
  -- the blanks before the line and the line hold no line feed
  have hstop : ∀ {cs : CharSet} {m : Point} {k : Nat}, cs.holds '\n' = false → m.pos ≤ v.length →
      k ≤ runLength cs ((trimPattern.scene text 0).rest m) → (m.move k).pos ≤ v.length := by
    intro cs m k hcs hm hk
    rw [hrest m hm] at hk
    have hle := hk.trans (runLength_le_of_stop hcs)
    rw [List.length_drop] at hle
    rw [Point.move_pos]
    omega
  obtain ⟨k₁, -, hk₁, rfl⟩ := mem_points_run.1 hm₁
  have h₁ := hstop (by rw [holds_tabSet]; rfl) (Nat.le_of_lt_succ hi) hk₁
  rw [points_group] at hm₂
  obtain ⟨m₄, hm₄, rfl⟩ := List.mem_map.1 hm₂
  obtain ⟨k₂, -, hk₂, rfl⟩ := mem_points_run.1 hm₄
  have h₂ := hstop (by rw [holds_dotSet]; rfl) h₁ hk₂
  obtain ⟨k₃, -, hk₃, rfl⟩ := mem_points_run.1 hm₃
  generalize hx : ((((Point.at i).move k₁).move k₂).mark 1 _) = x at hk₃ hq
  have h₃ : x.pos ≤ v.length := hx ▸ h₂
  have hpos : q.pos = x.pos + k₃ := by
    rw [points] at hq
    split at hq <;> simp_all
  by_contra hge
  -- the blanks behind it do not get past the next line, which ends behind its first character at
  -- the earliest
  have hgap : k₃ ≤ (v.drop x.pos ++ '\n' :: b).length := by
    refine hk₃.trans ?_
    rw [hrest x h₃, ← List.cons_append, ← List.append_assoc]
    exact runLength_le_of_stop (by rw [holds_gapSet, hc])
  have hskip : (v.drop x.pos ++ ['\n']).length ≤ k₃ := by
    rw [List.length_append, List.length_drop, List.length_singleton]
    omega
  rw [← List.singleton_append, ← List.append_assoc, List.length_append] at hgap
  obtain ⟨d, rest, hd, hmem⟩ := exists_drop_eq_cons (r := t) (c := c)
    (Nat.sub_le_iff_le_add'.2 hgap)
  have hrest₃ : (trimPattern.scene text 0).rest (x.move k₃) = d :: rest := by
    rw [Scene.rest_move, hrest x h₃, ← List.singleton_append, ← List.append_assoc, List.drop_append,
      List.drop_eq_nil_of_le hskip, List.nil_append, hd]
  have hne : d ≠ '\n' := by
    rintro rfl
    exact feed_not_mem_of_tabs hb hc hmem
  rw [points_lineEnd_of_rest hrest₃ hne] at hq
  cases hq

/-- Whole lines of a region stay as they are, if no part of them closes a region in a way that lets
the line be trimmed. -/
theorem trimEnds_keeps_lines (w : Nat) (l : Int) {u body v : List Char}
    (hu : u = [] ∨ u.getLast? = some '\n') (hbody : body.getLast? = some '\n')
    (hfirst : BeginsLine (body ++ v)) (hnext : BeginsLine v) {r : Span}
    (hr : r ∈ Region.ignoredSpans (u ++ (body ++ v)).toArray)
    (hwithin : Region.within ⟨u.length, (u ++ body).length⟩ r = true)
    (hsafe : ∀ piece, piece <:+: body → Region.closesSafelyOn piece.toArray = false) :
    ∃ a b, trimEnds (.standard w l) (u ++ (body ++ v)) = a ++ (body ++ b) := by
  rw [trimEnds_eq_replaceAll]
  generalize htext : (u ++ (body ++ v)).toArray = text at hr ⊢
  have htext : text.toList = u ++ (body ++ v) := by rw [← htext]
  have hlast : (u ++ body).getLast? = some '\n' := by
    rw [List.getLast?_append, hbody]
    rfl
  have htext' : text.toList = (u ++ body) ++ v := by simpa using htext
  have hbefore : ∀ i < u.length, ∀ q ∈ trimPattern.pointsAt text i, q.pos < u.length := by
    obtain rfl | hu := hu
    · exact fun i hi => absurd hi (Nat.not_lt_zero i)
    · exact fun i hi q hq => pos_lt_of_mem_points_trim htext hu hfirst hi hq
  have hinside : ∀ i < (u ++ body).length, ∀ q ∈ trimPattern.pointsAt text i,
      q.pos < (u ++ body).length :=
    fun i hi q hq => pos_lt_of_mem_points_trim htext' hlast hnext hi hq
  obtain ⟨a, ha, -⟩ := rewriteFrom_split (f := trimmed text (Region.ignoredSpans text) text)
    originFree_trimPattern
    (length_le_size htext) hbefore 0 false (Nat.zero_le _) (by simp)
  obtain ⟨b, hb, hcopy⟩ := rewriteFrom_split (f := trimmed text (Region.ignoredSpans text) text)
    originFree_trimPattern
    (length_le_size htext') hinside u.length false (by simp) (by simp)
  have hbody' : between text u.length (u ++ body).length = body := between_of_append htext
  rw [hbody'] at hcopy
  refine ⟨a, _, ha.trans (congrArg (a ++ ·)
    (hb.trans (congrArg (· ++ _) (hcopy fun i hi q hq hlt => ?_))))⟩
  -- the match lies in the region, and what it takes is part of the lines
  obtain ⟨hle, hstart, -⟩ := bounds_of_reach (reach_of_mem_points hq)
  have hpiece : between text q.start q.pos <:+: body := by
    refine ⟨between text u.length q.start, between text q.pos (u ++ body).length, ?_⟩
    rw [between_append text (hi.trans hle) hstart,
      between_append text ((hi.trans hle).trans hstart) hlt.le, hbody']
  have hin : (Region.ignoredSpans text).any (Region.within (Match.ofPoint q).span) = true := by
    obtain ⟨hlow, hhigh⟩ := Bool.and_eq_true_iff.1 hwithin
    refine List.any_eq_true.2 ⟨r, hr, Bool.and_eq_true_iff.2 ⟨decide_eq_true ?_, decide_eq_true ?_⟩⟩
    · exact (of_decide_eq_true hlow).trans (hi.trans hle)
    · exact hlt.le.trans (of_decide_eq_true hhigh)
  have htrim : (Match.ofPoint q).text text = between text q.start q.pos := rfl
  simp only [trimmed, hin, htrim, hsafe _ hpiece, Bool.not_false, Bool.and_self, if_true]

end TemplateTidy.Layout
