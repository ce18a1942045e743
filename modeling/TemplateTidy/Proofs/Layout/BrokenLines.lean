import TemplateTidy.Proofs.Layout.Tokens

/-! # Lines broken beside tags

Each tag gets a line of its own in two passes.  The first puts a line feed before a tag unless one
stands there already (`rewriteFrom_before_spell`), the second one after it
(`rewriteFrom_after_spell`).  Both leave the tags and texts as they are, and afterwards a line feed
stands between any two neighbours of which one is a tag. -/

namespace TemplateTidy.Layout

open Node Pattern

/-! ### Patterns of tags -/

/-- The words of a choice of names, in any letter case. -/
def wordSets (ws : List (List Atom)) : List (List CharSet) :=
  ws.map fun w => w.map fun a => match a with
    | .sign s => s.set .simple
    | _ => { items := [] }

def signSet (c : Char) : CharSet := .single c .simple

def feedSet : CharSet := { items := [.range '\n' '\n'] }

def spaceSet : CharSet := { items := [.named .space true] }

/-- Everything but a line feed. -/
def beyondSet : CharSet := { items := [.range '\n' '\n'], negated := true, folding := .simple }

def pieceNode : Node := choice (pieces.nodes loose 0)

/-- The tag of an element with one of the names. -/
def tagNode (ws : List (List CharSet)) (piece : Node) : Node :=
  .seq (.one (signSet '<')) <| .seq (.rep (.one (signSet '/')) 0 (some 1) false) <|
    nameTail (choice (ws.map word)) piece (signSet '>')

theorem holds_signSet {a d : Char} (ha : Text.isCaseless a = true) :
    (signSet a).holds d = (a == d) := by
  rw [Bool.eq_iff_iff, beq_iff_eq, @eq_comm _ a d, ← Text.mem_variants_iff ha]
  simp only [signSet, CharSet.holds, CharSet.single, Folding.images, reduceCtorEq, if_false,
    Bool.bne_false,
    List.any_eq_true, List.any_cons, List.any_nil, Bool.or_false, CharItem.holds_range_self,
    beq_iff_eq]
  constructor
  · rintro ⟨x, hx, rfl⟩
    exact hx
  · exact fun h => ⟨a, h, rfl⟩

theorem signSet_self {a : Char} (ha : Text.isCaseless a = true) : (signSet a).holds a = true := by
  rw [holds_signSet ha, beq_self_eq_true]

theorem signSet_of_ne {a d : Char} (ha : Text.isCaseless a = true) (h : d ≠ a) :
    (signSet a).holds d = false := by
  rw [holds_signSet ha, beq_eq_false_iff_ne]
  exact h.symm

theorem eq_of_feedSet {c : Char} (h : feedSet.holds c = true) : c = '\n' := by
  have h : (CharSet.single '\n' .exact).holds c = true := h
  rw [CharSet.holds_single_exact, beq_iff_eq] at h
  exact h.symm

theorem holds_spaceSet (c : Char) : spaceSet.holds c = Text.isSpace c := by
  simp [spaceSet, CharSet.holds, CharItem.holds, CharClass.holds]

theorem holds_beyondSet (c : Char) : beyondSet.holds c = (c != '\n') := by
  have h : beyondSet.holds c = !(signSet '\n').holds c := by
    simp [beyondSet, signSet, CharSet.holds, CharSet.single]
  rw [h, holds_signSet (by decide), bne, Bool.beq_comm]

/-- The names of lines are among the words, and no word holds a bracket. -/
def knowsNames (ws : List (List CharSet)) : Bool :=
  (lineNames.all fun n => ws.any fun w => w.length == n.toList.length && fits w n.toList) &&
    ws.all fun w => w != [] && w.all fun cs => !cs.holds '>'

theorem exists_word {ws : List (List CharSet)} (hws : knowsNames ws = true) (n : LineName) :
    ∃ w ∈ ws, w.length = n.chars.length ∧ fits w n.chars = true := by
  have hnames := (Bool.and_eq_true_iff.1 hws).1
  obtain ⟨w, hw, hfit⟩ := List.any_eq_true.1 (List.all_eq_true.1 hnames n.name n.known)
  rw [Bool.and_eq_true, beq_iff_eq] at hfit
  exact ⟨w, hw, hfit⟩

theorem words_of_knowsNames {ws : List (List CharSet)} (hws : knowsNames ws = true) :
    ∀ w ∈ ws, w ≠ [] ∧ ∀ cs ∈ w, cs.holds '>' = false := by
  intro w hw
  have h := List.all_eq_true.1 (Bool.and_eq_true_iff.1 hws).2 w hw
  simpa only [Bool.and_eq_true, bne_iff_ne, List.all_eq_true, Bool.not_eq_true'] using h

variable {scene : Scene} {p : Point}

/-- A tag without attributes is matched in one way. -/
theorem sole_tagNode {ws : List (List CharSet)} {piece : Node} (hws : knowsNames ws = true)
    (hslash : (nameTail (choice (ws.map word)) piece (signSet '>')).walkOver ['/'] = [])
    (hpiece : piece.walkOver ['>'] = []) {n : LineName} {closing : Bool} {r : List Char}
    (hrest : scene.rest p = n.tag closing ++ r) :
    (tagNode ws piece).Sole scene p (p.move (n.tag closing).length) := by
  have hrest : scene.rest p = bracket closing ++ (n.chars ++ '>' :: r) := by
    simpa [LineName.tag_eq] using hrest
  have hr₁ : scene.rest (p.move (bracket closing).length) = n.chars ++ '>' :: r := by
    rw [Scene.rest_move, hrest, List.drop_left]
  have hr₂ : scene.rest ((p.move (bracket closing).length).move n.chars.length) = '>' :: r := by
    rw [Scene.rest_move, hr₁, List.drop_left]
  have hlen : ((p.move (bracket closing).length).move n.chars.length).move 1 =
      p.move (n.tag closing).length := by
    rw [Point.move_move, Point.move_move, LineName.tag_eq]
    simp
  obtain ⟨hmem, hedge⟩ := points_name (words_of_knowsNames hws) n.small hr₁ (exists_word hws n)
  rw [← hlen]
  refine .brackets closing (signSet_self (by decide)) (signSet_self (by decide)) hrest
    (fun _ c hc => ?_) hslash
    (.nameTail hmem (fun _ hm' => eq_of_mem_points_words (words_of_knowsNames hws) n.small hr₁ hm')
      hedge hr₂ hpiece
      (signSet_self (by decide)))
  refine signSet_of_ne (by decide) ?_
  rintro rfl
  obtain ⟨d, l, hd⟩ := List.exists_cons_of_ne_nil n.chars_ne_nil
  obtain rfl : d = '/' := by simpa [hd] using hc
  cases n.small '/' (by simp [hd])

/-- Blanks are copied. -/
theorem rewriteFrom_gap {P : Pattern} (hP : P.StartsTag) {f : Match → List Char} {text : Array Char}
    {u g r : List Char} (htext : text.toList = (u ++ g) ++ r) (hg : ∀ c ∈ g, isGap c = true) :
    P.rewriteFrom f text u.length false = g ++ P.rewriteFrom f text (u ++ g).length false :=
  hP.rewriteFrom_copy (htext.trans (List.append_assoc u g r)) (less_not_mem_of_isGap hg)

/-- The blanks at the end are copied. -/
theorem rewriteFrom_last_gap {P : Pattern} (hP : P.StartsTag) {f : Match → List Char}
    {text : Array Char} {u g : List Char} (htext : text.toList = (u ++ g) ++ spellTokens [])
    (hg : ∀ c ∈ g, isGap c = true) : P.rewriteFrom f text u.length false = g ++ spellTokens [] := by
  rw [rewriteFrom_gap hP htext hg, hP.rewriteFrom_stop (htext.trans (List.append_nil _))]
  rfl

/-- A tag where no match begins is copied. -/
theorem rewriteFrom_tag_copy {P : Pattern} (hP : P.StartsTag) {f : Match → List Char}
    {text : Array Char} {n : LineName} {closing : Bool} {u r : List Char}
    (htext : text.toList = u ++ (n.tag closing ++ r)) (hnone : P.pointsAt text u.length = []) :
    P.rewriteFrom f text u.length false =
      n.tag closing ++ P.rewriteFrom f text (u ++ n.tag closing).length false := by
  obtain ⟨v, hv, hfree⟩ := n.exists_tag closing
  rw [hv] at htext ⊢
  exact hP.rewriteFrom_copy_tag htext hfree hnone

theorem LineName.isEmpty_tag (n : LineName) (closing : Bool) : (n.tag closing).isEmpty = false := by
  cases closing <;> rfl

/-! ### The patterns of breaks -/

def breakTagNode : Node := tagNode (wordSets (breakWords [])) (.group 2 pieceNode)

def blankRun : Node := .rep (.one (signSet ' ')) 0 none true

def breakBeforeNode : Node :=
  .seq (.look true false (.seq (.one feedSet) blankRun)) <| .seq .keep (.group 1 breakTagNode)

/-- The condition that something stands ahead, and on the same line. -/
def aheadNode : Node :=
  .seq (.look false false (.seq (.rep (.one spaceSet) 0 none true) (.one feedSet)))
    (.look false true (.one beyondSet))

def breakAfterNode : Node :=
  .seq (.group 1 breakTagNode) aheadNode

abbrev beforePattern : Pattern := (breakBefore []).pattern loose

abbrev afterPattern : Pattern := (breakAfter []).pattern loose

/-- What evaluation tells of the patterns of breaks. -/
theorem breaks_check : (beforePattern.node = breakBeforeNode ∧ afterPattern.node = breakAfterNode) ∧
    ((breakBeforeNode.originFree && breakBeforeNode.solid && breakBeforeNode.begins (· == '<')) =
      true ∧
      (breakAfterNode.originFree && breakAfterNode.solid && breakAfterNode.begins (· == '<')) =
    true) ∧ knowsNames (wordSets (breakWords [])) = true ∧
    (nameTail (choice ((wordSets (breakWords [])).map word)) (.group 2 pieceNode)
      (signSet '>')).walkOver ['/'] = [] ∧
    (Node.group 2 pieceNode).walkOver ['>'] = [] := by
  decide +kernel

theorem node_beforePattern : beforePattern.node = breakBeforeNode := breaks_check.1.1

theorem node_afterPattern : afterPattern.node = breakAfterNode := breaks_check.1.2

theorem startsTag_before : beforePattern.StartsTag :=
    .of_check node_beforePattern breaks_check.2.1.1

theorem startsTag_after : afterPattern.StartsTag := .of_check node_afterPattern breaks_check.2.1.2

theorem sole_breakTag {n : LineName} {closing : Bool} {r : List Char}
    (hrest : scene.rest p = n.tag closing ++ r) :
    breakTagNode.Sole scene p (p.move (n.tag closing).length) := by
  obtain ⟨-, -, hknown, hslash, hpiece⟩ := breaks_check
  exact sole_tagNode hknown hslash hpiece hrest

/-! ### Breaks before tags -/

/-- The character before a gap is none of the gap. -/
def Closed (u : List Char) : Prop :=
  ∀ c ∈ u.getLast?, isGap c = false

theorem closed_token (t : Token) (u : List Char) : Closed (u ++ t.chars) := by
  intro c hc
  rw [List.getLast?_append_of_ne_nil _ t.chars_ne_nil] at hc
  exact t.isGap_last c hc

theorem getLast?_of_getElem? {text : Array Char} {u r : List Char} {d : Char}
    (htext : text.toList = u ++ r)
    (hpos : 0 < u.length) (hd : text[u.length - 1]? = some d) : u.getLast? = some d := by
  rw [← Array.getElem?_toList, htext, List.getElem?_append_left (by omega)] at hd
  rw [List.getLast?_eq_getElem?, hd]

/-- Going back over blanks to a line feed stays in the gap. -/
theorem feed_mem_of_iter {u : List Char} (hu : Closed u) {n : Nat} {m q : Point}
    (hiter : Iter (Reach scene (.one (signSet ' ')) true) n p m)
    (hfeed : scene.stepOver true feedSet m = some q) :
    ∀ {g r : List Char}, scene.text.toList = (u ++ g) ++ r → p.pos = (u ++ g).length →
    '\n' ∈ g := by
  induction hiter with
  | zero p =>
    intro g r htext hpos
    obtain ⟨c, h0, hc, hholds, -⟩ := Scene.stepOver_backward.1 hfeed
    rw [hpos] at h0 hc
    have hlast := getLast?_of_getElem? htext h0 hc
    obtain rfl := eq_of_feedSet hholds
    cases g using List.reverseRecOn with
    | nil => exact absurd (hu '\n' (by simpa using hlast)) (by decide)
    | append_singleton g d =>
      obtain rfl : d = '\n' := by simpa [← List.append_assoc] using hlast
      simp
  | succ hstep _ ih =>
    intro g r htext hpos
    obtain ⟨c, h0, hc, hholds, rfl⟩ := Scene.stepOver_backward.1 hstep
    rw [hpos] at h0 hc
    have hlast := getLast?_of_getElem? htext h0 hc
    rw [holds_signSet (by decide), beq_iff_eq] at hholds
    subst hholds
    cases g using List.reverseRecOn with
    | nil => exact absurd (hu ' ' (by simpa using hlast)) (by decide)
    | append_singleton g d =>
      exact List.mem_append_left _ (ih hfeed (r := d :: r) (by simp [htext]) (by simp [hpos]))

/-- Where a line ends before a tag, the gap holds its line feed. -/
theorem feed_mem_of_behind {u g r : List Char} (hu : Closed u)
    (htext : scene.text.toList = (u ++ g) ++ r)
    (hpos : p.pos = (u ++ g).length) (h : (Node.seq (.one feedSet) blankRun).points scene true p ≠
      []) :
    '\n' ∈ g := by
  obtain ⟨q, hq⟩ := List.exists_mem_of_ne_nil _ h
  obtain ⟨m, ⟨n, -, -, hiter⟩, hfeed⟩ := reach_of_mem_points hq
  exact feed_mem_of_iter hu hiter hfeed htext hpos

theorem isolate_before (start : Nat) (piece : List Char) :
    Side.before.isolate start piece = (if start = 0 then [] else ['\n']) ++ piece := by
  simp only [Side.isolate]
  split <;> rfl

section before

variable {f : Match → List Char} {text : Array Char} (hf : ∀ m, f m = Side.before.isolate m.start
  (m.capture text 1))
include hf

/-- A line is broken before a tag unless one ends there already. -/
theorem rewriteFrom_before {n : LineName} {closing : Bool} {u g r : List Char} (hu : Closed u)
    (htext : text.toList = (u ++ g) ++ (n.tag closing ++ r)) :
    ∃ feed, beforePattern.rewriteFrom f text (u ++ g).length false = feed ++ (n.tag closing ++
        beforePattern.rewriteFrom f text ((u ++ g) ++ n.tag closing).length false) ∧
      (feed = ['\n'] ∨ feed = [] ∧ (u ++ g = [] ∨ '\n' ∈ g)) := by
  by_cases hlook : (Node.seq (.one feedSet) blankRun).points (beforePattern.scene text 0) true
      (.at (u ++ g).length) = []
  · have hfirst : beforePattern.node.First (beforePattern.scene text 0) (.at (u ++ g).length)
        (((Point.at (u ++ g).length).move (n.tag closing).length).mark 1
          ⟨(u ++ g).length, (u ++ g).length + (n.tag closing).length⟩) := by
      rw [node_beforePattern]
      refine First.seq (m := .at (u ++ g).length) ?_ (First.seq (m := .at (u ++ g).length) ?_
        (sole_breakTag (rest_at htext)).group.first)
      · rw [First, points, hlook]
        rfl
      · rw [First, points]
        rfl
    have hcapture := capture_group htext
      (q := ((Point.at (u ++ g).length).move (n.tag closing).length).mark 1
      ⟨(u ++ g).length, (u ++ g).length + (n.tag closing).length⟩) (i := 1) rfl
    rw [rewriteFrom_piece startsTag_before.originFree htext hfirst rfl List.length_append.symm, hf,
      hcapture, n.isEmpty_tag, isolate_before, List.append_assoc]
    refine ⟨_, rfl, ?_⟩
    split
    next h => exact .inr ⟨rfl, .inl (List.length_eq_zero_iff.1 h)⟩
    next => exact .inl rfl
  · have hnone : beforePattern.pointsAt text (u ++ g).length = [] := by
      rw [pointsAt, node_beforePattern]
      refine points_seq_nil_left ?_
      rw [points]
      obtain ⟨q, l, hq⟩ := List.exists_cons_of_ne_nil hlook
      rw [hq]
      rfl
    exact ⟨[], rewriteFrom_tag_copy startsTag_before htext hnone,
      .inr ⟨rfl, .inr (feed_mem_of_behind hu htext rfl hlook)⟩⟩

/-- Breaks before tags leave the tokens as they are, and give each tag a line feed before it. -/
theorem rewriteFrom_before_spell : ∀ {ps : List (Token × List Char)} (u g : List Char), Closed u →
    text.toList = (u ++ g) ++ spellTokens ps → (∀ c ∈ g, isGap c = true) →
    Gaps (fun _ _ => false) ps →
    ∃ g' ps', beforePattern.rewriteFrom f text u.length false = g' ++ spellTokens ps' ∧
      ps'.map Prod.fst = ps.map Prod.fst ∧ (∀ c ∈ g', isGap c = true) ∧
      Gaps (fun _ t => t.isTag) ps' ∧
      ∀ t ∈ leader ps, t.isTag = true → u ≠ [] → '\n' ∈ g' := by
  intro ps
  induction ps with
  | nil =>
    intro u g _ htext hg _
    exact ⟨g, [], rewriteFrom_last_gap startsTag_before htext hg, rfl, hg,
      trivial, by simp [leader]⟩
  | cons p ps ih =>
    obtain ⟨t, k⟩ := p
    intro u g hu htext hg hgaps
    obtain ⟨hk, -, hgaps⟩ := hgaps
    have hcopy : beforePattern.rewriteFrom f text u.length false = _ :=
      rewriteFrom_gap startsTag_before htext hg
    obtain ⟨g', ps', hrest, hsame, hg', hgaps', hlead⟩ :=
      ih ((u ++ g) ++ t.chars) k (closed_token _ _)
      (by simp [htext, spellTokens]) hk hgaps
    have hne : (u ++ g) ++ t.chars ≠ [] := List.append_ne_nil_of_right_ne_nil _ t.chars_ne_nil
    have hleader : ∀ t' ∈ leader ps', t'.isTag = true → '\n' ∈ g' := by
      intro t' ht' htag
      refine hlead t' ?_ htag hne
      rw [leader, ← hsame]
      exact ht'
    cases t with
    | text t =>
      refine ⟨g, (.text t, g') :: ps', ?_, by simp [hsame], hg, ⟨hg', hleader, hgaps'⟩, ?_⟩
      · have hstep : beforePattern.rewriteFrom f text (u ++ g).length false =
            t.chars ++ beforePattern.rewriteFrom f text (u ++ g ++ t.chars).length false :=
          startsTag_before.rewriteFrom_copy (r := k ++ spellTokens ps) htext t.less_not_mem
        rw [hcopy, hstep, show t.chars = (Token.text t).chars from rfl, hrest]
        rfl
      · intro t' ht' htag
        obtain rfl : Token.text t = t' := by simpa [leader] using ht'
        cases htag
    | tag closing n =>
      obtain ⟨feed, hstep, hfeed⟩ := rewriteFrom_before hf hu htext
      refine ⟨g ++ feed, (.tag closing n, g') :: ps',
        ?_, by simp [hsame], ?_, ⟨hg', hleader, hgaps'⟩, ?_⟩
      · rw [hcopy, hstep, show n.tag closing = (Token.tag closing n).chars from rfl, hrest]
        simp [spellTokens]
      · intro c hc
        obtain hc | hc := List.mem_append.1 hc
        · exact hg c hc
        · obtain rfl | ⟨rfl, -⟩ := hfeed
          · rw [List.mem_singleton.1 hc]
            rfl
          · cases hc
      · intro t' _ _ hbegin
        obtain rfl | ⟨rfl, h | h⟩ := hfeed
        · simp
        · exact absurd (List.append_eq_nil_iff.1 h).1 hbegin
        · simpa using h

end before

/-! ### Breaks after tags -/

/-- If only blanks stand before the next line feed, it stands in the gap. -/
theorem feed_mem_of_ahead {g r : List Char} (hrest : scene.rest p = g ++ r)
    (hr : ∀ c ∈ r.head?, Text.isSpace c = false)
    (h : (Node.seq (.rep (.one spaceSet) 0 none true) (.one feedSet)).points scene false p ≠ []) :
    '\n' ∈ g := by
  obtain ⟨q, hq⟩ := List.exists_mem_of_ne_nil _ h
  rw [points_seq] at hq
  obtain ⟨m, hm, hq⟩ := List.mem_flatMap.1 hq
  obtain ⟨i, -, hi, rfl⟩ := mem_points_run.1 hm
  obtain ⟨c, l, hc, hholds, -⟩ := reach_one.1 (reach_of_mem_points hq)
  obtain rfl := eq_of_feedSet hholds
  rw [Scene.rest_move, hrest] at hc
  rw [hrest] at hi
  have hle : i ≤ g.length := by
    cases r with
    | nil => simpa using hi.trans (runLength_le _ _)
    | cons d r => exact hi.trans (runLength_le_of_stop (by rw [holds_spaceSet, hr d rfl]))
  rcases hle.lt_or_eq with hlt | rfl
  · have hget : (g ++ r)[i]? = some '\n' := by
      rw [← List.head?_drop, hc]
      rfl
    rw [List.getElem?_append_left hlt] at hget
    exact List.mem_of_getElem? hget
  · rw [List.drop_left] at hc
    cases hr '\n' (by rw [hc]; rfl)

/-- After a tag the line goes on, or nothing follows, or a line feed is in the gap. -/
theorem ahead_cases {g r : List Char} (hrest : scene.rest p = g ++ r)
    (hr : ∀ c ∈ r.head?, Text.isSpace c = false) :
    aheadNode.points scene false p = [] ∧ (r = [] ∨ '\n' ∈ g) ∨ aheadNode.First scene p p := by
  by_cases hahead : (Node.seq (.rep (.one spaceSet) 0 none true) (.one feedSet)).points
    scene false p = []
  · have hstay : (Node.look false false (.seq (.rep (.one spaceSet) 0 none true)
      (.one feedSet))).points scene
        false p = [p] := by
      rw [points, hahead]
      rfl
    cases hg : g ++ r with
    | nil =>
      refine .inl ⟨?_, .inl (List.append_eq_nil_iff.1 hg).2⟩
      rw [aheadNode, points_seq_singleton hstay, points, points_one_of_not (by simp [hrest, hg])]
      rfl
    | cons c l =>
      rw [hg] at hrest
      by_cases hc : c = '\n'
      · subst hc
        refine .inl ⟨?_, .inr ?_⟩
        · rw [aheadNode, points_seq_singleton hstay, points, points_one_of_not fun d hd => ?_]
          · rfl
          obtain rfl : '\n' = d := by simpa [hrest] using hd
          rw [holds_beyondSet]
          rfl
        · cases g with
          | nil => cases hr '\n' (by rw [show r = '\n' :: l from hg]; rfl)
          | cons d g =>
            obtain ⟨rfl, -⟩ := List.cons.inj hg
            simp
      · refine .inr (First.seq (First.of_points hstay) ?_)
        rw [First, points, points_one_of_holds hrest (by simp [holds_beyondSet, hc])]
        rfl
  · refine .inl ⟨points_seq_nil_left ?_, .inr (feed_mem_of_ahead hrest hr hahead)⟩
    obtain ⟨m, l, hm⟩ := List.exists_cons_of_ne_nil hahead
    rw [points, hm]
    rfl

/-- A token begins with no space. -/
theorem isSpace_head {ps : List (Token × List Char)} :
    ∀ c ∈ (spellTokens ps).head?, Text.isSpace c = false := by
  cases ps with
  | nil => simp [spellTokens]
  | cons p ps =>
    intro c hc
    rw [spellTokens, List.head?_append_of_ne_nil _ p.1.chars_ne_nil] at hc
    by_contra hspace
    have hblank := p.1.isBlank_head c hc
    rw [Text.isBlank_of_isSpace (by simpa using hspace)] at hblank
    cases hblank

section after

variable {f : Match → List Char} {text : Array Char} (hf : ∀ m, f m = Side.after.isolate m.start
  (m.capture text 1))
include hf

/-- A line is broken after a tag unless one ends there already. -/
theorem rewriteFrom_after {n : LineName} {closing : Bool} {u g r : List Char}
    (htext : text.toList = u ++ (n.tag closing ++ (g ++ r)))
    (hr : ∀ c ∈ r.head?, Text.isSpace c = false) :
    ∃ feed, afterPattern.rewriteFrom f text u.length false = n.tag closing ++ (feed ++
        afterPattern.rewriteFrom f text (u ++ n.tag closing).length false) ∧
      (feed = ['\n'] ∨ feed = [] ∧ (r = [] ∨ '\n' ∈ g)) := by
  have hsole := (sole_breakTag (rest_at (P := afterPattern) htext)).group (i := 1)
  generalize hq : (((Point.at u.length).move (n.tag closing).length).mark 1 _) = q at hsole
  have hrest : (afterPattern.scene text 0).rest q = g ++ r := by
    rw [← hq, Scene.rest_mark, Scene.rest_move, rest_at htext, List.drop_left]
  obtain ⟨hnone, hg⟩ | hahead := ahead_cases hrest hr
  · have hnone : afterPattern.pointsAt text u.length = [] := by
      rw [pointsAt, node_afterPattern]
      refine points_seq_nil_right fun m hm => ?_
      rw [hsole.only m hm]
      exact hnone
    exact ⟨[], rewriteFrom_tag_copy startsTag_after htext hnone, .inr ⟨rfl, hg⟩⟩
  · have hfirst : afterPattern.node.First (afterPattern.scene text 0) (.at u.length) q := by
      rw [node_afterPattern]
      exact First.seq hsole.first hahead
    have hcapture : (Match.ofPoint q).capture text 1 = n.tag closing :=
      capture_group htext (by rw [← hq]; rfl)
    refine ⟨['\n'], ?_, .inl rfl⟩
    rw [rewriteFrom_piece startsTag_after.originFree htext hfirst (by rw [← hq]; rfl)
      (by rw [← hq]; exact List.length_append.symm), hf, hcapture, n.isEmpty_tag]
    simp [Side.isolate]

/-- Breaks after tags leave the tokens as they are, and give each tag a line feed after it. -/
theorem rewriteFrom_after_spell : ∀ {ps : List (Token × List Char)} (u g : List Char),
    text.toList = (u ++ g) ++ spellTokens ps → (∀ c ∈ g, isGap c = true) →
    Gaps (fun _ t => t.isTag) ps →
    ∃ ps', afterPattern.rewriteFrom f text u.length false = g ++ spellTokens ps' ∧
      ps'.map Prod.fst = ps.map Prod.fst ∧ Gaps (fun t t' => t.isTag || t'.isTag) ps' := by
  intro ps
  induction ps with
  | nil =>
    intro u g htext hg _
    exact ⟨[], rewriteFrom_last_gap startsTag_after htext hg, rfl, trivial⟩
  | cons p ps ih =>
    obtain ⟨t, k⟩ := p
    intro u g htext hg hgaps
    obtain ⟨hk, hbroken, hgaps⟩ := hgaps
    have hcopy : afterPattern.rewriteFrom f text u.length false = _ :=
      rewriteFrom_gap startsTag_after htext hg
    obtain ⟨ps', hrest, hsame, hgaps'⟩ :=
      ih ((u ++ g) ++ t.chars) k (by simp [htext, spellTokens]) hk hgaps
    have hleader : leader ps' = leader ps := by rw [leader, leader, hsame]
    cases t with
    | text t =>
      refine ⟨(.text t, k) :: ps', ?_, by simp [hsame], hk, ?_, hgaps'⟩
      · have hstep : afterPattern.rewriteFrom f text (u ++ g).length false =
            t.chars ++ afterPattern.rewriteFrom f text (u ++ g ++ t.chars).length false :=
          startsTag_after.rewriteFrom_copy (r := k ++ spellTokens ps) htext t.less_not_mem
        rw [hcopy, hstep, show t.chars = (Token.text t).chars from rfl, hrest]
        rfl
      · intro t' ht' hb
        exact hbroken t' (hleader ▸ ht') (by simpa [Token.isTag] using hb)
    | tag closing n =>
      obtain ⟨feed, hstep, hfeed⟩ := rewriteFrom_after hf htext isSpace_head
      refine ⟨(.tag closing n, feed ++ k) :: ps', ?_, by simp [hsame], ?_, ?_, hgaps'⟩
      · rw [hcopy, hstep, show n.tag closing = (Token.tag closing n).chars from rfl, hrest]
        simp [spellTokens]
      · intro c hc
        obtain hc | hc := List.mem_append.1 hc
        · obtain rfl | ⟨rfl, -⟩ := hfeed
          · rw [List.mem_singleton.1 hc]
            rfl
          · cases hc
        · exact hk c hc
      · intro t' ht' _
        obtain rfl | ⟨rfl, h | h⟩ := hfeed
        · simp
        · rw [hleader] at ht'
          cases ps with
          | nil => cases ht'
          | cons p ps => exact absurd h (by simp [spellTokens, p.1.chars_ne_nil])
        · simpa using h

end after

end TemplateTidy.Layout
