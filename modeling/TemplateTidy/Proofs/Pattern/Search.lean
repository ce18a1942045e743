import TemplateTidy.Proofs.Pattern.Language

/-! # Searching and replacing

The matches of a search come one after the other within the text (`findAll_ordered`), and each of
them is reached from some place (`exists_reach_of_mem_findAll`).  So a replacement that keeps a view
of each match keeps that view of the whole text (`replaceAll_view`).  To compute a replacement
exactly, `rewriteFrom` takes it from a place on: it either copies one character or puts in one image
(`rewriteFrom_skip`, `rewriteFrom_match`). -/

namespace TemplateTidy

/-- The match that ends at a point. -/
def Match.ofPoint (q : Point) : Match :=
  { start := q.start, stop := q.pos, groups := q.groups }

/-- The point where a match at a place begins. -/
def Point.at (pos : Nat) : Point :=
  { pos, start := pos, groups := [] }

/-- Matches that come one after the other from `pos` on. -/
def Ordered (text : Array Char) : (pos : Nat) → List Match → Prop
  | pos, [] => pos ≤ text.size
  | pos, m :: rest => pos ≤ m.start ∧ m.start ≤ m.stop ∧ Ordered text m.stop rest

/-! ### Replacing -/

section splicing

variable {text : Array Char} {pos : Nat} {m : Match}

theorem splice_nil : splice text pos [] = text.toList.drop pos := by
  rw [splice, show Span.of ⟨pos, text.size⟩ text = between text pos text.size from rfl, between_eq,
    List.take_of_length_le (by simp)]

theorem splice_cons {image : List Char} {images : List (Match × List Char)} :
    splice text pos ((m, image) :: images) = between text pos m.start ++
    (image ++ splice text m.stop images) := by
  rw [splice, List.append_assoc]
  rfl

/-- A text from a place on, cut at the ends of a match. -/
theorem drop_eq_parts (h₁ : pos ≤ m.start) (h₂ : m.start ≤ m.stop) :
    text.toList.drop pos = between text pos m.start ++
    (m.text text ++ text.toList.drop m.stop) := by
  rw [show m.text text = between text m.start m.stop from rfl, between_append_drop _ h₂,
    between_append_drop _ h₁]

end splicing

/-- A view of the text that is kept at each match is kept by the whole replacement. -/
theorem splice_view {text : Array Char} {h : List Char → List Char}
    (happ : ∀ a b, h (a ++ b) = h a ++ h b) :
    ∀ {pos : Nat} {images : List (Match × List Char)}, Ordered text pos (images.map Prod.fst) →
      (∀ x ∈ images, h x.2 = h (x.1.text text)) →
      h (splice text pos images) = h (text.toList.drop pos)
  | pos, [], ho, _ => by rw [splice_nil]
  | pos, (m, image) :: images, ho, hf => by
      obtain ⟨h1, h2, h3⟩ := ho
      rw [splice_cons, drop_eq_parts h1 h2, happ, happ, happ, happ, hf (m, image) (by simp),
        splice_view happ h3 fun x hx => hf x (by simp [hx])]

namespace Pattern

variable (p : Pattern) {text : Array Char} {pos : Nat} {advance : Bool} {m : Match}

/-! ### Single matches -/

theorem exists_reach_of_matchFrom? {p : Pattern} {scene : Scene} {allowed : Nat → Bool}
    (h : p.matchFrom? scene allowed pos = some m) :
    ∃ q, p.node.Reach scene false (.at pos) q ∧ allowed q.pos = true ∧ m = .ofPoint q := by
  rw [matchFrom?_eq_find?, Option.map_eq_some_iff] at h
  obtain ⟨q, hq, rfl⟩ := h
  exact ⟨q, Node.reach_of_mem_points (List.mem_of_find?_eq_some hq),
    by simpa using List.find?_some hq, rfl⟩

theorem bounds_of_reach {n : Node} {scene : Scene} {q : Point}
    (h : n.Reach scene false (.at pos) q) :
    pos ≤ q.start ∧ q.start ≤ q.pos ∧ (pos ≤ scene.text.size → q.pos ≤ scene.text.size) := by
  have h1 := h.moves.forward rfl
  have h2 := h.moves.start rfl
  have h3 := h.moves.bound
  simp only [Point.at] at h1 h2 h3
  omega

theorem exists_of_scan {p : Pattern} {scene : Scene} {allowed : Nat → Bool} :
    ∀ {fuel pos : Nat}, p.scan scene allowed fuel pos = some m →
      ∃ i, pos ≤ i ∧ i < pos + fuel ∧ p.matchFrom? scene allowed i = some m
  | 0, pos, h => by simp [scan] at h
  | fuel + 1, pos, h => by
      rw [scan] at h
      cases hm : p.matchFrom? scene allowed pos with
      | some m' =>
        simp only [hm] at h
        exact ⟨pos, le_rfl, by omega, h ▸ hm⟩
      | none =>
        simp only [hm] at h
        obtain ⟨i, h1, h2, h3⟩ := exists_of_scan h
        exact ⟨i, by omega, by omega, h3⟩

theorem exists_reach_of_findFrom? {p : Pattern} {origin : Nat}
    (h : p.findFrom? text origin advance = some m) :
    ∃ i q, origin ≤ i ∧ i ≤ text.size ∧ p.node.Reach (p.scene text origin) false (.at i) q ∧
      (advance = true → q.pos ≠ origin) ∧ m = .ofPoint q := by
  obtain ⟨i, h1, h2, h3⟩ := exists_of_scan h
  obtain ⟨q, hq, ha, rfl⟩ := exists_reach_of_matchFrom? h3
  refine ⟨i, q, h1, by omega, hq, ?_, rfl⟩
  rintro rfl
  simpa using ha

/-! ### All matches -/

/-- What is left to search: a search at the same place has to advance. -/
def toSearch (text : Array Char) (pos : Nat) (advance : Bool) : Nat :=
  2 * (text.size - pos) + (!advance).toNat

theorem toSearch_lt {p : Pattern} (h : p.findFrom? text pos advance = some m) :
    toSearch text m.stop (m.start == m.stop) < toSearch text pos advance := by
  obtain ⟨i, q, h1, h2, hq, hadv, rfl⟩ := exists_reach_of_findFrom? h
  obtain ⟨h3, h4, h5⟩ := bounds_of_reach hq
  have h5 : q.pos ≤ text.size := h5 h2
  simp only [Match.ofPoint, toSearch]
  by_cases he : q.pos = pos
  · have hadv : advance = false := by
      cases advance with
      | false => rfl
      | true => exact absurd he (hadv rfl)
    have hstart : (q.start == q.pos) = true := by
      rw [beq_iff_eq]
      omega
    rw [hstart, hadv, he]
    simp
  · have := Bool.toNat_le (!(q.start == q.pos))
    omega

/-- The matches from a place on. -/
def found (text : Array Char) (pos : Nat) (advance : Bool) : List Match :=
  p.findAllFrom text (2 * (text.size - pos) + 2) pos advance

theorem findAllFrom_fuel (text : Array Char) :
    ∀ {fuel fuel' pos : Nat} {advance : Bool}, toSearch text pos advance < fuel →
      toSearch text pos advance < fuel' →
      p.findAllFrom text fuel pos advance = p.findAllFrom text fuel' pos advance
  | 0, _, _, _, h, _ => absurd h (by omega)
  | _ + 1, 0, _, _, _, h => absurd h (by omega)
  | fuel + 1, fuel' + 1, pos, advance, h, h' => by
      rw [findAllFrom, findAllFrom]
      cases hm : p.findFrom? text pos advance with
      | none => rfl
      | some m =>
        have := toSearch_lt hm
        simp only [List.cons.injEq, true_and]
        exact findAllFrom_fuel text (by omega) (by omega)

theorem toSearch_lt_fuel (text : Array Char) (pos : Nat) (advance : Bool) :
    toSearch text pos advance < 2 * (text.size - pos) + 2 := by
  have := Bool.toNat_le (!advance)
  unfold toSearch
  omega

theorem found_eq (text : Array Char) (pos : Nat) (advance : Bool) :
    p.found text pos advance =
      match p.findFrom? text pos advance with
      | some m => m :: p.found text m.stop (m.start == m.stop)
      | none => [] := by
  unfold found
  rw [findAllFrom]
  cases hm : p.findFrom? text pos advance with
  | none => rfl
  | some m =>
    have h1 := toSearch_lt hm
    have h2 := toSearch_lt_fuel text pos advance
    simp only [List.cons.injEq, true_and]
    exact findAllFrom_fuel p text (by omega) (toSearch_lt_fuel text _ _)

theorem findAll_eq_found (text : Array Char) : p.findAll text = p.found text 0 false := rfl

theorem found_ordered (text : Array Char) (pos : Nat) (advance : Bool) (hpos : pos ≤ text.size) :
    Ordered text pos (p.found text pos advance) := by
  rw [found_eq]
  cases hm : p.findFrom? text pos advance with
  | none => exact hpos
  | some m =>
    have hlt := toSearch_lt hm
    obtain ⟨i, q, h1, h2, hq, -, rfl⟩ := exists_reach_of_findFrom? hm
    obtain ⟨h3, h4, h5⟩ := bounds_of_reach hq
    exact ⟨h1.trans h3, h4, found_ordered text _ _ (h5 h2)⟩
termination_by toSearch text pos advance

theorem exists_findFrom?_of_mem_found {p : Pattern} {pos : Nat} {advance : Bool}
    (h : m ∈ p.found text pos advance) :
    ∃ origin advance', p.findFrom? text origin advance' = some m := by
  rw [found_eq] at h
  cases hm : p.findFrom? text pos advance with
  | none => simp [hm] at h
  | some m' =>
    have hlt := toSearch_lt hm
    simp only [hm, List.mem_cons] at h
    obtain rfl | h := h
    · exact ⟨pos, advance, hm⟩
    · exact exists_findFrom?_of_mem_found h
termination_by toSearch text pos advance

theorem exists_reach_of_mem_findAll {p : Pattern} (h : m ∈ p.findAll text) :
    ∃ origin i q, i ≤ text.size ∧ p.node.Reach (p.scene text origin) false (.at i) q ∧
      m = .ofPoint q := by
  obtain ⟨origin, advance, hm⟩ := exists_findFrom?_of_mem_found h
  obtain ⟨i, q, -, hi, hq, -, rfl⟩ := exists_reach_of_findFrom? hm
  exact ⟨origin, i, q, hi, hq, rfl⟩

theorem findAll_ordered (text : Array Char) : Ordered text 0 (p.findAll text) :=
  p.found_ordered text 0 false (Nat.zero_le _)

/-- A pattern that reaches nothing has no matches. -/
theorem findAll_eq_nil {p : Pattern}
    (h : ∀ scene : Scene, scene.text = text → ∀ i q, i ≤ text.size →
      ¬p.node.Reach scene false (.at i) q) :
    p.findAll text = [] := by
  cases hm : p.findAll text with
  | nil => rfl
  | cons m ms =>
    obtain ⟨origin, i, q, hi, hq, -⟩ := exists_reach_of_mem_findAll
      (show m ∈ p.findAll text by simp [hm])
    exact absurd hq (h _ rfl i q hi)

/-! ### Replacing all matches -/

/-- The matches stay in order when their images are put beside them. -/
theorem ordered_images (p : Pattern) {f : Match → List Char} :
    Ordered text 0 (((p.findAll text).map fun m => (m, f m)).map Prod.fst) := by
  rw [List.map_map, show (Prod.fst ∘ fun m => (m, f m)) = id from rfl, List.map_id]
  exact p.findAll_ordered text

/-- A view of the text that is kept at each match is kept by the replacement. -/
theorem replaceAll_view {p : Pattern} {f : Match → List Char}
    {h : List Char → List Char} (happ : ∀ a b, h (a ++ b) = h a ++ h b)
    (hf : ∀ m ∈ p.findAll text, h (f m) = h (m.text text)) :
    h (p.replaceAll f text) = h text.toList := by
  rw [replaceAll, splice_view happ p.ordered_images (by simpa using hf), List.drop_zero]

/-- A replacement that changes no match changes nothing. -/
theorem replaceAll_eq_self {p : Pattern} {f : Match → List Char}
    (hf : ∀ m ∈ p.findAll text, f m = m.text text) : p.replaceAll f text = text.toList :=
  replaceAll_view (h := id) (fun _ _ => rfl) hf

/-- Replacing with effects that never fail is replacing. -/
theorem replaceAllM_ok {ε : Type} {p : Pattern} {f : Match → Except ε (List Char)}
    {g : Match → List Char} {text : Array Char} (hf : ∀ m ∈ p.findAll text, f m = .ok (g m)) :
    p.replaceAllM f text = .ok (p.replaceAll g text) := by
  have hmap : ∀ ms : List Match, (∀ m ∈ ms, f m = .ok (g m)) →
      (ms.mapM fun m => do return (m, ← f m)) = .ok (ms.map fun m => (m, g m)) := by
    intro ms
    induction ms with
    | nil => intro _; rfl
    | cons m ms ih =>
      intro h
      rw [List.mapM_cons, h m (by simp), ih fun m hm => h m (by simp [hm])]
      rfl
  unfold replaceAllM replaceAll
  rw [hmap _ hf]
  rfl

theorem replaceAllM_of_findAll_eq_nil {ε : Type} {p : Pattern} {f : Match → Except ε (List Char)}
    {text : Array Char} (h : p.findAll text = []) : p.replaceAllM f text = .ok text.toList := by
  rw [replaceAllM_ok (g := fun m => m.text text) (by simp [h]), replaceAll_eq_self (by simp [h])]

end Pattern

/-! ### Replacing from a place on -/

/-- Whether the pattern never asks where the search began. -/
def Node.originFree : Node → Bool
  | .anchor a => a != .searchStart
  | .seq a b | .alt a b | .ifGroup _ a b => a.originFree && b.originFree
  | .group _ a | .rep a .. | .look _ _ a | .atomic a => a.originFree
  | _ => true

theorem roundPoints_congr {scene scene' : Scene} (h : scene.recalled = scene'.recalled)
    (body : Point → List Point) (least : Nat) (most : Option Nat) (reluctant : Bool) :
    ∀ (fuel count : Nat) (p : Point) (seen : List Place),
      roundPoints scene body least most reluctant fuel count p seen =
        roundPoints scene' body least most reluctant fuel count p seen
  | 0, _, _, _ => rfl
  | fuel + 1, count, p, seen => by
      have ih := roundPoints_congr h body least most reluctant fuel
      have hplace : placeOf scene least most count p = placeOf scene' least most count p := by
        rw [placeOf, placeOf, h]
      simp only [roundPoints, hplace, ih]

theorem Node.points_congr (scene scene' : Scene) (htext : scene.text = scene'.text)
    (hrecalled : scene.recalled = scene'.recalled) {n : Node} (hn : n.originFree = true) :
    n.points scene = n.points scene' := by
  induction n with
  | empty | fail | keep => rfl
  | one cs =>
    funext back p
    simp only [points, Scene.stepOver, htext]
  | anchor a =>
    funext back p
    have h : scene.holdsAt a p.pos = scene'.holdsAt a p.pos := by
      cases a with
      | searchStart => simp [originFree] at hn
      | _ => simp only [Scene.holdsAt, Scene.wordBefore, Scene.wordAt, htext]
    rw [points, points, h]
  | seq a b iha ihb | alt a b iha ihb | ifGroup i a b iha ihb =>
    simp only [originFree, Bool.and_eq_true] at hn
    funext back p
    simp only [points, iha hn.1, ihb hn.2]
  | group i a ih | look behind positive a ih | atomic a ih =>
    funext back p
    simp only [points, ih hn]
  | «recall» i folding =>
    have hagree : ∀ i j n, scene.agree folding i j n = scene'.agree folding i j n := by
      intro i j n
      induction n generalizing i j with
      | zero => rfl
      | succ n ih => simp only [Scene.agree, htext, ih]
    funext back p
    simp only [points, Scene.stepOverSpan, hagree]
  | rep a least most reluctant ih =>
    funext back p
    simp only [points, ih hn, runPoints, htext, roundPoints_congr hrecalled]

namespace Pattern

/-- The points where a match that begins at a place may end, the preferred ones first. -/
def pointsAt (p : Pattern) (text : Array Char) (pos : Nat) : List Point :=
  p.node.points (p.scene text 0) false (.at pos)

/-- The replaced text from `pos` on. -/
def rewriteFrom (p : Pattern) (f : Match → List Char) (text : Array Char) (pos : Nat)
    (advance : Bool) : List Char :=
  splice text pos ((p.found text pos advance).map fun m => (m, f m))

theorem replaceAll_eq_rewriteFrom (p : Pattern) (f : Match → List Char) (text : Array Char) :
    p.replaceAll f text = p.rewriteFrom f text 0 false := rfl

section rewriting

variable {p : Pattern} (hp : p.node.originFree = true) {f : Match → List Char} {text : Array Char}
  {pos : Nat} {advance : Bool} {q : Point}
include hp

theorem matchFrom?_eq_pointsAt (origin : Nat) (allowed : Nat → Bool) (pos : Nat) :
    p.matchFrom? (p.scene text origin) allowed pos =
      ((p.pointsAt text pos).find? fun q => allowed q.pos).map .ofPoint := by
  rw [matchFrom?_eq_find?, Node.points_congr (p.scene text origin) (p.scene text 0) rfl rfl hp]
  rfl

/-- A match begins at a place and ends at the preferred point there, if that lies behind the
place. -/
theorem exists_place_of_mem_findAll {m : Match} (hm : m ∈ p.findAll text) :
    ∃ i ≤ text.size, (∃ q, q ∈ p.pointsAt text i) ∧
      ∀ q, (p.pointsAt text i).head? = some q → i < q.pos → m = .ofPoint q := by
  obtain ⟨origin, advance, hm⟩ := exists_findFrom?_of_mem_found hm
  obtain ⟨i, h₁, h₂, hi⟩ := exists_of_scan hm
  rw [matchFrom?_eq_pointsAt hp, Option.map_eq_some_iff] at hi
  obtain ⟨q', hq', rfl⟩ := hi
  refine ⟨i, by omega, ⟨q', List.mem_of_find?_eq_some hq'⟩, fun q hq hlt => ?_⟩
  obtain ⟨qs, hqs⟩ : ∃ qs, p.pointsAt text i = q :: qs := List.head?_eq_some_iff.1 hq
  have hallowed : (!(advance && q.pos == origin)) = true := by
    have hne : (q.pos == origin) = false := beq_eq_false_iff_ne.2 (by omega)
    simp [hne]
  rw [hqs, List.find?_cons, hallowed] at hq'
  rw [Option.some.inj hq']

theorem scan_eq_of_lt {origin origin' : Nat} :
    ∀ {fuel pos : Nat}, origin < pos →
      p.scan (p.scene text origin) (fun stop => !(advance && stop == origin)) fuel pos =
        p.scan (p.scene text origin') (fun stop => !(false && stop == origin')) fuel pos
  | 0, _, _ => rfl
  | fuel + 1, pos, hlt => by
      have hm : p.matchFrom? (p.scene text origin) (fun stop => !(advance && stop == origin)) pos =
          p.matchFrom? (p.scene text origin') (fun stop => !(false && stop == origin')) pos := by
        rw [matchFrom?_eq_pointsAt hp, matchFrom?_eq_pointsAt hp]
        congr 1
        refine List.find?_congr fun q hq => ?_
        have hle : pos ≤ q.pos := (Node.reach_of_mem_points hq).moves.forward rfl
        have hne : (q.pos == origin) = false := by
          rw [beq_eq_false_iff_ne]
          omega
        simp [hne]
      rw [scan, scan, hm]
      cases p.matchFrom? (p.scene text origin') (fun stop => !(false && stop == origin')) pos with
      | some m => rfl
      | none => exact scan_eq_of_lt (by omega)

theorem matchFrom?_eq_none (hno : ∀ q ∈ p.pointsAt text pos, advance = true ∧ q.pos = pos) :
    p.matchFrom? (p.scene text pos) (fun stop => !(advance && stop == pos)) pos = none := by
  rw [matchFrom?_eq_pointsAt hp, Option.map_eq_none_iff, List.find?_eq_none]
  intro q hq
  obtain ⟨h1, h2⟩ := hno q hq
  simp [h1, h2]

/-- Where no match begins, the search goes on behind a character. -/
theorem found_skip (hlt : pos < text.size) (hno : ∀ q ∈ p.pointsAt text pos, advance = true ∧
    q.pos = pos) : p.found text pos advance = p.found text (pos + 1) false := by
  have hfind : p.findFrom? text pos advance = p.findFrom? text (pos + 1) false := by
    unfold findFrom?
    rw [show text.size + 1 - pos = (text.size + 1 - (pos + 1)) +
      1 by omega, scan, matchFrom?_eq_none hp hno]
    exact scan_eq_of_lt hp (by omega)
  rw [found_eq, found_eq p text (pos + 1), hfind]

/-- Where a match begins, it is found. -/
theorem found_match (hpos : pos ≤ text.size)
    (hq : (p.pointsAt text pos).find? (fun q => !(advance && q.pos == pos)) = some q) :
    p.found text pos advance = .ofPoint q :: p.found text q.pos (q.start == q.pos) := by
  have hm : p.matchFrom? (p.scene text pos) (fun stop => !(advance && stop == pos)) pos =
      some (.ofPoint q) := by
    rw [matchFrom?_eq_pointsAt hp, hq]
    rfl
  have hfind : p.findFrom? text pos advance = some (.ofPoint q) := by
    unfold findFrom?
    rw [show text.size + 1 - pos = (text.size - pos) + 1 by omega, scan, hm]
  rw [found_eq, hfind]
  rfl

/-- Where a match begins, the others come behind it. -/
theorem found_of_head? (hpos : pos ≤ text.size) (hq : (p.pointsAt text pos).head? = some q) :
    p.found text pos false = .ofPoint q :: p.found text q.pos (q.start == q.pos) := by
  obtain ⟨qs, hqs⟩ := List.head?_eq_some_iff.1 hq
  exact found_match hp hpos (by simp [hqs])

/-- The first place where a match begins is where one is found. -/
theorem mem_findAll_of_first {n : Nat} (hn : n ≤ text.size)
    (hnone : ∀ i < n, p.pointsAt text i = []) (hq : (p.pointsAt text n).head? = some q) :
    .ofPoint q ∈ p.findAll text := by
  have hskip : ∀ i ≤ n, p.findAll text = p.found text i false := by
    intro i
    induction i with
    | zero => exact fun _ => p.findAll_eq_found text
    | succ i ih =>
      intro hi
      rw [ih (by omega), found_skip hp (by omega) (by simp [hnone i hi])]
  rw [hskip n le_rfl, found_of_head? hp hn hq]
  exact List.mem_cons_self

/-- Where no match begins at the end of the text, none is found. -/
theorem found_end (hno : ∀ q ∈ p.pointsAt text text.size, advance = true ∧ q.pos = text.size) :
    p.found text text.size advance = [] := by
  have hfind : p.findFrom? text text.size advance = none := by
    unfold findFrom?
    rw [show text.size + 1 - text.size = 0 + 1 by omega, scan, matchFrom?_eq_none hp hno]
    rfl
  rw [found_eq, hfind]

/-- Where no match begins, a character is copied. -/
theorem rewriteFrom_skip {c : Char} (hc : text[pos]? = some c)
    (hno : ∀ q ∈ p.pointsAt text pos, advance = true ∧ q.pos = pos) :
    p.rewriteFrom f text pos advance = c :: p.rewriteFrom f text (pos + 1) false := by
  obtain ⟨hlt, -⟩ := Array.getElem?_eq_some_iff.1 hc
  unfold rewriteFrom
  rw [found_skip hp hlt hno]
  have hord := p.found_ordered text (pos + 1) false hlt
  cases hms : p.found text (pos + 1) false with
  | nil =>
    simp only [List.map_nil, splice]
    have := between_append text (Nat.le_succ pos) hlt
    rw [between_succ hc] at this
    exact this.symm
  | cons m ms =>
    rw [hms] at hord
    simp only [List.map_cons, splice]
    have := between_append text (Nat.le_succ pos) hord.1
    rw [between_succ hc] at this
    rw [show Span.of ⟨pos, m.start⟩ text = between text pos m.start from rfl, ← this]
    rfl

/-- Where a match begins, its image is put in. -/
theorem rewriteFrom_match (hpos : pos ≤ text.size)
    (hq : (p.pointsAt text pos).find? (fun q => !(advance && q.pos == pos)) = some q) :
    p.rewriteFrom f text pos advance =
      between text pos q.start ++ f (.ofPoint q) ++
        p.rewriteFrom f text q.pos (q.start == q.pos) := by
  unfold rewriteFrom
  rw [found_match hp hpos hq]
  rfl

/-- At the end of the text nothing is left to copy. -/
theorem rewriteFrom_end (hno : ∀ q ∈ p.pointsAt text text.size, advance = true ∧
    q.pos = text.size) : p.rewriteFrom f text text.size advance = [] := by
  unfold rewriteFrom
  rw [found_end hp hno]
  exact between_self text text.size

end rewriting

end Pattern

end TemplateTidy
