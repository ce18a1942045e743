import Mathlib
import TemplateTidy.Pattern.Search

/-! # Matches as lists of points

The matcher visits the points where a match may end one after the other.  `Node.points` lists the
same points in the same order, with the places of a repetition in a plain list, and
`ends_eq_visitAll` says that the matcher does nothing but walk through that list.  The first point
of the list that is allowed is the match (`matchFrom?_eq_find?`). -/

namespace TemplateTidy

/-! ### Walking through lists -/

section walking

variable {σ : Type} (f : Point → σ → Progress σ)

@[simp] theorem visitAll_nil (s : σ) : visitAll [] f s = .more s := rfl

theorem visitAll_cons (p : Point) (ps : List Point) (s : σ) :
    visitAll (p :: ps) f s = (f p s).andThen (visitAll ps f) := rfl

@[simp] theorem visitAll_singleton (p : Point) (s : σ) : visitAll [p] f s = f p s := by
  rw [visitAll_cons]
  cases f p s <;> rfl

theorem andThen_assoc (r : Progress σ) (k l : σ → Progress σ) :
    (r.andThen k).andThen l = r.andThen fun s => (k s).andThen l := by
  cases r <;> rfl

theorem visitAll_append (ps qs : List Point) (s : σ) :
    visitAll (ps ++ qs) f s = (visitAll ps f s).andThen (visitAll qs f) := by
  induction ps generalizing s with
  | nil => rfl
  | cons p ps ih =>
    rw [List.cons_append, visitAll_cons, visitAll_cons, andThen_assoc]
    congr 1
    funext t
    exact ih t

theorem visitAll_flatMap (g : Point → List Point) (ps : List Point) (s : σ) :
    visitAll (ps.flatMap g) f s = visitAll ps (fun p t => visitAll (g p) f t) s := by
  induction ps generalizing s with
  | nil => rfl
  | cons p ps ih =>
    rw [List.flatMap_cons, visitAll_append, visitAll_cons]
    congr 1
    funext t
    exact ih t

theorem visitAll_map (g : Point → Point) (ps : List Point) (s : σ) :
    visitAll (ps.map g) f s = visitAll ps (fun p t => f (g p) t) s := by
  induction ps generalizing s with
  | nil => rfl
  | cons p ps ih =>
    rw [List.map_cons, visitAll_cons, visitAll_cons]
    congr 1
    funext t
    exact ih t

theorem visitAll_toList (q : Option Point) (s : σ) :
    visitAll q.toList f s = q.elim (.more s) fun q => f q s := by
  cases q with
  | none => rfl
  | some q => exact visitAll_singleton f q s

end walking

/-- Stopping at the first point gives the head of the list. -/
theorem visitAll_stop_state (ps : List Point) :
    (visitAll ps (fun q _ => .stop (some q)) (none : Option Point)).state = ps.head? := by
  cases ps <;> rfl

/-- Stopping at the first allowed point finds it. -/
theorem visitAll_find (allowed : Point → Bool) (ps : List Point) :
    (visitAll ps (fun q t => if allowed q then .stop (some q) else .more t)
      (none : Option Point)).state = ps.find? allowed := by
  induction ps with
  | nil => rfl
  | cons p ps ih =>
    rw [visitAll_cons, List.find?_cons]
    cases h : allowed p with
    | true => rfl
    | false => simpa [Progress.andThen] using ih

/-! ### Runs of steps -/

/-- The points of a run of steps from the nearest on; `due` more steps come first. -/
def nearest (step : Point → Option Point) : (fuel due : Nat) → Point → List Point
  | 0, due, p => if due = 0 then [p] else []
  | fuel + 1, due, p =>
    (if due = 0 then [p] else []) ++
      match step p with
      | some q => nearest step fuel (due - 1) q
      | none => []

theorem visitNearest_eq {σ : Type} (step : Point → Option Point) (f : Point → σ → Progress σ) :
    ∀ (fuel due : Nat) (p : Point) (s : σ),
      visitNearest step fuel due p f s = visitAll (nearest step fuel due p) f s
  | 0, due, p, s => by
      by_cases h : due = 0 <;> simp [visitNearest, nearest, h]
  | fuel + 1, due, p, s => by
      rw [visitNearest, nearest, visitAll_append]
      have e : (if due = 0 then f p s else .more s) =
          visitAll (if due = 0 then [p] else []) f s := by
        by_cases h : due = 0 <;> simp [h]
      rw [e]
      congr 1
      funext t
      cases step p with
      | none => rfl
      | some q => exact visitNearest_eq step f fuel (due - 1) q t

/-- The points of a run of single steps. -/
def runPoints (scene : Scene) (step : Point → Option Point) (least : Nat) (most : Option Nat)
    (reluctant : Bool) (p : Point) : List Point :=
  let fuel := (most.getD scene.text.size).min scene.text.size
  if reluctant then nearest step fuel least p
  else
    let points := chain step fuel p []
    points.take (points.length - least)

theorem visitRun_eq {σ : Type} (scene : Scene) (step : Point → Option Point) (least : Nat)
    (most : Option Nat) (reluctant : Bool) (p : Point) (f : Point → σ → Progress σ) (s : σ) :
    visitRun scene step least most reluctant p f s =
      visitAll (runPoints scene step least most reluctant p) f s := by
  unfold visitRun runPoints
  cases reluctant with
  | true => exact visitNearest_eq step f _ _ _ _
  | false => rfl

/-! ### Rounds of a repetition -/

/-- Collects the points of each round, with the places seen so far. -/
def gather (g : Point → List Place → List Point × List Place) :
    List Point → List Place → List Point × List Place
  | [], seen => ([], seen)
  | p :: ps, seen =>
    let here := g p seen
    let later := gather g ps here.2
    (here.1 ++ later.1, later.2)

/-- The place of a repetition at a point. -/
def placeOf (scene : Scene) (least : Nat) (most : Option Nat) (count : Nat) (p : Point) : Place :=
  { pos := p.pos, rounds := if most.isSome then count else count.min least,
    held := scene.recalled.map p.group? }

/-- The points of the rounds of a repetition, and the places where it has been. -/
def roundPoints (scene : Scene) (body : Point → List Point) (least : Nat) (most : Option Nat)
    (reluctant : Bool) : (fuel count : Nat) → Point → List Place → List Point × List Place
  | 0, _, _, seen => ([], seen)
  | fuel + 1, count, p, seen =>
    let place := placeOf scene least most count p
    if seen.contains place then ([], seen)
    else
      let leave := if least ≤ count then [p] else []
      let again :=
        if most.all (count < ·) then
          gather (fun q seen =>
            if q.pos = p.pos then ([q], seen)
            else roundPoints scene body least most reluctant fuel (count + 1) q seen)
            (body p) (place :: seen)
        else ([], place :: seen)
      (if reluctant then leave ++ again.1 else again.1 ++ leave, again.2)

/-- A set of places with the same elements as a list. -/
def SamePlaces (seen : Seen) (l : List Place) : Prop :=
  ∀ x, seen.contains x = l.contains x

theorem SamePlaces.empty : SamePlaces ∅ [] := by
  intro x
  simp

theorem SamePlaces.insert {seen : Seen} {l : List Place} (h : SamePlaces seen l) (x : Place) :
    SamePlaces (seen.insert x) (x :: l) := by
  intro y
  rw [Std.HashSet.contains_insert, h y, List.contains_cons]
  congr 1
  exact Bool.beq_comm

/-- The visit with places agrees with the one without them, and ends with the places of `l`. -/
def Agrees {σ : Type} (l : List Place) : Progress (Seen × σ) → Progress σ → Prop
  | .stop (_, s), .stop t => s = t
  | .more (seen, s), .more t => SamePlaces seen l ∧ s = t
  | _, _ => False

theorem Agrees.map_snd {σ : Type} {l : List Place} {r : Progress (Seen × σ)} {r' : Progress σ}
    (h : Agrees l r r') : r.map Prod.snd = r' := by
  cases r <;> cases r' <;> simp_all [Agrees, Progress.map]

theorem agrees_visit {σ : Type} {seen : Seen} {l : List Place} (h : SamePlaces seen l)
    (r : Progress σ) : Agrees l (r.map (seen, ·)) r := by
  cases r <;> simp [Agrees, Progress.map, h]

theorem Agrees.andThen {σ : Type} {l m : List Place} {r : Progress (Seen × σ)} {r' : Progress σ}
    {k : Seen × σ → Progress (Seen × σ)} {k' : σ → Progress σ} (h : Agrees l r r')
    (hk : ∀ seen s, SamePlaces seen l → Agrees m (k (seen, s)) (k' s)) :
    Agrees m (r.andThen k) (r'.andThen k') := by
  cases r with
  | stop x =>
    cases r' with
    | stop s => simpa [Agrees, Progress.andThen] using h
    | more s => simp [Agrees] at h
  | more x =>
    cases r' with
    | stop s => simp [Agrees] at h
    | more s =>
      obtain ⟨seen, t⟩ := x
      obtain ⟨hs, rfl⟩ : SamePlaces seen l ∧ t = s := h
      exact hk seen t hs

theorem agrees_gather {σ : Type} {f : Point → σ → Progress σ}
    {h : Point → Seen × σ → Progress (Seen × σ)}
    {g : Point → List Place → List Point × List Place}
    (hg : ∀ q seen l s, SamePlaces seen l →
      Agrees (g q l).2 (h q (seen, s)) (visitAll (g q l).1 f s)) :
    ∀ (ps : List Point) (seen : Seen) (l : List Place) (s : σ), SamePlaces seen l →
      Agrees (gather g ps l).2 (visitAll ps h (seen, s)) (visitAll (gather g ps l).1 f s)
  | [], seen, l, s, hs => ⟨hs, rfl⟩
  | p :: ps, seen, l, s, hs => by
      rw [visitAll_cons]
      simp only [gather]
      rw [visitAll_append]
      refine (hg p seen l s hs).andThen ?_
      intro seen' t hs'
      exact agrees_gather hg ps seen' _ t hs'

theorem agrees_visitRounds {σ : Type} (scene : Scene) (pts : Point → List Point) (least : Nat)
    (most : Option Nat) (reluctant : Bool) (f : Point → σ → Progress σ) :
    ∀ (fuel count : Nat) (p : Point) (seen : Seen) (l : List Place) (s : σ), SamePlaces seen l →
      Agrees (roundPoints scene pts least most reluctant fuel count p l).2
        (visitRounds scene (fun p => visitAll (pts p)) least most reluctant f fuel count p (seen,
          s))
        (visitAll (roundPoints scene pts least most reluctant fuel count p l).1 f s)
  | 0, count, p, seen, l, s, hs => ⟨hs, rfl⟩
  | fuel + 1, count, p, seen, l, s, hs => by
      simp only [visitRounds, roundPoints]
      rw [show Place.mk p.pos (if most.isSome then count else count.min least)
        (scene.recalled.map p.group?) = placeOf scene least most count p from rfl, hs]
      by_cases hc : l.contains (placeOf scene least most count p) = true
      · simp only [hc, if_true]
        exact ⟨hs, rfl⟩
      · simp only [hc, Bool.false_eq_true, if_false]
        have hins := hs.insert (placeOf scene least most count p)
        -- leaving the repetition visits the point itself
        have hleave : ∀ (seen : Seen) (l : List Place) (s : σ), SamePlaces seen l →
            Agrees l (if least ≤ count then (f p s).map (seen, ·) else .more (seen, s))
              (visitAll (if least ≤ count then [p] else []) f s) := by
          intro seen l s h
          by_cases hl : least ≤ count
          · simpa [hl] using agrees_visit h (f p s)
          · simpa [hl] using (show Agrees l (.more (seen, s)) (.more s) from ⟨h, rfl⟩)
        -- one more round visits what follows each point of the body
        have hagain : ∀ (seen : Seen) (l : List Place) (s : σ), SamePlaces seen l →
            Agrees (if most.all (count < ·) then
                gather (fun q seen =>
                  if q.pos = p.pos then ([q], seen)
                  else roundPoints scene pts least most reluctant fuel (count + 1) q seen)
                  (pts p) l else ([], l)).2
              (if most.all (count < ·) then
                visitAll (pts p) (fun q st =>
                  if q.pos = p.pos then (f q st.2).map (st.1, ·)
                  else visitRounds scene (fun p => visitAll (pts p)) least most reluctant f fuel
                    (count + 1) q st) (seen, s)
              else .more (seen, s))
              (visitAll (if most.all (count < ·) then
                gather (fun q seen =>
                  if q.pos = p.pos then ([q], seen)
                  else roundPoints scene pts least most reluctant fuel (count + 1) q seen)
                  (pts p) l else ([], l)).1 f s) := by
          intro seen l s h
          by_cases hm : most.all (count < ·) = true
          · simp only [hm, if_true]
            refine agrees_gather ?_ (pts p) seen l s h
            intro q seen l s h
            by_cases hq : q.pos = p.pos
            · simpa [hq] using agrees_visit h (f q s)
            · simp only [hq, if_false]
              exact agrees_visitRounds scene pts least most reluctant f fuel
                (count + 1) q seen l s h
          · simp only [hm, Bool.false_eq_true, if_false]
            exact ⟨h, rfl⟩
        cases reluctant with
        | true =>
          simp only [if_true]
          rw [visitAll_append]
          exact (hleave _ _ s hins).andThen fun seen' t h => hagain seen' _ t h
        | false =>
          simp only [Bool.false_eq_true, if_false]
          rw [visitAll_append]
          exact (hagain _ _ s hins).andThen fun seen' t h => hleave seen' _ t h

/-! ### Patterns -/

namespace Node

/-- The points where a match of the pattern from `p` ends, the preferred ones first. -/
def points (scene : Scene) : Node → (back : Bool) → Point → List Point
  | .empty, _, p => [p]
  | .fail, _, _ => []
  | .one cs, back, p => (scene.stepOver back cs p).toList
  | .anchor a, _, p => if scene.holdsAt a p.pos then [p] else []
  | .seq a b, back, p =>
    if back then (b.points scene back p).flatMap (a.points scene back)
    else (a.points scene back p).flatMap (b.points scene back)
  | .alt a b, back, p => a.points scene back p ++ b.points scene back p
  | .group i a, back, p =>
    (a.points scene back p).map fun q =>
      { q with groups := (i, if back then ⟨q.pos, p.pos⟩ else ⟨p.pos, q.pos⟩) :: q.groups }
  | .recall i folding, back, p =>
    ((p.group? i).bind fun held => scene.stepOverSpan back folding held p).toList
  | .rep a least most reluctant, back, p =>
    if a.isStep then
      runPoints scene (fun p => (a.points scene back p).head?) least most reluctant p
    else
      (roundPoints scene (a.points scene back) least most reluctant (scene.text.size + 1) 0 p []).1
  | .look behind positive a, _, p =>
    match (a.points scene behind p).head? with
    | some q => if positive then [{ p with groups := q.groups }] else []
    | none => if positive then [] else [p]
  | .atomic a, back, p => (a.points scene back p).head?.toList
  | .keep, _, p => [{ p with start := p.pos }]
  | .ifGroup i yes no, back, p =>
    if (p.group? i).isSome then yes.points scene back p else no.points scene back p

/-- The matcher walks through the points. -/
theorem ends_eq_visitAll (scene : Scene) (n : Node) :
    ∀ (back : Bool) (p : Point) (σ : Type) (f : Point → σ → Progress σ) (s : σ),
      n.ends scene back p σ f s = visitAll (n.points scene back p) f s := by
  induction n with
  | empty => intro back p σ f s; simp [ends, points]
  | fail => intro back p σ f s; rfl
  | one cs =>
    intro back p σ f s
    rw [ends, points, visitAll_toList]
    cases scene.stepOver back cs p <;> rfl
  | anchor a =>
    intro back p σ f s
    by_cases h : scene.holdsAt a p.pos = true <;> simp [ends, points, h]
  | seq a b iha ihb =>
    intro back p σ f s
    rw [ends, points]
    cases back with
    | true =>
      simp only [if_true]
      rw [visitAll_flatMap, ihb]
      congr 1
      funext q t
      exact iha _ _ _ _ _
    | false =>
      simp only [Bool.false_eq_true, if_false]
      rw [visitAll_flatMap, iha]
      congr 1
      funext q t
      exact ihb _ _ _ _ _
  | alt a b iha ihb =>
    intro back p σ f s
    rw [ends, points, visitAll_append, iha]
    congr 1
    funext t
    exact ihb _ _ _ _ _
  | group i a ih =>
    intro back p σ f s
    rw [ends, points, visitAll_map, ih]
  | «recall» i folding =>
    intro back p σ f s
    rw [ends, points, visitAll_toList]
    cases p.group? i with
    | none => rfl
    | some held =>
      simp only [Option.bind_some]
      cases scene.stepOverSpan back folding held p <;> rfl
  | rep a least most reluctant ih =>
    intro back p σ f s
    have hstep : (fun p => (a.ends scene back p (Option Point) (fun q _ =>
        .stop (some q)) none).state) = fun p => (a.points scene back p).head? := by
      funext p
      rw [ih, visitAll_stop_state]
    have hbody : (fun p => a.ends scene back p (Seen × σ)) =
        fun p => visitAll (a.points scene back p) := by
      funext p g t
      exact ih _ _ _ _ _
    have hrounds : a.isStep = false →
        (visitRounds scene (fun p => a.ends scene back p (Seen × σ)) least most reluctant f
          (scene.text.size + 1) 0 p (∅, s)).map Prod.snd =
        visitAll (points scene (.rep a least most reluctant) back p) f s := by
      intro h
      rw [hbody, points, if_neg (by simp [h])]
      exact (agrees_visitRounds scene (a.points scene back) least most reluctant f _ 0 p ∅ [] s
        SamePlaces.empty).map_snd
    cases a with
    | one cs =>
      rw [ends, points, if_pos (show (Node.one cs).isStep = true from rfl), visitRun_eq]
      congr 3
      funext q
      rw [points]
      cases scene.stepOver back cs q <;> rfl
    | _ =>
      rw [ends.eq_def]
      simp only
      split
      · rename_i h
        rw [hstep, visitRun_eq, points, if_pos h]
      · rename_i h
        exact hrounds (by simpa using h)
  | look behind positive a ih =>
    intro back p σ f s
    rw [ends, points, ih, visitAll_stop_state]
    cases (a.points scene behind p).head? <;> cases positive <;> simp
  | atomic a ih =>
    intro back p σ f s
    rw [ends, points, ih, visitAll_stop_state, visitAll_toList]
    cases (a.points scene back p).head? <;> rfl
  | keep => intro back p σ f s; simp [ends, points]
  | ifGroup i yes no ihy ihn =>
    intro back p σ f s
    rw [ends, points]
    by_cases h : (p.group? i).isSome = true
    · rw [if_pos h, if_pos h, ihy]
    · rw [if_neg h, if_neg h, ihn]

end Node

/-- The match at a place is the first point that is allowed. -/
theorem Pattern.matchFrom?_eq_find? (p : Pattern) (scene : Scene) (allowed : Nat → Bool)
    (pos : Nat) :
    p.matchFrom? scene allowed pos =
      ((p.node.points scene false { pos, start := pos, groups := [] }).find?
        fun q => allowed q.pos).map
        fun q => { start := q.start, stop := q.pos, groups := q.groups } := by
  simp only [Pattern.matchFrom?, Node.ends_eq_visitAll]
  congr 1
  exact visitAll_find (fun q => allowed q.pos) _

end TemplateTidy
