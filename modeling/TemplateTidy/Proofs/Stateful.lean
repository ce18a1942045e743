import TemplateTidy.Failure

/-! # Computations with a state

Runs, jobs and edits are computations that may fail and keep what they have done to a state.  A
computation that answers has gone through all of its parts (`exists_of_bind`); what every part does
to the state, the whole does, also if it fails (`Keeps`).  A computation that is steady answers
alike in all states that look alike, and leaves states that look the same (`Steady`). -/

namespace TemplateTidy.Stateful

variable {σ α β : Type} {c c' : σ} {x : Stateful σ α} {f : α → Stateful σ β}

theorem exists_of_bind {b : β} (h : (x >>= f).run.run c = (.ok b, c')) :
    ∃ a d, x.run.run c = (.ok a, d) ∧ (f a).run.run d = (.ok b, c') := by
  rw [ExceptT.run_bind, StateT.run_bind] at h
  cases hx : x.run.run c with
  | mk o d =>
    rw [hx] at h
    cases o with
    | error e => cases h
    | ok a => exact ⟨a, d, rfl, h⟩

theorem run_bind {d : σ} {a : α} (h : x.run.run c = (.ok a, d))
    (f : α → Stateful σ β) : (x >>= f).run.run c = (f a).run.run d := by
  rw [ExceptT.run_bind, StateT.run_bind, h]
  rfl

/-- Parts that leave the state alone do what their outcomes do. -/
theorem run_bind_still {o : Outcome α} {g : α → Outcome β} (h : x.run.run c = (o, c))
    (hf : ∀ a, o = .ok a → (f a).run.run c = (g a, c)) : (x >>= f).run.run c = (o >>= g, c) := by
  cases o with
  | error e =>
    rw [ExceptT.run_bind, StateT.run_bind, h]
    rfl
  | ok a =>
    rw [run_bind h, hf a rfl]
    rfl

theorem of_pure {a b : α} (h : (pure a : Stateful σ α).run.run c = (.ok b, c')) : a = b ∧ c = c' :=
  ⟨Except.ok.inj (Prod.mk.inj h).1, (Prod.mk.inj h).2⟩

theorem of_get {a : σ} (h : (get : Stateful σ σ).run.run c = (.ok a, c')) : c = a ∧ c = c' :=
  ⟨Except.ok.inj (Prod.mk.inj h).1, (Prod.mk.inj h).2⟩

theorem of_lift {o : Outcome α} {a : α} (h : (lift o : Stateful σ α).run.run c = (.ok a, c')) :
    o = .ok a ∧ c = c' := by
  cases o with
  | error e => cases h
  | ok b =>
    obtain ⟨rfl, rfl⟩ := of_pure h
    exact ⟨rfl, rfl⟩

theorem run_lift (o : Outcome α) (c : σ) : (lift o : Stateful σ α).run.run c = (o, c) := by
  cases o <;> rfl

theorem run_get_bind (g : σ → Stateful σ α) (c : σ) : (get >>= g).run.run c = (g c).run.run c :=
  run_bind (show (get : Stateful σ σ).run.run c = (.ok c, c) from rfl) g

theorem exists_of_map {g : α → β} {b : β} (h : (g <$> x).run.run c = (.ok b, c')) :
    ∃ a, x.run.run c = (.ok a, c') ∧ b = g a := by
  rw [map_eq_pure_bind] at h
  obtain ⟨a, d, ha, h⟩ := exists_of_bind h
  obtain ⟨rfl, rfl⟩ := of_pure h
  exact ⟨a, ha, rfl⟩

/-! ### What a computation may answer -/

/-- The computation answers `a` from some state. -/
def Gives (x : Stateful σ α) (a : α) : Prop :=
  ∃ c c', x.run.run c = (.ok a, c')

namespace Gives

theorem of_pure {a b : α} (h : Gives (pure a : Stateful σ α) b) : b = a := by
  obtain ⟨c, c', h⟩ := h
  exact (Stateful.of_pure h).1.symm

theorem of_lift {o : Outcome α} {a : α} (h : Gives (lift o : Stateful σ α) a) : o = .ok a := by
  obtain ⟨c, c', h⟩ := h
  exact (Stateful.of_lift h).1

end Gives

/-- Every answer of the computation has the property. -/
def Ensures (P : α → Prop) (x : Stateful σ α) : Prop :=
  ∀ c a c', x.run.run c = (.ok a, c') → P a

namespace Ensures

variable {P : β → Prop}

theorem bind (hf : ∀ a, Ensures P (f a)) : Ensures P (x >>= f) := by
  intro c b c' h
  obtain ⟨a, d, -, h⟩ := exists_of_bind h
  exact hf a d b c' h

/-- What the first part ensures, the second part may rely on. -/
theorem seq {Q : α → Prop} (hx : Ensures Q x) (hf : ∀ a, Q a → Ensures P (f a)) :
    Ensures P (x >>= f) := by
  intro c b c' h
  obtain ⟨a, d, ha, h⟩ := exists_of_bind h
  exact hf a (hx c a d ha) d b c' h

theorem pure {b : β} (h : P b) : Ensures P (Pure.pure b : Stateful σ β) := by
  intro c b' c' hb
  rwa [← (of_pure hb).1]

theorem throw (e : Failure) : Ensures P (throw e : Stateful σ β) := by
  intro c b c' h
  cases h

theorem lift (o : Outcome β) : Ensures (o = .ok ·) (lift o : Stateful σ β) :=
    fun _ _ _ h => (of_lift h).1

/-- A list of computations that ensure what each of them answers. -/
theorem mapM {g : α → β} (hf : ∀ a, Ensures (· = g a) (f a)) :
    ∀ l : List α, Ensures (· = l.map g) (l.mapM f)
  | [] => pure rfl
  | a :: l => by
      rw [List.mapM_cons]
      refine (hf a).seq fun b hb => (mapM hf l).seq fun bs hbs => pure ?_
      rw [hb, hbs, List.map_cons]

end Ensures

/-- The computation answers from every state. -/
def Answers (x : Stateful σ α) : Prop :=
  ∀ c, ∃ a c', x.run.run c = (.ok a, c')

namespace Answers

theorem pure (a : α) : Answers (Pure.pure a : Stateful σ α) := fun c => ⟨a, c, rfl⟩

theorem bind (hx : Answers x) (hf : ∀ a, Answers (f a)) : Answers (x >>= f) := by
  intro c
  obtain ⟨a, d, ha⟩ := hx c
  rw [run_bind ha]
  exact hf a d

theorem mapM (hf : ∀ a, Answers (f a)) : ∀ l : List α, Answers (l.mapM f)
  | [] => pure []
  | a :: l => by
      rw [List.mapM_cons]
      exact (hf a).bind fun b => (mapM hf l).bind fun bs => pure (b :: bs)

end Answers

/-! ### Computations that answer alike -/

/-- If both computations answer from the same state, `R` relates the answers, and they end in the
same state. -/
def Alike (R : α → β → Prop) (x : Stateful σ α) (y : Stateful σ β) : Prop :=
  ∀ c a d b e, x.run.run c = (.ok a, d) → y.run.run c = (.ok b, e) → R a b ∧ d = e

namespace Alike

variable {γ : Type} {R : β → γ → Prop}

theorem pure {b : β} {b' : γ} (h : R b b') :
    Alike R (Pure.pure b : Stateful σ β) (Pure.pure b' : Stateful σ γ) := by
  intro c a d a' e ha ha'
  obtain ⟨rfl, rfl⟩ := of_pure ha
  obtain ⟨rfl, rfl⟩ := of_pure ha'
  exact ⟨h, rfl⟩

theorem throw (e : Failure) (y : Stateful σ γ) : Alike R (throw e : Stateful σ β) y := by
  intro c a d b e h
  cases h

/-- The same first part, and second parts that answer alike. -/
theorem bind {g : α → Stateful σ γ} (h : ∀ a, Alike R (f a) (g a)) :
    Alike R (x >>= f) (x >>= g) := by
  intro c b d b' e hb hb'
  obtain ⟨a, c₁, ha, hb⟩ := exists_of_bind hb
  obtain ⟨a', c₁', ha', hb'⟩ := exists_of_bind hb'
  obtain ⟨rfl, rfl⟩ : a = a' ∧ c₁ = c₁' := by
    rw [ha] at ha'
    cases ha'
    exact ⟨rfl, rfl⟩
  exact h a c₁ b d b' e hb hb'

end Alike

/-! ### What a computation does to the state -/

/-- The computation takes every state to one that `R` relates it to, whether or not it fails. -/
def Keeps (R : σ → σ → Prop) (x : Stateful σ α) : Prop :=
  ∀ c, R c (x.run.run c).2

namespace Keeps

variable {R : σ → σ → Prop}

theorem of_run (hR : ∀ c, R c c) (h : ∀ c, (x.run.run c).2 = c) : Keeps R x := by
  intro c
  rw [h c]
  exact hR c

theorem bind (hR : ∀ a b c, R a b → R b c → R a c)
    (hx : Keeps R x) (hf : ∀ a, Keeps R (f a)) : Keeps R (x >>= f) := by
  intro c
  have hc := hx c
  rw [ExceptT.run_bind, StateT.run_bind]
  cases h : x.run.run c with
  | mk o d =>
    rw [h] at hc
    cases o with
    | error e => exact hc
    | ok a => exact hR _ _ _ hc (hf a d)

theorem mapM (hr : ∀ c, R c c) (hR : ∀ a b c, R a b → R b c → R a c)
    (hf : ∀ a, Keeps R (f a)) : ∀ l : List α, Keeps R (l.mapM f)
  | [] => of_run hr fun _ => rfl
  | a :: l => by
      rw [List.mapM_cons]
      exact (hf a).bind hR fun b => (mapM hr hR hf l).bind hR fun bs => of_run hr fun _ => rfl

theorem foldlM (hr : ∀ c, R c c) (hR : ∀ a b c, R a b → R b c → R a c) {g : β → α → Stateful σ β}
    (hg : ∀ b a, Keeps R (g b a)) : ∀ (l : List α) (b : β), Keeps R (l.foldlM g b)
  | [], b => of_run hr fun _ => rfl
  | a :: l, b => by
      rw [List.foldlM_cons]
      exact (hg b a).bind hR fun b' => foldlM hr hR hg l b'

theorem lift (hr : ∀ c, R c c) (o : Outcome α) : Keeps R (Stateful.lift o) :=
  of_run hr fun c => by rw [run_lift]

end Keeps

/-! ### What a computation sees of the state -/

/-- In all states that look like `v`, the computation has the same outcome, and it ends in a state
that looks like `v`. -/
def Steady {τ : Type} (view : σ → τ) (v : τ) (x : Stateful σ α) : Prop :=
  ∃ o : Outcome α, ∀ c, view c = v → (x.run.run c).1 = o ∧ view (x.run.run c).2 = v

namespace Steady

variable {τ : Type} {view : σ → τ} {v : τ}

theorem pure (a : α) : Steady view v (Pure.pure a : Stateful σ α) :=
  ⟨.ok a, fun _ hc => ⟨rfl, hc⟩⟩

theorem throw (e : Failure) : Steady view v (throw e : Stateful σ α) :=
  ⟨.error e, fun _ hc => ⟨rfl, hc⟩⟩

theorem modify {f : σ → σ} (hf : ∀ c, view c = v → view (f c) = v) :
    Steady view v (modify f : Stateful σ PUnit) :=
  ⟨.ok ⟨⟩, fun c hc => ⟨rfl, hf c hc⟩⟩

theorem bind (hx : Steady view v x) (hf : ∀ a, Steady view v (f a)) : Steady view v (x >>= f) := by
  obtain ⟨o, ho⟩ := hx
  cases o with
  | error e =>
    refine ⟨.error e, fun c hc => ?_⟩
    obtain ⟨hresult, hview⟩ := ho c hc
    rw [ExceptT.run_bind, StateT.run_bind]
    cases hrun : x.run.run c with
    | mk o d =>
      rw [hrun] at hresult hview
      obtain rfl : o = .error e := hresult
      exact ⟨rfl, hview⟩
  | ok a =>
    obtain ⟨o', ho'⟩ := hf a
    refine ⟨o', fun c hc => ?_⟩
    obtain ⟨hresult, hview⟩ := ho c hc
    cases hrun : x.run.run c with
    | mk o d =>
      rw [hrun] at hresult hview
      obtain rfl : o = .ok a := hresult
      rw [run_bind hrun]
      exact ho' d hview

/-- A computation may look at the whole state if it goes on in the same way from all states that
look alike. -/
theorem get_bind {f : σ → Stateful σ β} {x : Stateful σ β} (hf : ∀ c, view c = v → f c = x)
    (hx : Steady view v x) : Steady view v (get >>= f) := by
  obtain ⟨o, ho⟩ := hx
  refine ⟨o, fun c hc => ?_⟩
  have hget : (get : Stateful σ σ).run.run c = (.ok c, c) := rfl
  rw [run_bind hget, hf c hc]
  exact ho c hc

theorem mapM (hf : ∀ a, Steady view v (f a)) : ∀ l : List α, Steady view v (l.mapM f)
  | [] => pure []
  | a :: l => by
      rw [List.mapM_cons]
      exact (hf a).bind fun b => (mapM hf l).bind fun bs => pure (b :: bs)

theorem foldlM {g : β → α → Stateful σ β} (hg : ∀ b a, Steady view v (g b a)) :
    ∀ (l : List α) (b : β), Steady view v (l.foldlM g b)
  | [], b => pure b
  | a :: l, b => by
      rw [List.foldlM_cons]
      exact (hg b a).bind fun b' => foldlM hg l b'

end Steady

end TemplateTidy.Stateful
