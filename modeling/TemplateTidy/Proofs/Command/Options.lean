import Mathlib.Tactic.CasesM
import TemplateTidy.Command.Run
import TemplateTidy.Proofs.Layout.Inversion

/-! # What a command line wishes for

Whether files are formatted, checked or linted is said by the command line alone: a switch for it is
given (`follows_of_ofArguments`), and no settings file has a say in it (`Settings.of_load`). -/

namespace TemplateTidy

open Files Stateful

/-- The settings take the caller's wishes as they are, and are not about the standard input. -/
structure Settings.Follows (s : Settings) (given : Overrides) : Prop where
  reformat : s.reformat = given.reformat
  check : s.check = given.check
  lint : s.lint = given.lint
  warn : s.warn = given.warn
  stdin : s.stdin = false

theorem Settings.of_load (t : Tree) (src : String) (given : Overrides) :
    Ensures (fun s : Settings => s.Follows given) (Settings.load t src given) := by
  unfold Settings.load
  dsimp only
  -- Whichever way the loader takes, the record at its end holds the caller's own wishes.
  repeat'
    first
    | exact .pure ⟨rfl, rfl, rfl, rfl, rfl⟩
    | exact .throw _
    | refine .bind fun _ => ?_
    | split

namespace Command

/-! ### Uses of switches -/

/-- Whether a switch of this name is used. -/
def Reading.gives (r : Reading) (long : String) : Bool :=
  r.uses.any (·.1.long == long)

/-- All uses are uses of known switches. -/
def Reading.IsKnown (r : Reading) : Prop :=
  ∀ u ∈ r.uses, u.1 ∈ switches

theorem isKnown_of_use {name : String} {w : Switch} {r r' : Reading} {rest rest' : List String}
    (hw : w ∈ switches) (hr : r.IsKnown) (h : use name w r rest = .ok (r', rest')) :
    r'.IsKnown := by
  unfold use at h
  dsimp only at h
  split at h
  · cases h
  · cases h
    intro u hu
    obtain hu | hu := List.mem_append.1 hu
    · exact hr u hu
    · rw [List.mem_singleton.1 hu]
      exact hw

theorem isKnown_of_readShort {r r' : Reading} {rest rest' : List String} {letters : List Char}
    (hr : r.IsKnown) (h : readShort r rest letters = .ok (r', rest')) : r'.IsKnown := by
  induction letters generalizing r rest with
  | nil =>
    cases h
    exact hr
  | cons c more ih =>
    unfold readShort at h
    dsimp only at h
    split at h
    · refine ih ?_ h
      exact hr
    · split at h
      · cases h
      next w hw =>
        have hw := List.mem_of_find?_eq_some hw
        split at h
        · split at h
          next r₁ rest₁ huse => exact ih (isKnown_of_use hw hr huse) h
          next => cases h
        · exact isKnown_of_use hw hr h

theorem isKnown_of_readSwitch {r r' : Reading} {arg : String} {rest rest' : List String}
    (hr : r.IsKnown) (h : readSwitch r arg rest = .ok (r', rest')) : r'.IsKnown := by
  unfold readSwitch at h
  dsimp only at h
  split at h
  next w hw =>
    have hw := List.mem_of_find?_eq_some hw
    split at h
    · split at h
      · cases h
      · exact isKnown_of_use hw hr h
    · exact isKnown_of_use hw hr h
  next =>
    split at h
    · split at h
      · cases h
      · cases h
        exact hr
    · split at h
      · cases h
      · exact isKnown_of_readShort hr h

theorem isKnown_of_readArguments {fuel : Nat} {r r' : Reading} {args : List String}
    (hr : r.IsKnown) (h : readArguments fuel r args = .ok r') : r'.IsKnown := by
  induction fuel generalizing r args with
  | zero =>
    cases h
    exact hr
  | succ fuel ih =>
    cases args with
    | nil =>
      cases h
      exact hr
    | cons arg rest =>
      unfold readArguments at h
      split at h
      · cases h
        exact hr
      · split at h
        · split at h
          next r₁ rest₁ hstep => exact ih (isKnown_of_readSwitch hr hstep) h
          next => cases h
        · refine ih ?_ h
          exact hr

/-! ### Flags -/

/-- An option that only the switch of this name sets, and sets to yes. -/
structure IsFlag (long : String) (get : Overrides → Value) : Prop where
  set_eq : ∀ w ∈ switches, ∀ o v, get (w.set o v) = if w.long = long then v else get o
  taking : ∀ w ∈ switches, w.long = long → w.taking = .nothing

/-- The four flags that say what is done with files, each set by its own switch. -/
theorem flags_of_set : ∀ w ∈ switches, ∀ (o : Overrides) (v : Value),
    (w.set o v).reformat = (if w.long = "--reformat" then v else o.reformat) ∧
      (w.set o v).check = (if w.long = "--check" then v else o.check) ∧
      (w.set o v).lint = (if w.long = "--lint" then v else o.lint) ∧
      (w.set o v).warn = (if w.long = "--warn" then v else o.warn) := by
  simp only [switches, List.forall_mem_cons, List.not_mem_nil, false_imp_iff, implies_true,
    and_true]
  constructorm* _ ∧ _
  all_goals intro o v
  all_goals first | exact ⟨rfl, rfl, rfl, rfl⟩ | (split <;> exact ⟨rfl, rfl, rfl, rfl⟩)

theorem isFlag_reformat : IsFlag "--reformat" Overrides.reformat where
  set_eq w hw o v := (flags_of_set w hw o v).1
  taking := by decide

theorem isFlag_check : IsFlag "--check" Overrides.check where
  set_eq w hw o v := (flags_of_set w hw o v).2.1
  taking := by decide

theorem isFlag_lint : IsFlag "--lint" Overrides.lint where
  set_eq w hw o v := (flags_of_set w hw o v).2.2.1
  taking := by decide

theorem isFlag_warn : IsFlag "--warn" Overrides.warn where
  set_eq w hw o v := (flags_of_set w hw o v).2.2.2
  taking := by decide

theorem mem_of_mem_lastUses {uses : List (Switch × List String)} {u : Switch × List String}
    (h : u ∈ lastUses uses) : u ∈ uses := by
  unfold lastUses at h
  obtain ⟨name, -, h⟩ := List.mem_flatMap.1 h
  dsimp only at h
  split at h
  next last hlast =>
    split at h
    · exact (List.mem_filter.1 h).1
    · rw [List.mem_singleton.1 h]
      exact (List.mem_filter.1 (List.mem_of_getLast? hlast)).1
  next => exact absurd h List.not_mem_nil

/-- Each switch that is used keeps a use that counts. -/
theorem exists_mem_lastUses {uses : List (Switch × List String)} {u : Switch × List String}
    (h : u ∈ uses) : ∃ u' ∈ lastUses uses, u'.1.long = u.1.long := by
  have hname : u.1.long ∈ (uses.map (·.1.long)).eraseDups :=
    List.mem_eraseDups.2 (List.mem_map.2 ⟨u, h, rfl⟩)
  have hown : u ∈ uses.filter (·.1.long == u.1.long) := List.mem_filter.2 ⟨h, beq_self_eq_true _⟩
  cases hlast : (uses.filter (·.1.long == u.1.long)).getLast? with
  | none =>
    rw [List.getLast?_eq_none_iff.1 hlast] at hown
    exact absurd hown List.not_mem_nil
  | some last =>
    have hmem := List.mem_of_getLast? hlast
    refine ⟨last, List.mem_flatMap.2 ⟨_, hname, ?_⟩, by simpa using (List.mem_filter.1 hmem).2⟩
    dsimp only
    rw [hlast]
    dsimp only
    split
    · exact hmem
    · exact List.mem_singleton_self last

/-- The options that uses of switches set, starting from some options. -/
def setAll (t : Tree) (uses : List (Switch × List String)) (o : Overrides) :
    Except Fault Overrides :=
  uses.foldlM (fun o (u : Switch × List String) => do return u.1.set o (← u.1.value t u.2)) o

theorem of_setAll_cons {t : Tree} {w : Switch} {args : List String}
    {uses : List (Switch × List String)}
    {o o' : Overrides} (h : setAll t ((w, args) :: uses) o = .ok o') :
    ∃ v, w.value t args = .ok v ∧ setAll t uses (w.set o v) = .ok o' := by
  unfold setAll at h
  rw [List.foldlM_cons] at h
  obtain ⟨o₁, h₁, h⟩ := Outcome.exists_of_bind h
  obtain ⟨v, hv, h₁⟩ := Outcome.exists_of_bind h₁
  obtain rfl := Except.ok.inj h₁
  exact ⟨v, hv, h⟩

theorem setAll_cons {t : Tree} {w : Switch} {args : List String}
    {uses : List (Switch × List String)} {o o' : Overrides} {v : Value}
    (hv : w.value t args = .ok v)
    (h : setAll t uses (w.set o v) = .ok o') : setAll t ((w, args) :: uses) o = .ok o' := by
  unfold setAll
  rw [List.foldlM_cons, hv]
  exact h

/-- The values of flags after some uses. -/
theorem IsFlag.of_setAll {long : String} {get : Overrides → Value}
    (hflag : IsFlag long get) {t : Tree} :
    ∀ {uses : List (Switch × List String)} {o o' : Overrides}, (∀ u ∈ uses, u.1 ∈ switches) →
      setAll t uses o = .ok o' → get o' = if uses.any (·.1.long == long) then .bool true else get o
  | [], o, o', _, h => by
      cases h
      rfl
  | (w, args) :: uses, o, o', hknown, h => by
      obtain ⟨hw, hrest⟩ := List.forall_mem_cons.1 hknown
      obtain ⟨v, hv, h⟩ := of_setAll_cons h
      rw [of_setAll hflag hrest h, hflag.set_eq w hw, List.any_cons]
      by_cases hlong : w.long = long
      · have hv' : v = .bool true := by
          simp only [Switch.value, hflag.taking w hw hlong] at hv
          exact (Except.ok.inj hv).symm
        simp [hlong, hv']
      · rw [if_neg hlong, beq_eq_false_iff_ne.2 hlong, Bool.false_or]

theorem IsFlag.of_lastUses {long : String} {get : Overrides → Value}
    (hflag : IsFlag long get) {t : Tree} {r : Reading} {o : Overrides} (hr : r.IsKnown)
    (hoff : get {} = .bool false)
    (h : setAll t (lastUses r.uses) {} = .ok o) : get o = .bool (r.gives long) := by
  rw [hflag.of_setAll (fun u hu => hr u (mem_of_mem_lastUses hu)) h, hoff]
  have hany : (lastUses r.uses).any (·.1.long == long) = r.gives long := by
    rw [Bool.eq_iff_iff, Reading.gives, List.any_eq_true, List.any_eq_true]
    constructor
    · rintro ⟨u, hu, hlong⟩
      exact ⟨u, mem_of_mem_lastUses hu, hlong⟩
    · rintro ⟨u, hu, hlong⟩
      obtain ⟨u', hu', heq⟩ := exists_mem_lastUses hu
      exact ⟨u', hu', by rwa [heq]⟩
  rw [hany]
  cases r.gives long <;> rfl

/-- A request that is not for help has the options that its switches set and the sources that were
read. -/
theorem overrides_of_ofArguments {t : Tree} {args : List String} {r : Reading} {request : Request}
    (hr : readArguments args.length {} args = .ok r) (h : Request.ofArguments t args = .ok request)
    (hhelp : request.help = false) : ∃ o, setAll t (lastUses r.uses) {} = .ok o ∧
      request.overrides = Overrides.withDefaultJob o ∧ request.sources = r.sources ∧
      r.help = false := by
  unfold Request.ofArguments at h
  obtain ⟨r', hr', h⟩ := Outcome.exists_of_bind h
  obtain rfl : r' = r := Except.ok.inj (hr'.symm.trans hr)
  split at h
  · cases h
    cases hhelp
  next hnone =>
    obtain ⟨o, ho, h⟩ := Outcome.exists_of_bind h
    dsimp only at h
    split at h
    · cases h
    · split at h
      · cases h
      · cases h
        exact ⟨o, ho, rfl, rfl, Bool.not_eq_true _ ▸ hnone⟩

/-- Help is what the arguments ask for. -/
theorem help_of_ofArguments {t : Tree} {args : List String} {r : Reading} {request : Request}
    (hr : readArguments args.length {} args = .ok r) (h : Request.ofArguments t args = .ok request)
    (hhelp : request.help = true) : r.help = true := by
  unfold Request.ofArguments at h
  obtain ⟨r', hr', h⟩ := Outcome.exists_of_bind h
  obtain rfl : r' = r := Except.ok.inj (hr'.symm.trans hr)
  split at h
  next hasked => exact hasked
  next =>
    obtain ⟨o, -, h⟩ := Outcome.exists_of_bind h
    dsimp only at h
    split at h
    · cases h
    · split at h
      · cases h
      · cases h
        cases hhelp

/-- Whether a command line asks for linting: by its switch, or by no switch for a format or a
check. -/
def Reading.lints (r : Reading) : Bool :=
  r.gives "--lint" || !(r.gives "--reformat" || r.gives "--check")

/-- The request wishes for what the switches say. -/
structure Request.Follows (request : Request) (r : Reading) : Prop where
  reformat : request.overrides.reformat = .bool (r.gives "--reformat")
  check : request.overrides.check = .bool (r.gives "--check")
  lint : request.overrides.lint = .bool r.lints
  warn : request.overrides.warn = .bool (r.gives "--warn")
  sources : request.sources = r.sources
  help : r.help = false

theorem follows_of_ofArguments {t : Tree} {args : List String} {r : Reading} {request : Request}
    (hr : readArguments args.length {} args = .ok r) (h : Request.ofArguments t args = .ok request)
    (hhelp : request.help = false) : request.Follows r := by
  have hknown : r.IsKnown := isKnown_of_readArguments (fun u hu => absurd hu List.not_mem_nil) hr
  obtain ⟨o, ho, hoverrides, hsources, hasked⟩ := overrides_of_ofArguments hr h hhelp
  have hreformat := isFlag_reformat.of_lastUses hknown rfl ho
  have hcheck := isFlag_check.of_lastUses hknown rfl ho
  have hlint := isFlag_lint.of_lastUses hknown rfl ho
  have hwarn := isFlag_warn.of_lastUses hknown rfl ho
  refine ⟨?_, ?_, ?_, ?_, hsources, hasked⟩
  · rw [hoverrides]
    exact hreformat
  · rw [hoverrides]
    exact hcheck
  · rw [hoverrides, Overrides.withDefaultJob, hlint, hreformat, hcheck]
    rfl
  · rw [hoverrides]
    exact hwarn

end Command

end TemplateTidy
