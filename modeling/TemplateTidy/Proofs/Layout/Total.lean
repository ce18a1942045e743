import TemplateTidy.Proofs.Layout.Content
import TemplateTidy.Proofs.Layout.LineSources

/-! # When the stages answer

A stage fails where a name from the settings cannot be read as a part of a pattern.  `Readable` says
that all names can.  Then trimming and joining answer on every document, and so do all questions
that the indentation asks about a line.  The standard settings are of this kind
(`readable_standard`). -/

namespace TemplateTidy.Layout

open Text Pattern

/-! ### Names of tags -/

/-- The options of patterns over runs of tags. -/
abbrev runFlags : Flags := { ignoreCase := true, multiline := true, dotAll := true }

/-- Runs of template tags of one name, after a condition. -/
def runTree (condition : Items → Items) (name : List Char) (edge : Items → Items) : Choice :=
  .last <| condition <| .atom (.capture <| .last <|
    .rep (.plain <| .last <| .text "\x7b%" <| .few .space <| .atoms (lits name) <| edge <|
      .rep (.set true (.brace true) []) .some true <| .text "%\x7d" <| .maybe lineFeed .fin)
        .some false .fin) .fin

/-- The condition that no line feed stands before, at the beginning of a line. -/
def notAfterBlankLine : Items → Items :=
  .atom (.paren (.look true false) <| .last <| .atom .head <| .atom lineFeed .fin)

section names

variable {name : List Char} {rest : Items} {flags : Flags} {opened : List Nat} {k : Nat}

theorem okIn_lits (h : ∀ c ∈ name, isPlain c = true) :
    (Items.atoms (lits name) rest).okIn flags opened k = rest.okIn flags opened k := by
  induction name with
  | nil => rfl
  | cons c name ih =>
    have hc : (Atom.lit c).Simple flags :=
      simple_lits (n := [c]) (by simpa using h c (by simp)) _ (List.mem_singleton_self _)
    have hstep : Items.atoms (lits (c :: name)) rest = .atom (.lit c)
      (Items.atoms (lits name) rest) := rfl
    rw [hstep, Items.okIn, hc.ok, hc.groups, Nat.add_zero, ih fun d hd => h d (by simp [hd])]
    rfl

theorem runTree_ok (h : ∀ c ∈ name, isPlain c = true) :
    (runTree id name id).ok runFlags = true ∧ (runTree id name (.atom .edge)).ok runFlags = true ∧
      (runTree notAfterBlankLine name (.atom .edge)).ok runFlags = true := by
  have hsimple : ∀ a ∈ lits name, a.Simple runFlags := simple_lits h
  have hgroups : ∀ rest : Items, (Items.atoms (lits name) rest).groups = rest.groups :=
    fun rest => groups_atoms fun a ha => (hsimple a ha).groups
  have hbacks : ∀ rest : Items, (Items.atoms (lits name) rest).backs = rest.backs :=
    fun rest => backs_atoms fun a ha => (hsimple a ha).backs
  refine ⟨?_, ?_, ?_⟩
  all_goals
    simp [Choice.ok, runTree, notAfterBlankLine, okIn_lits h, hgroups, hbacks]
    exact ⟨⟨rfl, rfl⟩, rfl⟩

/-- A run of tags of a plain name can be read. -/
theorem exists_tagRun (h : ∀ c ∈ name, isPlain c = true) :
    (∃ p, tagRun "" name "" = .ok p) ∧ (∃ p, tagRun "" name r"\b" = .ok p) ∧
      ∃ p, tagRun r"(?<!^\n)" name r"\b" = .ok p := by
  obtain ⟨h₁, h₂, h₃⟩ := runTree_ok h
  refine ⟨⟨_, compile_of_print ?_ h₁⟩, ⟨_, compile_of_print ?_ h₂⟩, ⟨_, compile_of_print ?_ h₃⟩⟩
  all_goals simp [runTree, notAfterBlankLine, print_atoms, flatMap_lits]

end names

/-! ### Settings -/

/-- The tags that a setting lists, if any, have plain names. -/
def ListsPlain (v : Value) : Prop :=
  ∃ names, listedTags v = .ok names ∧ ∀ n ∈ names, ∀ c ∈ n, isPlain c = true

/-- All names in the settings can be read. -/
structure Readable (s : Settings) (html blocks kept : List (List Char)) : Prop where
  adds : Adds s html blocks kept
  after : ListsPlain s.blankLineAfterTag
  before : ListsPlain s.blankLineBeforeTag

variable {s : Settings} {html blocks kept : List (List Char)} {text : List Char}

/-! ### Stages -/

theorem exists_trimLines (h : Readable s html blocks kept) (text : List Char) :
    ∃ result, trimLines s text = .ok result := by
  obtain ⟨after, hafter, hplain⟩ := h.after
  obtain ⟨before, hbefore, hplain'⟩ := h.before
  obtain ⟨a, ha⟩ : ∃ a, blankLinesAfter s (trimEnds s text) = .ok a := by
    simp only [blankLinesAfter, hafter, Outcome.ok_bind]
    refine Outcome.exists_foldlM (fun name hname now => ?_) _
    obtain ⟨p, hp⟩ := (exists_tagRun (hplain name hname)).2.1
    simp only [hp, Outcome.ok_bind]
    exact ⟨_, rfl⟩
  obtain ⟨b, hb⟩ : ∃ b, blankLinesBefore s a = .ok b := by
    simp only [blankLinesBefore, hbefore, Outcome.ok_bind]
    refine Outcome.exists_foldlM (fun name hname now => ?_) _
    obtain ⟨p, hp⟩ := (exists_tagRun (hplain' name hname)).2.2
    simp only [hp, Outcome.ok_bind]
    exact ⟨_, rfl⟩
  simp only [trimLines, ha, hb, Outcome.ok_bind]
  exact ⟨_, rfl⟩

/-- All patterns for lines can be read. -/
structure AllRead (ps : LinePatterns) : Prop where
  closedLine : ∃ p, ps.closedLine = .ok p
  closingLine : ∃ p, ps.closingLine = .ok p
  closedAtEnd : ∃ p, ps.closedAtEnd = .ok p
  closedAtEndEscaped : ∃ p, ps.closedAtEndEscaped = .ok p
  closedAtStart : ∃ p, ps.closedAtStart = .ok p
  attributedAtStart : ∃ p, ps.attributedAtStart = .ok p
  openingLine : ∃ p, ps.openingLine = .ok p
  attributedTag : ∃ p, ps.attributedTag = .ok p

theorem allRead_of (h : Adds s html blocks kept) : AllRead (.of s) := by
  constructor <;> simp only [LinePatterns.of]
  · exact ⟨_, closedLine_eq h⟩
  · exact ⟨_, closingLine_eq h⟩
  · exact ⟨_, closedAtEnd_eq h⟩
  · exact ⟨_, closedAtEndEscaped_eq h⟩
  · exact ⟨_, closedAtStart_eq h⟩
  · exact ⟨_, attributedAtStart_eq h⟩
  · exact ⟨_, openingLine_eq h⟩
  · exact ⟨_, attributedTag_eq h⟩

section lines

variable {ps : LinePatterns}

theorem exists_closesLevel (h : AllRead ps) (inRegion : Bool) (standing : Standing)
    (line : Array Char) : ∃ b, closesLevel ps inRegion standing line = .ok b := by
  unfold closesLevel
  refine Outcome.exists_bind h.closingLine fun closing => Outcome.exists_ite ⟨_, rfl⟩ ?_
  refine Outcome.exists_bind h.closedAtEnd fun closed => Outcome.exists_ite ⟨_, rfl⟩ ?_
  exact Outcome.exists_bind h.closedAtEndEscaped fun escaped => ⟨_, rfl⟩

theorem exists_moveOf (h : AllRead ps) (inSet inRegion first : Bool) (standing : Standing)
    (line : Array Char) : ∃ move, moveOf s ps inSet inRegion first standing line = .ok move := by
  unfold moveOf
  refine Outcome.exists_ite ⟨_, rfl⟩ (Outcome.exists_bind h.closedLine fun closed => ?_)
  refine Outcome.exists_ite ⟨_, rfl⟩ (Outcome.exists_ite ⟨_, rfl⟩ (Outcome.exists_ite ⟨_, rfl⟩ ?_))
  refine Outcome.exists_bind (exists_closesLevel h inRegion standing line) fun closes => ?_
  refine Outcome.exists_ite ?_ ?_
  · refine Outcome.exists_bind h.closedAtStart fun start => Outcome.exists_ite ⟨_, rfl⟩ ?_
    exact Outcome.exists_bind h.attributedAtStart fun start => Outcome.exists_ite ⟨_, rfl⟩ ⟨_, rfl⟩
  · refine Outcome.exists_ite ⟨_, rfl⟩
      (Outcome.exists_ite ⟨_, rfl⟩ (Outcome.exists_ite ⟨_, rfl⟩ ?_))
    refine Outcome.exists_bind h.openingLine fun opening => Outcome.exists_ite ⟨_, rfl⟩ ?_
    exact Outcome.exists_ite ⟨_, rfl⟩ (Outcome.exists_ite ⟨_, rfl⟩ ⟨_, rfl⟩)

end lines

/-! ### Formatting -/

theorem exists_freeOf {v : Value} (h : ListsPlain v) (text : List Char) :
    ∃ b, freeOf v text = .ok b := by
  obtain ⟨names, hnames, hplain⟩ := h
  have hgo : ∀ {names : List (List Char)}, (∀ n ∈ names, ∀ c ∈ n, isPlain c = true) →
      ∃ b, freeOf.go text names = .ok b := by
    intro names hplain
    induction names with
    | nil => exact ⟨_, rfl⟩
    | cons name names ih =>
      unfold freeOf.go
      refine Outcome.exists_bind (exists_tagRun (hplain name (by simp))).1 fun run => ?_
      exact Outcome.exists_ite ⟨_, rfl⟩ (ih fun n hn => hplain n (by simp [hn]))
  obtain ⟨b, hb⟩ := hgo hplain
  exact ⟨b, by rw [freeOf, hnames, Outcome.ok_bind, hb]⟩

theorem exists_joined (h : Readable s html blocks kept) (ignored : List Span) (chars : Array Char)
    (m : Match) : ∃ image, joined s ignored chars m = .ok image := by
  unfold joined
  refine Outcome.exists_ite (Outcome.exists_bind (exists_freeOf h.after _) fun after => ?_) ⟨_, rfl⟩
  refine Outcome.exists_ite (Outcome.exists_bind (exists_freeOf h.before _)
    fun before => ?_) ⟨_, rfl⟩
  exact Outcome.exists_ite ⟨_, rfl⟩ ⟨_, rfl⟩

theorem exists_joinShort (h : Readable s html blocks kept) (text : List Char) :
    ∃ result, joinShort s text = .ok result := by
  unfold joinShort
  refine Outcome.exists_ite ⟨_, rfl⟩ (Outcome.exists_foldlM (fun p _ now => ?_) _)
  choose image himage using exists_joined h (Region.ignoredSpans text.toArray) now.toArray
  exact ⟨_, replaceAllM_ok fun m _ => himage m⟩

/-- What the formatter answers if all stages do. -/
theorem run_format {tools : Tools} {trimmed indented result : List Char} (hne : text ≠ [])
    (hcss : s.formatCss.truthy = false) (hjs : s.formatJs.truthy = false)
    (htrim : trimmedText s text = .ok trimmed)
    (hindent : (tools.indent trimmed).run.run s = (.ok indented, s))
    (hjoin : joinShort s indented = .ok result) :
    (tools.format text).run.run s = (.ok
      (if endsWithReturn text then withReturns result else result), s) := by
  have hstill : ∀ t, trimmedText s text = .ok t → ((tools.indent t).run.run s).2 = s := by
    intro t ht
    rw [htrim] at ht
    cases ht
    rw [hindent]
  rw [run_format_eq hne hcss hjs hstill, htrim, Outcome.ok_bind, hindent, Outcome.ok_bind, hjoin]
  rfl

/-! ### Standard settings -/

theorem readable_standard (w : Nat) (l : Int) : Readable (.standard w l) [] [] [] where
  adds := ⟨rfl, rfl, rfl, by simp⟩
  after := ⟨[], rfl, by simp⟩
  before := ⟨[], rfl, by simp⟩

theorem needs_attributedTagTree (ws : List (List Atom)) :
    ((attributedTagTree ws).pattern loose).node.needs '<' = true := by
  show (Node.ofList _).needs '<' = true
  rw [Node.needs_ofList]
  rfl

end TemplateTidy.Layout
