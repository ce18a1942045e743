import Mathlib.Data.List.Forall2
import TemplateTidy.Proofs.Outcome

/-! # Style sheets at different levels

The level of a layout is the indentation that all its lines share.  It takes part in the widths of
lines only, and style sheets are never broken by width, so two layouts of a style sheet with options
that differ in the level (`Options.Matches`) go through pages that are alike (`Sheet.Alike.run`).
What they write differs in the indentation that the lines share (`Recast`), hence has the same
number of lines (`Style.layout_agree`). -/

namespace TemplateTidy

/-- Computations that fail alike, or give answers that are related. -/
def Outcome.Agree {α β : Type} (R : α → β → Prop) : Outcome α → Outcome β → Prop
  | .ok a, .ok b => R a b
  | .error e, .error e' => e = e'
  | _, _ => False

namespace Outcome.Agree

variable {α β γ δ : Type} {R : α → β → Prop} {S : γ → δ → Prop}

theorem bind {x : Outcome α} {y : Outcome β} {f : α → Outcome γ}
    {g : β → Outcome δ} (h : Agree R x y)
    (hf : ∀ a b, R a b → Agree S (f a) (g b)) : Agree S (x >>= f) (y >>= g) := by
  cases x with
  | ok a =>
    cases y with
    | ok b => exact hf a b h
    | error e => exact h.elim
  | error e =>
    cases y with
    | ok b => exact h.elim
    | error e' => exact h

theorem mapM {f : α → Outcome γ} {g : β → Outcome δ} (hf : ∀ a b, R a b → Agree S (f a) (g b))
    {as : List α}
    {bs : List β} (h : List.Forall₂ R as bs) : Agree (List.Forall₂ S) (as.mapM f) (bs.mapM g) := by
  induction h with
  | nil => exact .nil
  | cons hab _ ih =>
    rw [List.mapM_cons, List.mapM_cons]
    exact bind (hf _ _ hab) fun c d hcd => bind ih fun cs ds hcds => .cons hcd hcds

theorem mono {R' : α → β → Prop} (hR : ∀ a b, R a b → R' a b) :
    ∀ {x : Outcome α} {y : Outcome β}, Agree R x y → Agree R' x y
  | .ok a, .ok b, h => hR a b h
  | .error _, .error _, h => h

theorem rfl_eq (x : Outcome α) : Agree Eq x x := by
  cases x <;> exact rfl

end Outcome.Agree

namespace Code

open Text

/-! ### Pages -/

/-- Lines that differ at most in their widths, and that no break is noted for. -/
structure Line.Alike (a b : Line) : Prop where
  pieces : b.pieces = a.pieces
  indent : b.indent = a.indent
  whole : a.breakPoint.count = 0
  whole' : b.breakPoint.count = 0

/-- Pages that differ at most in the indentation that all lines share, which is `u` and `v`. -/
structure Page.Alike (u v : List Char) (p q : Page) : Prop where
  base : p.ruling.base = u
  base' : q.ruling.base = v
  size : q.ruling.size = p.ruling.size
  unit : q.ruling.unit = p.ruling.unit
  indentEmptyLines : q.ruling.indentEmptyLines = p.ruling.indentEmptyLines
  above : List.Forall₂ Line.Alike p.above q.above
  current : Line.Alike p.current q.current
  next : q.next = p.next
  spaced : q.spaced = p.spaced
  raw : q.raw = p.raw

namespace Line.Alike

variable {a b : Line}

theorem isEmpty (h : a.Alike b) : b.isEmpty = a.isEmpty := by
  rw [Line.isEmpty, Line.isEmpty, h.pieces]

theorem last? (h : a.Alike b) : b.last? = a.last? := by
  rw [Line.last?, Line.last?, h.pieces]

theorem blank (r r' : Ruling) (i : Indent) : (Line.blank r i).Alike (.blank r' i) :=
  ⟨rfl, rfl, rfl, rfl⟩

theorem setIndent (h : a.Alike b) (r r' : Ruling) (i : Indent) :
    (a.setIndent r i).Alike (b.setIndent r' i) := by
  unfold Line.setIndent
  rw [h.isEmpty]
  split
  · exact ⟨h.pieces, rfl, h.whole, h.whole'⟩
  · exact h

theorem push (h : a.Alike b) (piece : List Char) : (a.push piece).Alike (b.push piece) :=
  ⟨congrArg (piece :: ·) h.pieces, h.indent, h.whole, h.whole'⟩

theorem pop (h : a.Alike b) : a.pop.Alike b.pop := by
  unfold Line.pop
  rw [h.pieces]
  split
  · exact h
  · exact ⟨rfl, h.indent, h.whole, h.whole'⟩

theorem trim (h : a.Alike b) : a.trim.Alike b.trim :=
  ⟨congrArg (List.dropWhile (· == [' '])) h.pieces, h.indent, h.whole, h.whole'⟩

end Line.Alike

namespace Page.Alike

variable {u v : List Char} {p q : Page} (h : p.Alike u v q)
include h

/-- Both pages have a line above the current one, or none of them has. -/
theorem head?_cases : (p.above = [] ∧ q.above = []) ∨
    ∃ a as b bs, p.above = a :: as ∧ q.above = b :: bs ∧ a.Alike b := by
  have habove := h.above
  generalize p.above = as, q.above = bs at habove
  cases habove with
  | nil => exact .inl ⟨rfl, rfl⟩
  | cons hab => exact .inr ⟨_, _, _, _, rfl, rfl, hab⟩

theorem above_isEmpty : q.above.isEmpty = p.above.isEmpty := by
  obtain ⟨hp, hq⟩ | ⟨a, as, b, bs, hp, hq, -⟩ := h.head?_cases <;> simp [hp, hq]

theorem isEmpty : q.isEmpty = p.isEmpty := by
  rw [Page.isEmpty, Page.isEmpty, h.above_isEmpty, h.current.isEmpty]

theorem atStart : q.atStart = p.atStart :=
  h.current.isEmpty

theorem afterBlank : q.afterBlank = p.afterBlank := by
  have hhead : q.above.head?.all Line.isEmpty = p.above.head?.all Line.isEmpty := by
    obtain ⟨hp, hq⟩ | ⟨a, as, b, bs, hp, hq, hab⟩ := h.head?_cases <;> rw [hp, hq]
    exact hab.isEmpty
  rw [Page.afterBlank, Page.afterBlank, h.isEmpty, h.current.isEmpty, hhead]

theorem takesBreak (force : Bool) : q.takesBreak force = p.takesBreak force := by
  rw [Page.takesBreak, Page.takesBreak, h.isEmpty, h.atStart]

theorem space : Page.Alike u v { p with spaced := true } { q with spaced := true } :=
  ⟨h.base, h.base', h.size, h.unit, h.indentEmptyLines, h.above, h.current, h.next, rfl, h.raw⟩

theorem startLine : p.startLine.Alike u v q.startLine := by
  refine ⟨h.base, h.base', h.size, h.unit, h.indentEmptyLines, .cons h.current h.above, ?_, h.next,
    h.spaced, h.raw⟩
  rw [Page.startLine, Page.startLine, h.next]
  exact .blank ..

theorem breakLine (force : Bool) : (p.breakLine force).Alike u v (q.breakLine force) := by
  unfold Page.breakLine
  rw [h.takesBreak, h.raw]
  split
  · exact h.startLine
  · exact h

theorem setIndent (i : Indent) : (p.setIndent i).Alike u v (q.setIndent i) := by
  refine ⟨h.base, h.base', h.size, h.unit, h.indentEmptyLines, h.above, ?_, rfl, h.spaced, h.raw⟩
  simp only [Page.setIndent, h.above_isEmpty]
  exact h.current.setIndent ..

theorem addSpace : (p.addSpace false).Alike u v (q.addSpace false) := by
  unfold Page.addSpace
  rw [h.spaced, h.atStart]
  split
  · exact ⟨h.base, h.base', h.size, h.unit, h.indentEmptyLines, h.above, h.current.push [' '],
      h.next, rfl, h.raw⟩
  · exact ⟨h.base, h.base', h.size, h.unit, h.indentEmptyLines, h.above, h.current, h.next,
      rfl, h.raw⟩

/-- A page of whole lines takes a piece without a break. -/
theorem add (piece : List Char) : (p.add piece false).Alike u v (q.add piece false) := by
  have hs := h.addSpace
  have hnarrow : ∀ r : Page, (r.addSpace false).current.breakPoint.count = 0 →
      r.add piece false =
      { r.addSpace false with current := (r.addSpace false).current.push piece } := by
    intro r hr
    unfold Page.add
    dsimp only
    rw [if_neg]
    simp [Page.tooWide, Line.push, hr]
  rw [hnarrow p hs.current.whole, hnarrow q hs.current.whole']
  exact ⟨hs.base, hs.base', hs.size, hs.unit, hs.indentEmptyLines, hs.above, hs.current.push piece,
    hs.next, hs.spaced, hs.raw⟩

theorem trim (lines : Bool) : (p.trim lines).Alike u v (q.trim lines) := by
  have key : ∀ {as bs : List Line}, List.Forall₂ Line.Alike as bs → ∀ {a b : Line}, a.Alike b →
      Page.Alike u v (Page.trim.go p lines as a) (Page.trim.go q lines bs b) := by
    intro as bs hs
    induction hs with
    | nil =>
      intro a b hab
      exact ⟨h.base, h.base', h.size, h.unit, h.indentEmptyLines, .nil, hab, h.next,
        h.spaced, h.raw⟩
    | cons hl hs ih =>
      intro a b hab
      unfold Page.trim.go
      rw [hab.isEmpty]
      split
      · exact ih hl.trim
      · exact ⟨h.base, h.base', h.size, h.unit, h.indentEmptyLines, .cons hl hs, hab, h.next,
          h.spaced, h.raw⟩
  exact key h.above h.current.trim

theorem separate (opening : Char) (ending : List Char) :
    (p.separate opening ending).Alike u v (q.separate opening ending) := by
  have key : ∀ {as bs : List Line}, List.Forall₂ Line.Alike as bs →
      List.Forall₂ Line.Alike (Page.separate.go opening ending as)
        (Page.separate.go opening ending bs) := by
    intro as bs hs
    induction hs with
    | nil => exact .nil
    | cons hl hs ih =>
      unfold Page.separate.go
      rw [hl.isEmpty, hl.pieces, hl.last?]
      split
      · exact .cons hl hs
      · split
        · exact .cons ⟨rfl, rfl, rfl, rfl⟩ (.cons hl hs)
        · exact .cons hl ih
  exact ⟨h.base, h.base', h.size, h.unit, h.indentEmptyLines, key h.above, h.current, h.next,
    h.spaced, h.raw⟩

theorem close : p.close.Alike u v q.close := by
  have ht := h.trim true
  unfold Page.close
  dsimp only
  rw [ht.current.last?]
  split
  · exact ht
  · exact ⟨ht.base, ht.base', ht.size, ht.unit, ht.indentEmptyLines, ht.above, ht.current.pop,
      ht.next, ht.spaced, ht.raw⟩
  · exact ⟨ht.base, ht.base', ht.size, ht.unit, ht.indentEmptyLines, ht.above,
      ht.current.pop.push _, ht.next, ht.spaced, ht.raw⟩

end Page.Alike

/-! ### Style sheets -/

namespace Style

open Outcome

/-! Steps of a block. -/

namespace Sheet

/-- Drops the empty lines of a block that has nothing in it. -/
def dropBlank (s : Sheet) (empty : Bool) : Sheet :=
  if empty then { s with page := s.page.trim true } else s

/-- Leaves an at-rule. -/
def endStatement (s : Sheet) : Sheet :=
  { s with inExtend := false, inImport := false }

/-- Writes the closing brace. -/
def closeBrace (s : Sheet) : Sheet :=
  { s.print ['\x7d'] with inRule := false, groups := s.groups - 1 }

/-- Puts an empty line below, unless there is one or another block closes. -/
def spread (s : Sheet) : Sheet :=
  if !s.page.afterBlank && s.cursor.peek? != some '\x7d' then s.newLine true else s

theorem closeBlock_eq (s : Sheet) (previous : List Char) : s.closeBlock previous =
    (((s.outdent.newLine false).dropBlank
      (previous == ['\x7b'])).endStatement.endValue.closeBrace.keepBreaks.newLine
      false).spread := rfl

/-- Goes into the block of a rule or of a group of rules. -/
def enterRule (s : Sheet) : Sheet :=
  { s with inGroupHead := false,
           inRule := decide (if s.inGroupHead then s.groups ≤ s.depth else s.groups ≤ s.depth + 1) }

/-- Whether the line above is neither empty nor the beginning of a block. -/
def isApart (s : Sheet) : Bool :=
  match s.page.above.head? with
  | some l => !l.isEmpty && l.last? != some ['\x7b']
  | none => false

/-- Puts an empty line above a rule that is not the first one. -/
def setApart (s : Sheet) : Sheet :=
  if s.inRule && s.isApart then { s with page := s.page.separate '/' [','] } else s

/-- Writes the opening brace. -/
def openBrace (s : Sheet) : Sheet :=
  if s.options.braceStyle = .expand then
    let s := ((s.newLine false).print ['\x7b']).indent
    { s with page := s.page.setIndent { steps := s.depth } }
  else s.indent.print ['\x7b']

theorem openBlock_eq (s : Sheet) : s.openBlock =
    (s.endValue.enterRule.setApart.space true).openBrace.keepBreaks.newLine false := rfl

/-- Notes the name of an at-rule. -/
def noteName (s : Sheet) (name : List Char) : Outcome Sheet := do
  let name ← trimName name
  let word := String.ofList name
  let s := { s with inExtend := s.inExtend || word == "extend", inImport := s.inImport || word == "import" }
  if groupRules.contains word then
    return { s with groups := s.groups + 1, inGroupHead := s.inGroupHead || conditionRules.contains word }
  else if !s.inRule && s.parens == 0 && name.getLast? == some ':' then
    return Sheet.indent { s with inValue := true }
  else return s

/-- The name of an at-rule up to the next mark, as far as it is known before it is noted. -/
def nameAhead (c : Cursor) : List Char :=
  c.future.take ((c.future.takeWhile fun c => !endsName c).length + 1)

theorem atName_eq (s : Sheet) : s.atName = match (nameAhead s.cursor).getLast? with
    | none => .error .noCharacter
    | some c =>
      if c == ':' || c == ' ' then do
        let (unit, s) ← s.takeUnit fun c => c == ':' || c == ' '
        let name ← trimName unit
        ((s.print name).space true).noteName name
      else s.noteName (nameAhead s.cursor) := by
  show (match (nameAhead s.cursor).getLast? with | none => _ | some c => _) = _
  cases (nameAhead s.cursor).getLast? with
  | none => rfl
  | some c => cases hc : c == ':' || c == ' ' <;> simp only [hc] <;> rfl

end Sheet

/-- Sheets that differ in their pages and options only, and these are alike. -/
structure Sheet.Alike (u v : List Char) (s t : Sheet) : Prop where
  page : s.page.Alike u v t.page
  maxBreaks : t.options.maxBreaks = s.options.maxBreaks
  braceStyle : t.options.braceStyle = s.options.braceStyle
  cursor : t.cursor = s.cursor
  depth : t.depth = s.depth
  groups : t.groups = s.groups
  parens : t.parens = s.parens
  inRule : t.inRule = s.inRule
  inValue : t.inValue = s.inValue
  inGroupHead : t.inGroupHead = s.inGroupHead
  inExtend : t.inExtend = s.inExtend
  inImport : t.inImport = s.inImport
  last : t.last = s.last

/-- The same text, and sheets that are alike. -/
def Sheet.AlikeWith (u v : List Char) (x y : List Char × Sheet) : Prop :=
  y.1 = x.1 ∧ x.2.Alike u v y.2

namespace Sheet.Alike

variable {u v : List Char} {s t : Sheet} (h : s.Alike u v t)
include h

theorem space (b : Bool) : (s.space b).Alike u v (t.space b) := by
  cases b with
  | false => exact h
  | true => exact { h with page := h.page.space }

theorem newLine (force : Bool) : (s.newLine force).Alike u v (t.newLine force) :=
  { h with page := h.page.breakLine force }

theorem print (piece : List Char) : (s.print piece).Alike u v (t.print piece) := by
  refine { h with page := ?_ }
  unfold Sheet.print
  rw [h.depth]
  exact (h.page.setIndent _).add piece

theorem indent : s.indent.Alike u v t.indent :=
  { h with depth := congrArg (· + 1) h.depth }

theorem outdent : s.outdent.Alike u v t.outdent :=
  { h with depth := congrArg (· - 1) h.depth }

theorem moved (c : Cursor) : Alike u v { s with cursor := c } { t with cursor := c } :=
  { h with cursor := rfl }

theorem skipBlanks : s.skipBlanks.Alike u v t.skipBlanks := by
  unfold Sheet.skipBlanks
  rw [h.cursor]
  exact h.moved _

theorem keepBreaks : s.keepBreaks.Alike u v t.keepBreaks := by
  have key : ∀ (l : List Nat) {s t : Sheet}, s.Alike u v t →
      (l.foldl (fun s _ => s.newLine true) s).Alike u v
        (l.foldl (fun s _ => s.newLine true) t) := by
    intro l
    induction l with
    | nil => exact id
    | cons n l ih => exact fun h => ih (h.newLine true)
  unfold Sheet.keepBreaks
  dsimp only
  rw [h.cursor, h.maxBreaks]
  exact key _ (h.moved _)

theorem takeUnit (stops : Char → Bool) :
    Agree (AlikeWith u v) (s.takeUnit stops) (t.takeUnit stops) := by
  unfold Sheet.takeUnit
  rw [h.cursor]
  refine (Agree.rfl_eq _).bind fun n m hnm => ?_
  subst hnm
  exact ⟨rfl, h.moved _⟩

theorem printUnit (c : Char) (stops : Char → Bool) :
    Agree (Alike u v) (s.printUnit c stops) (t.printUnit c stops) := by
  refine (h.takeUnit stops).bind fun x y hxy => ?_
  dsimp only
  rw [hxy.1]
  exact hxy.2.print _

theorem blockComment : s.blockComment.Alike u v t.blockComment := by
  have h := h.newLine false
  unfold Sheet.blockComment
  dsimp only
  rw [h.cursor]
  exact (((h.moved _).print _).keepBreaks).newLine false

theorem lineComment : s.lineComment.Alike u v t.lineComment := by
  have h := h.space true
  unfold Sheet.lineComment
  dsimp only
  rw [h.cursor]
  exact ((h.moved _).print _).keepBreaks

theorem endValue : s.endValue.Alike u v t.endValue := by
  unfold Sheet.endValue
  rw [h.inValue]
  split
  · exact Alike.outdent { h with inValue := rfl }
  · exact h

theorem leaveParen : s.leaveParen.Alike u v t.leaveParen := by
  unfold Sheet.leaveParen
  rw [h.parens]
  split
  · exact h
  · exact Alike.outdent { h with parens := rfl }

theorem enterParen :
    (Sheet.indent { s with parens := s.parens + 1 }).Alike u v
      (Sheet.indent { t with parens := t.parens + 1 }) :=
  Alike.indent { h with parens := congrArg (· + 1) h.parens }

theorem comma : s.comma.Alike u v t.comma := by
  have h := (h.print [',']).keepBreaks
  unfold Sheet.comma
  dsimp only
  rw [h.inValue, h.parens, h.inImport, h.inExtend]
  split
  · exact h.newLine false
  · exact h.space true

theorem semicolon : s.semicolon.Alike u v t.semicolon := by
  unfold Sheet.semicolon
  rw [h.parens]
  split
  · have hended : Alike u v { s.endValue with inExtend := false, inImport := false }
        { t.endValue with inExtend := false, inImport := false } :=
      { h.endValue with inExtend := rfl, inImport := rfl }
    have h := (hended.print [';']).keepBreaks
    dsimp only
    rw [h.cursor]
    split
    · exact h.newLine false
    · exact h
  · exact ((h.print [';']).keepBreaks).space true

theorem colon : s.colon.Alike u v t.colon := by
  unfold Sheet.colon
  rw [h.inRule, h.inGroupHead, h.cursor, h.inExtend, h.parens]
  split
  · have h := h.print [':']
    dsimp only
    rw [h.inValue]
    split
    · exact h
    · have h : Alike u v { s.print [':'] with inValue := true }
        { t.print [':'] with inValue := true } :=
        { h with inValue := rfl }
      exact (h.space true).keepBreaks.indent
  · have h := h.space (s.cursor.follows " ")
    dsimp only
    rw [h.cursor]
    split
    · exact (h.moved _).print _
    · exact h.print _

theorem openParen (spaced : Bool) :
    Agree (Alike u v) (s.openParen spaced) (t.openParen spaced) := by
  unfold Sheet.openParen
  rw [h.cursor]
  split
  · have h := (h.print ['(']).skipBlanks.enterParen
    dsimp only
    rw [h.cursor]
    split
    · exact h
    · split
      · exact h
      · exact ((h.moved _).printUnit _ _).bind fun s t h => h.leaveParen
  · exact ((h.space spaced).print ['(']).skipBlanks.enterParen

theorem dropBlank (empty : Bool) : (s.dropBlank empty).Alike u v (t.dropBlank empty) := by
  unfold Sheet.dropBlank
  split
  · exact { h with page := h.page.trim true }
  · exact h

theorem endStatement : s.endStatement.Alike u v t.endStatement :=
  { h with inExtend := rfl, inImport := rfl }

theorem closeBrace : s.closeBrace.Alike u v t.closeBrace :=
  { h.print _ with inRule := rfl, groups := congrArg (· - 1) h.groups }

theorem spread : s.spread.Alike u v t.spread := by
  unfold Sheet.spread
  rw [h.page.afterBlank, h.cursor]
  split
  · exact h.newLine true
  · exact h

theorem closeBlock (previous : List Char) :
    (s.closeBlock previous).Alike u v (t.closeBlock previous) := by
  rw [closeBlock_eq, closeBlock_eq]
  exact (((h.outdent.newLine false).dropBlank _).endStatement.endValue.closeBrace.keepBreaks.newLine
    false).spread

theorem enterRule : s.enterRule.Alike u v t.enterRule := by
  refine { h with inRule := ?_, inGroupHead := rfl }
  simp only [Sheet.enterRule, h.inGroupHead, h.groups, h.depth]

theorem setApart : s.setApart.Alike u v t.setApart := by
  have happart : t.isApart = s.isApart := by
    unfold Sheet.isApart
    obtain ⟨hp, hq⟩ | ⟨a, as, b, bs, hp, hq, hab⟩ := h.page.head?_cases <;> rw [hp, hq]
    simp only [List.head?_cons, hab.isEmpty, hab.last?]
  have hcond : (t.inRule && t.isApart) = (s.inRule && s.isApart) := by rw [h.inRule, happart]
  unfold Sheet.setApart
  rw [hcond]
  split
  · exact { h with page := h.page.separate _ _ }
  · exact h

theorem openBrace : s.openBrace.Alike u v t.openBrace := by
  unfold Sheet.openBrace
  rw [h.braceStyle]
  split
  · have h := ((h.newLine false).print ['\x7b']).indent
    refine { h with page := ?_ }
    dsimp only
    rw [h.depth]
    exact h.page.setIndent _
  · exact h.indent.print _

theorem openBlock : s.openBlock.Alike u v t.openBlock := by
  rw [openBlock_eq, openBlock_eq]
  exact (h.endValue.enterRule.setApart.space true).openBrace.keepBreaks.newLine false

theorem noteName (name : List Char) : Agree (Alike u v) (s.noteName name) (t.noteName name) := by
  refine (Agree.rfl_eq _).bind fun name name' hname => ?_
  subst hname
  have h : Alike u v { s with inExtend := s.inExtend || String.ofList name == "extend",
                              inImport := s.inImport || String.ofList name == "import" }
      { t with inExtend := t.inExtend || String.ofList name == "extend",
               inImport := t.inImport || String.ofList name == "import" } :=
    { h with inExtend := congrArg (· || _) h.inExtend, inImport := congrArg (· || _) h.inImport }
  dsimp only
  split
  · exact { h with
      groups := congrArg (· + 1) h.groups
      inGroupHead := congrArg (· || _) h.inGroupHead }
  · have hcond : (!t.inRule && t.parens == 0 && name.getLast? == some ':') =
        (!s.inRule && s.parens == 0 && name.getLast? == some ':') := by
      rw [h.inRule, h.parens]
    rw [hcond]
    split
    · exact Alike.indent { h with inValue := rfl }
    · exact h

theorem atName : Agree (Alike u v) s.atName t.atName := by
  rw [atName_eq, atName_eq, h.cursor]
  split
  · exact rfl
  · split
    · refine (h.takeUnit _).bind fun x y hxy => ?_
      dsimp only
      rw [hxy.1]
      refine (Agree.rfl_eq _).bind fun name name' hname => ?_
      subst hname
      exact ((hxy.2.print _).space true).noteName _
    · exact h.noteName _

theorem atSign (spaced : Bool) : Agree (Alike u v) (s.atSign spaced) (t.atSign spaced) := by
  have h := h.space spaced
  unfold Sheet.atSign
  dsimp only
  rw [h.cursor]
  split
  · exact h.printUnit _ _
  · exact (h.print _).atName

/-- Each unit keeps sheets alike. -/
theorem unit (c : Char) (spaced : Bool) (previous : List Char) :
    Agree (Alike u v) (s.unit c spaced previous) (t.unit c spaced previous) := by
  unfold Sheet.unit
  dsimp only
  rw [h.cursor]
  split
  · exact ((h.moved _).space _).print _
  · split
    · exact h.blockComment
    · split
      · exact h.lineComment
      · exact (h.space _).print _
  · exact h.atSign _
  · split
    · exact (h.space _).printUnit _ _
    · exact (h.space _).print _
  · exact h.openBlock
  · exact h.closeBlock _
  · exact h.colon
  · exact ((h.space _).printUnit _ _).bind fun s t h => h.keepBreaks
  · exact ((h.space _).printUnit _ _).bind fun s t h => h.keepBreaks
  · exact h.semicolon
  · exact h.openParen _
  · exact h.leaveParen.print _
  · exact h.comma
  · exact h.print _
  · exact h.skipBlanks.print _
  · split
    · exact (h.space _).print _
    · exact (h.print _).print _
  · rw [h.inValue, h.parens]
    split
    · exact (h.print _).skipBlanks
    · exact (h.space _).print _

omit h in
/-- Two runs keep sheets alike. -/
theorem run : ∀ (fuel : Nat) {s t : Sheet}, s.Alike u v t → Agree (Alike u v) (Sheet.run fuel s)
    (Sheet.run fuel t)
  | 0, _, _, h => h
  | fuel + 1, s, t, h => by
      unfold Sheet.run
      dsimp only
      rw [h.cursor]
      split
      · exact h
      · rw [h.last]
        refine (Alike.unit ?_ _ _ _).bind fun s t h => run fuel h
        exact { h with cursor := rfl, last := rfl }

end Sheet.Alike

end Style

/-! ### Lines that share an indentation -/

/-- Texts that differ in what stands for `u` and `v` in them. -/
inductive Recast (u v : List Char) : List Char → List Char → Prop
  | nil : Recast u v [] []
  | char (c : Char) {a b : List Char} : Recast u v a b → Recast u v (c :: a) (c :: b)
  | base {a b : List Char} : Recast u v a b → Recast u v (u ++ a) (v ++ b)

namespace Recast

variable {u v a b : List Char}

protected theorem refl : ∀ a : List Char, Recast u v a a
  | [] => .nil
  | c :: a => .char c (Recast.refl a)

theorem append {x y : List Char} (h : Recast u v a b) (h' : Recast u v x y) :
    Recast u v (a ++ x) (b ++ y) := by
  induction h with
  | nil => exact h'
  | char c _ ih => exact .char c ih
  | base _ ih =>
    rw [List.append_assoc, List.append_assoc]
    exact .base ih

theorem joinWith {sep : List Char} {as bs : List (List Char)}
    (h : List.Forall₂ (Recast u v) as bs) :
    Recast u v (Text.joinWith sep as) (Text.joinWith sep bs) := by
  induction h with
  | nil => exact .nil
  | cons h hs ih =>
    cases hs with
    | nil => exact h
    | cons h' hs => exact (h.append (.refl sep)).append ih

/-- What no `u` and `v` holds can be replaced. -/
theorem flatMap {f : Char → List Char} (hu : ∀ c ∈ u, f c = [c]) (hv : ∀ c ∈ v, f c = [c])
    (h : Recast u v a b) : Recast u v (a.flatMap f) (b.flatMap f) := by
  have hsame : ∀ {w : List Char}, (∀ c ∈ w, f c = [c]) → w.flatMap f = w := by
    intro w hw
    rw [List.flatMap_congr hw]
    simp
  induction h with
  | nil => exact .nil
  | char c _ ih =>
    rw [List.flatMap_cons, List.flatMap_cons]
    exact (Recast.refl _).append ih
  | base _ ih =>
    rw [List.flatMap_append, List.flatMap_append, hsame hu, hsame hv]
    exact .base ih

theorem splitLinesFrom_cons {c : Char} {x : List Char} (hx : c = '\r' → x.head? ≠ some '\n')
    (l : List Char) : splitLinesFrom l (c :: x) =
      if isLineEnd c then l.reverse :: splitLinesFrom [] x else splitLinesFrom (c :: l) x := by
  rw [splitLinesFrom]
  rintro r rfl rfl
  exact hx rfl rfl

theorem splitLinesFrom_append {w : List Char} (hw : ∀ c ∈ w, isLineEnd c = false) (x : List Char) :
    ∀ l : List Char, splitLinesFrom l (w ++ x) = splitLinesFrom (w.reverse ++ l) x := by
  induction w with
  | nil => exact fun l => rfl
  | cons c w ih =>
    intro l
    obtain ⟨hc, hw⟩ := List.forall_mem_cons.1 hw
    rw [List.cons_append, splitLinesFrom_cons (by rintro rfl; cases hc), hc,
      if_neg Bool.false_ne_true, ih hw, List.reverse_cons, List.append_assoc, List.singleton_append]

/-- Where `u` and `v` hold no line end, and both something or both nothing, there are as many lines.
The second half is for a line feed that stands behind a carriage return. -/
theorem length_splitLinesFrom (hu : ∀ c ∈ u, isLineEnd c = false)
    (hv : ∀ c ∈ v, isLineEnd c = false)
    (huv : u = [] ↔ v = []) (h : Recast u v a b) : ∀ {l m : List Char}, (l = [] ↔ m = []) →
      (splitLinesFrom l a).length = (splitLinesFrom m b).length ∧
      (splitLinesFrom l ('\r' :: a)).length = (splitLinesFrom m ('\r' :: b)).length := by
  have hreturn : ∀ {l x : List Char}, x.head? ≠ some '\n' →
      (splitLinesFrom l ('\r' :: x)).length = (splitLinesFrom [] x).length + 1 := by
    intro l x hx
    rw [splitLinesFrom_cons fun _ => hx, if_pos (by decide), List.length_cons]
  induction h with
  | nil =>
    intro l m hlm
    refine ⟨?_, by rw [hreturn (by simp), hreturn (by simp)]⟩
    by_cases hl : l = []
    · rw [hl, hlm.1 hl]
    · simp [splitLinesFrom, hl, mt hlm.2 hl]
  | @char c a b _ ih =>
    have hfirst : ∀ {l m : List Char}, (l = [] ↔ m = []) →
        (splitLinesFrom l (c :: a)).length = (splitLinesFrom m (c :: b)).length := by
      intro l m hlm
      by_cases hc : c = '\r'
      · rw [hc]
        exact (ih hlm).2
      · rw [splitLinesFrom_cons (absurd · hc), splitLinesFrom_cons (absurd · hc)]
        split
        · rw [List.length_cons, List.length_cons, (ih Iff.rfl).1]
        · exact (ih (by simp)).1
    intro l m hlm
    refine ⟨hfirst hlm, ?_⟩
    by_cases hc : c = '\n'
    · rw [hc]
      simp [splitLinesFrom, (ih Iff.rfl).1]
    · rw [hreturn (by simpa using hc), hreturn (by simpa using hc), hfirst Iff.rfl]
  | @base a b _ ih =>
    have hfirst : ∀ {l m : List Char}, (l = [] ↔ m = []) →
        (splitLinesFrom l (u ++ a)).length = (splitLinesFrom m (v ++ b)).length := by
      intro l m hlm
      rw [splitLinesFrom_append hu, splitLinesFrom_append hv]
      exact (ih (by simp [huv, hlm])).1
    intro l m hlm
    refine ⟨hfirst hlm, ?_⟩
    by_cases hempty : u = []
    · rw [hempty, huv.1 hempty]
      exact (ih hlm).2
    · have hhead : ∀ {w x : List Char}, w ≠ [] → (∀ c ∈ w, isLineEnd c = false) →
        (w ++ x).head? ≠ some '\n' := by
        rintro (_ | ⟨c, w⟩) x hne hw hc
        · exact hne rfl
        · rw [List.cons_append, List.head?_cons, Option.some.injEq] at hc
          have := hw c List.mem_cons_self
          rw [hc] at this
          cases this
      rw [hreturn (hhead hempty hu), hreturn (hhead (mt huv.2 hempty) hv), hfirst Iff.rfl]

end Recast

/-! ### Layouts -/

theorem Ruling.lead_agree {r r' : Ruling} (hsize : r'.size = r.size)
    (hunit : r'.unit = r.unit) (i : Indent) :
    Outcome.Agree (Recast r.base r'.base) (r.lead i) (r'.lead i) := by
  have hbase : ∀ x : List Char, Recast r.base r'.base ((if i.steps < 0 then [] else r.base) ++ x)
      ((if i.steps < 0 then [] else r'.base) ++ x) := by
    intro x
    split
    · exact .refl x
    · exact .base (.refl x)
  unfold Ruling.lead
  dsimp only
  rw [hsize, hunit]
  split
  · exact rfl
  · split
    · have h := hbase []
      rw [List.append_nil, List.append_nil] at h
      exact h
    · split
      · exact hbase _
      · rw [List.append_assoc, List.append_assoc]
        exact hbase _

theorem Line.Alike.render {a b : Line} {r r' : Ruling} (hsize : r'.size = r.size)
    (hunit : r'.unit = r.unit) (hempty : r'.indentEmptyLines = r.indentEmptyLines) (h : a.Alike b) :
    Outcome.Agree (Recast r.base r'.base) (a.render r) (b.render r') := by
  unfold Line.render
  rw [h.isEmpty, hempty, h.indent, h.pieces]
  split
  · split
    · exact Ruling.lead_agree hsize hunit _
    · exact .nil
  · exact (Ruling.lead_agree hsize hunit _).bind fun x y hxy => hxy.append (.refl _)

theorem Page.Alike.render {u v : List Char} {p q : Page} (h : p.Alike u v q)
    (hu : '\n' ∉ u) (hv : '\n' ∉ v) (endWithBreak : Bool) (lineEnd : List Char) :
      Outcome.Agree (Recast u v) (p.render endWithBreak lineEnd)
      (q.render endWithBreak lineEnd) := by
  have hend : Page.Alike u v (if endWithBreak then p.close.startLine else p.close)
      (if endWithBreak then q.close.startLine else q.close) := by
    split
    · exact h.close.startLine
    · exact h.close
  unfold Page.render
  dsimp only
  generalize (if endWithBreak then p.close.startLine else p.close) = p,
    (if endWithBreak then q.close.startLine else q.close) = q at hend
  have hlines : List.Forall₂ Line.Alike (p.current :: p.above).reverse
      (q.current :: q.above).reverse :=
    List.forall₂_reverse_iff.2 (.cons hend.current hend.above)
  obtain ⟨rfl, rfl⟩ : u = p.ruling.base ∧ v = q.ruling.base := ⟨hend.base.symm, hend.base'.symm⟩
  have hshown : Outcome.Agree (List.Forall₂ (Recast p.ruling.base q.ruling.base))
      ((p.current :: p.above).reverse.mapM (Line.render p.ruling))
      ((q.current :: q.above).reverse.mapM (Line.render q.ruling)) :=
    Outcome.Agree.mapM (fun a b hab => hab.render hend.size hend.unit hend.indentEmptyLines) hlines
  refine hshown.bind fun ls ms hls => ?_
  · refine (Recast.joinWith hls).flatMap (fun c hc => if_neg ?_) (fun c hc => if_neg ?_)
    · rintro rfl
      exact hu hc
    · rintro rfl
      exact hv hc

/-- Options that lay out style sheets in the same way but for the level. -/
structure Options.Matches (o o' : Options) : Prop where
  disabled : o'.disabled = o.disabled
  lineEnd : o'.lineEnd = o.lineEnd
  endWithBreak : o'.endWithBreak = o.endWithBreak
  indentSize : o'.indentSize = o.indentSize
  indentUnit : o'.indentUnit = o.indentUnit
  maxBreaks : o'.maxBreaks = o.maxBreaks
  indentEmptyLines : o'.indentEmptyLines = o.indentEmptyLines
  braceStyle : o'.braceStyle = o.braceStyle

/-- Layouts with such options begin alike. -/
theorem Options.Matches.alike {o o' : Options} (h : o.Matches o') (text : List Char) :
    Style.Sheet.Alike (Ruling.ofOptions o).base (Ruling.ofOptions o').base
      { options := o, page := .ofRuling (.ofOptions o), cursor := .ofText text }
      { options := o', page := .ofRuling (.ofOptions o'), cursor := .ofText text } where
  page := ⟨rfl, rfl, h.indentSize, h.indentUnit, h.indentEmptyLines, .nil, .blank .., rfl, rfl, rfl⟩
  maxBreaks := h.maxBreaks
  braceStyle := h.braceStyle
  cursor := rfl
  depth := rfl
  groups := rfl
  parens := rfl
  inRule := rfl
  inValue := rfl
  inGroupHead := rfl
  inExtend := rfl
  inImport := rfl
  last := rfl

/-- Two layouts of a style sheet, at levels of which none is zero, fail alike or give as many
lines. -/
theorem Style.layout_agree {o o' : Options} (h : o.Matches o')
    (hunit : ∀ c ∈ o.indentUnit, isLineEnd c = false)
    (hlevel : 0 < o.level) (hlevel' : 0 < o'.level) (text : List Char) :
    Outcome.Agree (fun a b => (splitLines a).length = (splitLines b).length) (layout o text)
      (layout o' text) := by
  -- what all lines share at a level
  have hbase : ∀ {o : Options}, (∀ c ∈ o.indentUnit, isLineEnd c = false) →
      ∀ c ∈ (Ruling.ofOptions o).base, isLineEnd c = false := by
    intro o ho c hc
    obtain ⟨w, hw, hc⟩ := List.mem_flatten.1 hc
    rw [List.eq_of_mem_replicate hw] at hc
    exact ho c hc
  have hempty : ∀ {o : Options}, 0 < o.level →
      ((Ruling.ofOptions o).base = [] ↔ o.indentUnit = []) := by
    intro o ho
    have hpos : o.level.toNat ≠ 0 := by omega
    simp [Ruling.ofOptions, hpos]
  have hfeed : ∀ {w : List Char}, (∀ c ∈ w, isLineEnd c = false) → '\n' ∉ w :=
    fun hw hc => by cases hw _ hc
  have hu := hbase hunit
  have hv := hbase (h.indentUnit ▸ hunit)
  unfold layout
  rw [h.disabled]
  split
  · exact rfl
  · refine (Sheet.Alike.run _ (h.alike _)).bind fun s t hst => ?_
    rw [h.endWithBreak, h.lineEnd]
    refine (hst.page.render (hfeed hu) (hfeed hv) _ _).mono fun a b hab => ?_
    exact (hab.length_splitLinesFrom hu hv (by rw [hempty hlevel, hempty hlevel', h.indentUnit])
      Iff.rfl).1

end Code

end TemplateTidy
