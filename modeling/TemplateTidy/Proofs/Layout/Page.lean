import TemplateTidy.Proofs.Layout.Nesting
import TemplateTidy.Proofs.Layout.ShortElements

/-! # Pages

A page is a tree of elements and texts (`Content`).  `Content.layout` is the way it should look: an
element that holds at most a text goes on one line if that is short enough, any other has its tags
on lines of their own and its contents one level deeper.  Here the last step towards it is taken:
from the page with each tag and text on an indented line, joining short elements makes the layout
(`Content.joins_content`). -/

namespace TemplateTidy.Layout

open Text

/-- Elements and texts one after the other.  The index tells whether a text may come first: no two
texts stand side by side. -/
inductive Content : Bool → Type where
  | nil {b : Bool} : Content b
  | text (t : PlainText) (rest : Content false) : Content true
  | element {b : Bool} (n : LineName) (inner rest : Content true) : Content b

namespace Content

/-- The tags and texts of a page, in order. -/
def tokens : {b : Bool} → Content b → List Token
  | _, .nil => []
  | _, .text t rest => .text t :: rest.tokens
  | _, .element n inner rest => .tag false n :: (inner.tokens ++ .tag true n :: rest.tokens)

/-- What an element holds if it holds at most a text. -/
def only? : {b : Bool} → Content b → Option (List Char)
  | _, .nil => some []
  | _, .text t .nil => some t.chars
  | _, _ => none

/-- An element on one line, if it holds at most a text and is shorter than `most`. -/
def oneLine? (most : Int) (n : LineName) (inner : Content true) : Option (List Char) :=
  (inner.only?.map fun body => n.tag false ++ body ++ n.tag true).filter fun line =>
    decide ((line.length : Int) < most)

/-- The indent of a line that lies in `level` elements. -/
def margin (width level : Nat) : List Char :=
  List.replicate (level * width) ' '

/-- The lines of a page that lies in `level` elements: a short element on one line, any other with
its tags on lines of their own and its contents one level deeper. -/
def layout (width : Nat) (most : Int) : {b : Bool} → (level : Nat) → Content b → List (List Char)
  | _, _, .nil => []
  | _, level, .text t rest => (margin width level ++ t.chars) :: rest.layout width most level
  | _, level, .element n inner rest =>
    (match oneLine? most n inner with
    | some line => [margin width level ++ line]
    | none => (margin width level ++ n.tag false) ::
        (inner.layout width most (level + 1) ++ [margin width level ++ n.tag true])) ++
      rest.layout width most level

end Content

/-- Each line with its line feed. -/
def unlines (ls : List (List Char)) : List Char :=
  ls.flatMap (· ++ ['\n'])

/-! ### Pages as nested documents -/

theorem lineNames_check : (lineNames.all fun n => Markup.tagNames.contains n &&
    !(Markup.voidElements ++ ["pre", "textarea", "script", "style"]).contains n) = true := by
  decide +kernel

/-- The names of lines are names of elements whose contents are laid out. -/
def LineName.element (n : LineName) : ElementName :=
  have hname : n.name ∈ Markup.tagNames ∧ n.name ∉ Markup.voidElements ++ ["pre", "textarea",
      "script", "style"] := by
    have h := List.all_eq_true.1 lineNames_check n.name n.known
    rwa [Bool.and_eq_true, Bool.not_eq_true', List.contains_iff_mem, ← Bool.not_eq_true,
      List.contains_iff_mem] at h
  ⟨n.name, hname.1, fun h => hname.2 (List.mem_append_left _ h), fun h =>
    hname.2 (List.mem_append_right _ h)⟩

namespace Content

/-- A page as a nested document without template blocks. -/
def nested : {b : Bool} → Content b → Nested
  | _, .nil => .empty
  | _, .text t rest => .text t.toTextLine rest.nested
  | _, .element n inner rest => .element n.element inner.nested rest.nested

/-- The lines of the nested document are the tags and texts. -/
theorem lines_nested {b : Bool} (c : Content b) :
    ∀ level, (c.nested.lines level).map Prod.snd = c.tokens.map Token.chars := by
  induction c with
  | nil => exact fun _ => rfl
  | text t rest ih =>
    intro level
    simp only [nested, Nested.lines, tokens, List.map_cons, ih]
    rfl
  | element n inner rest ihinner ihrest =>
    intro level
    simp only [nested, Nested.lines, tokens, List.map_cons, List.map_append, ihinner, ihrest]
    rfl

theorem isTag_head : ∀ (c : Content false), ∀ t ∈ c.tokens.head?, t.isTag = true
  | .nil, _, h => by cases h
  | .element .., _, h => by
      obtain rfl := Option.some.inj h
      rfl

/-- No two texts of a page stand side by side. -/
theorem apart {b : Bool} (c : Content b) : Apart c.tokens := by
  induction c with
  | nil => exact .nil
  | text t rest ih => exact List.isChain_cons.2 ⟨fun t' ht' => by simp [isTag_head rest t' ht'], ih⟩
  | element n inner rest ihinner ihrest =>
    have htag : ∀ {closing : Bool}, (Token.tag closing n).isTag = true := rfl
    have hrest : Apart (Token.tag true n :: rest.tokens) :=
      List.isChain_cons.2 ⟨fun t' _ => by rw [htag, Bool.true_or], ihrest⟩
    refine List.isChain_cons.2
      ⟨fun t' _ => by rw [htag, Bool.true_or], ihinner.append hrest fun t _ t' ht' => ?_⟩
    obtain rfl := Option.some.inj ht'
    rw [htag, Bool.or_true]

end Content

/-! ### Joined elements -/

section standard

open Pattern

variable (width : Nat) (most : Int)

theorem indents_standard (level : Nat) :
    indents (.standard width most) level = Content.margin width level := by
  simp [indents, Settings.indent, Settings.standard, Content.margin,
    List.flatten_replicate_replicate]

/-- A match as it is joined. -/
def joinedText (s : Settings) (text : Array Char) (m : Match) : List Char :=
  if (joinedLength s (m.capture text 1) (m.capture text 3) (m.capture text 4) : Int) <
    s.maxLineLength then
    m.capture text 1 ++ m.capture text 3 ++ m.capture text 4
  else m.text text

theorem joined_standard (text : Array Char) (m : Match) :
    joined (.standard width most) [] text m = .ok (joinedText (.standard width most) text m) := by
  unfold joined joinedText
  simp only [List.any_nil, Bool.not_false, Bool.true_and, decide_eq_true_eq]
  split <;> rfl

end standard

/-- A token is the only line of its text. -/
theorem Token.splitLines_eq (t : Token) : splitLines t.chars = [t.chars] :=
  splitLinesFrom_of_oneLine t.oneLine (by simpa using t.chars_ne_nil)

/-- An element is joined if it is short enough. -/
theorem joinedText_element {width : Nat} {most : Int} {text : Array Char} {m : Match} {n : LineName}
    {body whole : List Char} (h₁ : m.capture text 1 = n.tag false) (h₃ : m.capture text 3 = body)
    (h₄ : m.capture text 4 = n.tag true) (h : m.text text = whole) :
    joinedText (.standard width most) text m =
      if ((n.tag false ++ body ++ n.tag true).length : Int) < most then n.tag false ++ body ++
      n.tag true
      else whole := by
  have hlines : splitLines (n.tag false) = [n.tag false] := (Token.tag false n).splitLines_eq
  have hlength : joinedLength (.standard width most) (m.capture text 1) (m.capture text 3)
      (m.capture text 4) = (n.tag false ++ body ++ n.tag true).length := by
    rw [h₁, h₃, h₄]
    show ((splitLines (n.tag false)).getLast?.getD []).length + _ + _ = _
    rw [hlines, List.length_append, List.length_append]
    rfl
  rw [joinedText, hlength, h₁, h₃, h₄, h]
  rfl

/-! ### Joined pages -/

section join

variable {width level : Nat} {most : Int}

theorem written_cons (line : List Char) (ls : List (Option Nat × List Char)) :
    written (.standard width most) ((some level, line) :: ls) =
      Content.margin width level ++ (line ++ '\n' :: written (.standard width most) ls) := by
  simp [written, placed, indents_standard]

theorem written_append {s : Settings} (ls ls' : List (Option Nat × List Char)) :
    written s (ls ++ ls') = written s ls ++ written s ls' := by
  simp [written]

theorem unlines_cons (l : List Char) (ls : List (List Char)) :
    unlines (l :: ls) = l ++ '\n' :: unlines ls := by
  simp [unlines]

theorem unlines_append (ls ls' : List (List Char)) :
    unlines (ls ++ ls') = unlines ls ++ unlines ls' := by
  simp [unlines]

namespace Content

theorem mem_margin {c : Char} (h : c ∈ margin width level) : c = ' ' :=
  (List.mem_replicate.1 h).2

theorem less_not_mem_margin : '<' ∉ margin width level := fun h => by cases mem_margin h

theorem isSpace_feed_margin : ∀ c ∈ '\n' :: margin width level, isSpace c = true := by
  intro c hc
  obtain rfl | hc := List.mem_cons.1 hc
  · decide
  · rw [mem_margin hc]
    decide

/-- The element `n` with its tags on lines of their own and `inner` between them, as it stands
behind the margin of its first line. -/
def block (width level : Nat) (n : LineName) (inner : List Char) : List Char :=
  n.tag false ++ ('\n' :: (inner ++ (margin width level ++ n.tag true)))

theorem written_element {b : Bool} (n : LineName) (inner rest : Content true) :
    written (.standard width most) ((Content.element (b := b) n inner rest).nested.lines level) =
      margin width level ++ (block width level n
        (written (.standard width most) (inner.nested.lines (level + 1))) ++
        '\n' :: written (.standard width most) (rest.nested.lines level)) := by
  rw [nested, Nested.lines, written_cons, written_append, written_cons]
  simp [block]
  rfl

/-- An element that holds at most a text is written so that it can be joined. -/
theorem shortBody_of_only (width level : Nat) (most : Int) {b : Bool} {inner : Content b}
    {body : List Char} (h : inner.only? = some body) :
    ∃ lead tail, ShortBody lead body tail ∧
      '\n' :: (written (.standard width most) (inner.nested.lines (level + 1)) ++
        margin width level) = lead ++ (body ++ tail) := by
  match inner, h with
  | .nil, h =>
    obtain rfl : [] = body := Option.some.inj h
    exact ⟨'\n' :: margin width level, [],
        ⟨isSpace_feed_margin, by simp, by simp, by simp, by simp, by simp⟩, by
      simp [nested, Nested.lines, written]⟩
  | .text t .nil, h =>
    obtain rfl : t.chars = body := Option.some.inj h
    have hspace : ∀ {c : Char}, isBlank c = false → isSpace c = false := by
      intro c hc
      by_contra hspace
      rw [isBlank_of_isSpace (by simpa using hspace)] at hc
      cases hc
    refine ⟨'\n' :: margin width (level + 1), '\n' :: margin width level,
      ⟨isSpace_feed_margin, fun c hc => ?_,
      t.less_not_mem, (Token.text t).feed_not_mem, fun c hc =>
      hspace ((Token.text t).isBlank_last c hc),
      isSpace_feed_margin⟩, ?_⟩
    · have hne : t.chars ≠ [] := (Token.text t).chars_ne_nil
      rw [List.head?_append_of_ne_nil _ hne] at hc
      exact hspace ((Token.text t).isBlank_head c hc)
    · rw [nested, nested, Nested.lines, Nested.lines, written_cons]
      simp [written]
  | .text _ (.element _ _ _), h => cases h
  | .element _ _ _, h => cases h

theorem oneLine?_of_only {n : LineName} {inner : Content true} {body : List Char}
    (h : inner.only? = some body) :
    oneLine? most n inner = if ((n.tag false ++ body ++ n.tag true).length : Int) < most then
      some (n.tag false ++ body ++ n.tag true) else none := by
  rw [oneLine?, h, Option.map_some, Option.filter_some]
  simp only [decide_eq_true_eq]

/-- The contents of an element that holds at most a text are laid out as they are written. -/
theorem unlines_of_only {b : Bool} {inner : Content b} {body : List Char}
    (h : inner.only? = some body) :
    unlines (inner.layout width most level) = written (.standard width most)
      (inner.nested.lines level) := by
  match inner, h with
  | .nil, _ => rfl
  | .text t .nil, _ =>
    rw [layout, layout, unlines_cons, nested, nested, Nested.lines, Nested.lines, written_cons]
    simp [unlines, written]
  | .text _ (.element _ _ _), h => cases h
  | .element _ _ _, h => cases h

/-- An element that holds more than a text holds an opening tag before any closing tag. -/
theorem open_of_only (width level : Nat) (most : Int) {b : Bool} {inner : Content b}
    (h : inner.only? = none) :
    ∃ u c r, written (.standard width most) (inner.nested.lines level) = u ++ '<' :: c :: r ∧
    '<' ∉ u ∧ c ≠ '/' := by
  have helement : ∀ {b : Bool} (n : LineName) (inner rest : Content true), ∃ c r,
      written (.standard width most) ((Content.element (b := b) n inner rest).nested.lines level) =
        margin width level ++ '<' :: c :: r ∧ c ≠ '/' := by
    intro b n inner rest
    obtain ⟨c, l, hc⟩ := List.exists_cons_of_ne_nil n.chars_ne_nil
    rw [written_element, block, LineName.tag, openTag, hc]
    refine ⟨c, _, rfl, ?_⟩
    rintro rfl
    cases n.small '/' (by simp [hc])
  cases inner with
  | nil => cases h
  | text t rest =>
    cases rest with
    | nil => cases h
    | element n inner rest =>
      obtain ⟨c, r, hrest, hc⟩ := @helement false n inner rest
      refine ⟨margin width level ++ (t.chars ++ '\n' :: margin width level), c, r, ?_, ?_, hc⟩
      · rw [nested, Nested.lines, written_cons, hrest]
        simp
      · simp [less_not_mem_margin, t.less_not_mem]
  | element n inner rest =>
    obtain ⟨c, r, hrest, hc⟩ := helement n inner rest
    exact ⟨margin width level, c, r, hrest, less_not_mem_margin, hc⟩

/-! ### The run over a page -/

/-- Behind `u`, a piece of a text is rewritten to an image. -/
def Joins (width : Nat) (most : Int) (text : Array Char) (u piece image : List Char) : Prop :=
  shortPattern.rewriteFrom (joinedText (.standard width most) text) text u.length false =
    image ++ shortPattern.rewriteFrom (joinedText (.standard width most) text) text
      (u ++ piece).length false

variable {text : Array Char} {u piece piece' image image' r : List Char}

theorem Joins.nil : Joins width most text u [] [] := by
  simp [Joins]

theorem Joins.append (h : Joins width most text u piece image)
    (h' : Joins width most text (u ++ piece) piece' image') :
    Joins width most text u (piece ++ piece') (image ++ image') := by
  rw [Joins, h, h', List.append_assoc, List.append_assoc]

/-- What holds no tag stays. -/
theorem joins_plain (hpiece : '<' ∉ piece) (htext : text.toList = u ++ (piece ++ r)) :
    Joins width most text u piece piece :=
  startsTag_short.rewriteFrom_copy htext hpiece

/-- An element that holds at most a text goes on one line if it is short, and stays as it is
otherwise. -/
theorem joins_only {n : LineName} {inner : Content true} {body w : List Char}
    (h : inner.only? = some body)
    (hw : written (.standard width most) (inner.nested.lines (level + 1)) = w)
    (htext : text.toList = u ++ (block width level n w ++ r)) :
    Joins width most text u (block width level n w)
      ((oneLine? most n inner).getD (block width level n w)) := by
  obtain ⟨lead, tail, hbody, hwritten⟩ := shortBody_of_only width level most h
  have hblock : block width level n w = n.tag false ++
      (lead ++ (body ++ (tail ++ n.tag true))) := by
    have happend := congrArg (· ++ n.tag true) (hw ▸ hwritten)
    simp only [List.cons_append, List.append_assoc] at happend
    rw [block, happend]
  rw [hblock] at htext ⊢
  obtain ⟨m, hm, h₁, h₃, h₄, hwhole⟩ :=
    rewriteFrom_short (f := joinedText (.standard width most) text) hbody
    (by simpa using htext)
  refine hm.trans ?_
  rw [joinedText_element h₁ h₃ h₄ hwhole, oneLine?_of_only h]
  split <;> rfl

/-- An element that holds an opening tag before any closing tag keeps its tags, and its contents are
joined. -/
theorem joins_open {n : LineName} {inner joined : List Char}
    (h : ∃ v c l, inner = v ++ '<' :: c :: l ∧ '<' ∉ v ∧ c ≠ '/')
    (hinner : Joins width most text (u ++ (n.tag false ++ ['\n'])) inner joined)
    (htext : text.toList = u ++ (block width level n inner ++ r)) :
    Joins width most text u (block width level n inner) (block width level n joined) := by
  have htext : text.toList = u ++ (n.tag false ++
      ('\n' :: (inner ++ (margin width level ++ (n.tag true ++ r))))) := by
    simpa [block] using htext
  obtain ⟨v, c, l, hv, hfree, hc⟩ := h
  have hopen : Joins width most text u (n.tag false) (n.tag false) := by
    refine rewriteFrom_open_copy (v := '\n' :: v) (c := c)
      (r := l ++ (margin width level ++ (n.tag true ++ r))) ?_
      (by simp [hfree]) hc
    rw [htext, hv]
    simp
  have hfeed : Joins width most text (u ++ n.tag false) ['\n'] ['\n'] :=
    joins_plain (by simp) (by simpa using htext)
  have hmargin : Joins width most text (u ++ n.tag false ++ ['\n'] ++ inner) (margin width level)
      (margin width level) :=
    joins_plain less_not_mem_margin (by simpa using htext)
  have hclose : Joins width most text (u ++ n.tag false ++ ['\n'] ++ inner ++ margin width level)
    (n.tag true)
      (n.tag true) :=
    rewriteFrom_close_copy (by simpa using htext)
  rw [← List.append_assoc] at hinner
  exact hopen.append (hfeed.append (hinner.append (hmargin.append hclose)))

/-- Joining gives the layout of a page. -/
theorem joins_content {b : Bool} (c : Content b) : ∀ (level : Nat) {u r : List Char},
    text.toList = u ++ (written (.standard width most) (c.nested.lines level) ++ r) →
    Joins width most text u (written (.standard width most) (c.nested.lines level))
      (unlines (c.layout width most level)) := by
  induction c with
  | nil => exact fun level _ _ _ => Joins.nil
  | text t rest ih =>
    intro level u r htext
    rw [nested, Nested.lines, written_cons] at htext ⊢
    have hline : Joins width most text u (margin width level ++ (t.chars ++ ['\n']))
        (margin width level ++ (t.chars ++ ['\n'])) :=
      joins_plain (by simp [less_not_mem_margin, t.less_not_mem]) (by simpa using htext)
    have hrest := ih level (u := u ++ (margin width level ++ (t.chars ++ ['\n']))) (r := r)
      (by simpa using htext)
    rw [layout, unlines_cons]
    simpa using hline.append hrest
  | element n inner rest ihinner ihrest =>
    intro level u r htext
    let piece := block width level n (written (.standard width most)
      (inner.nested.lines (level + 1)))
    rw [written_element] at htext ⊢
    have hmargin : Joins width most text u (margin width level) (margin width level) :=
      joins_plain less_not_mem_margin (by simpa using htext)
    have hfeed : Joins width most text (u ++ margin width level ++ piece) ['\n'] ['\n'] :=
      joins_plain (by simp) (by simpa using htext)
    have hrest := ihrest level (u := u ++ margin width level ++ piece ++ ['\n']) (r := r)
      (by simpa using htext)
    have helement : Joins width most text (u ++ margin width level) piece
        ((oneLine? most n inner).getD (block width level n
            (unlines (inner.layout width most (level + 1))))) := by
      cases honly : inner.only? with
      | some body =>
        rw [unlines_of_only honly]
        exact joins_only honly rfl (by simpa using htext)
      | none =>
        have hlong : oneLine? most n inner = none := by
          rw [oneLine?, honly]
          rfl
        rw [hlong]
        exact joins_open (open_of_only width (level + 1) most honly)
          (ihinner (level + 1) (by simpa [piece, block] using htext)) (by simpa using htext)
    have hall := hmargin.append (helement.append (hfeed.append hrest))
    rw [layout]
    cases hline : oneLine? most n inner <;> simpa [hline, unlines_cons, unlines_append, piece,
      block] using hall

end Content

end join

end TemplateTidy.Layout
