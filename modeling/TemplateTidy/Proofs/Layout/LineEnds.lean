import TemplateTidy.Proofs.Layout.Embedded

/-! # Line ends of a formatted document

All stages work on line feeds (`formatLines`).  No stage writes a carriage return, and from the
indentation on the document is `Tidy` at its ends (`formatLines_spec`).  `crlf` puts the carriage
returns back: the lines of a text are the same with them and without. -/

namespace TemplateTidy.Layout

open Text Pattern Stateful

variable {tools : Tools} {s s' : Settings} {text result : List Char}

/-! ### Tidy ends -/

/-- A pattern of short elements: an opening tag, text between blanks, and a closing tag that ends
with a bracket. -/
structure IsShort (p : Pattern) (first : List Node) (before body after : Node) (last : List Node)
    (a b : CharSet) : Prop where
  node : p.node = .ofList [.group 1 (.ofList first), before, .group 3 body, after,
    .group 4 (.ofList last)]
  keepless : p.node.keepless = true
  filled : .one a ∈ first
  closes : last.getLast? = some (.one b)
  shut : b.onlyOf (fun c => !isBlank c) = true
  distinct : p.node.indices.Nodup
  blank : before.isBlanks = true ∧ after.isBlanks = true

theorem isShort_element : ∃ first before body after last a b,
    IsShort shortElement first before body after last a b := by
  have hgroups : (words false shortWords).groups = 0 :=
    (shortWords_names looseDocument).groups_words false
  have hpieces : pieces.groups = 0 := rfl
  have hkeep : shortElementTree.keepless = true := by
    have hwords := (shortWords_names looseDocument).keepless_words false
    have hpieces : pieces.keepless = true := rfl
    simp [shortElementTree, Choice.keepless, Items.keepless, Atom.keepless, hwords, hpieces]
  have hnode : (shortElementTree.pattern looseDocument).node = .ofList
      [.group 1 (.ofList ((Items.text "<" <| .atom (.capture <| words false shortWords) <|
          .atom .edge <| .many (.plain pieces) <| .text ">" .fin).nodes looseDocument 1)),
        .rep (Atom.space.node looseDocument 2) 0 none false,
        .group 3 (.ofList ((Items.few (.set true (.lit '<') [.control false]) .fin).nodes
          looseDocument 3)),
        .rep (Atom.space.node looseDocument 3) 0 none true,
        .group 4 (.ofList ((Items.text "</" <| .atom (.capture <| .last <| .back 2) <|
          .text ">" .fin).nodes looseDocument 4))] := by
    simp [shortElementTree, Choice.pattern, Choice.node, Choice.nodes, Items.nodes, Atom.node,
      Node.choice, Paren.wrap, hgroups, hpieces, Mark.least, Mark.most]
  rw [shortElement_eq]
  refine ⟨_, _, _, _, _, (Sign.lit '<').set looseDocument.folding,
    (Sign.lit '>').set looseDocument.folding,
    hnode, ?_, List.mem_cons_self, rfl, by decide, Choice.nodup_indices _ _, by decide⟩
  have := Choice.keepless_nodes looseDocument hkeep 0
  rwa [← Node.keepless_choice] at this

theorem isShort_block : ∃ first before body after last a b,
    IsShort shortBlock first before body after last a b := by
  rw [shortBlock_eq]
  exact ⟨_, _, _, _, _, (Sign.lit '%').set looseLines.folding,
    (Sign.brace true).set looseLines.folding,
    rfl, by decide, by decide, by decide, by decide, Choice.nodup_indices _ _, by decide⟩

theorem stop_le_size {p : Pattern} {chars : Array Char} {m : Match} (hm : m ∈ p.findAll chars) :
    m.stop ≤ chars.size := by
  obtain ⟨origin, i, q, hi, hq, rfl⟩ := exists_reach_of_mem_findAll hm
  exact (bounds_of_reach hq).2.2 hi

theorem IsShort.flush {p : Pattern} {first last : List Node}
    {before body after : Node} {a b : CharSet} (hp : IsShort p first before body after last a b)
    {chars : Array Char} {m : Match}
    {image : List Char} (hm : m ∈ p.findAll chars) (himage : image = m.text chars ∨
      image = m.capture chars 1 ++ m.capture chars 3 ++ m.capture chars 4) :
      Flush chars m image := by
  obtain ⟨ws, htext, hlang, hheld⟩ := parts_held hp.node hp.keepless hp.distinct hm
  have h₁ : ws[0]? = some (m.capture chars 1) := hheld 0 1 _ rfl rfl
  have h₄ : ws[4]? = some (m.capture chars 4) := hheld 4 4 _ rfl rfl
  match ws, hlang with
  | [w₁, w₂, w₃, w₄, w₅], .cons hw₁ (.cons _ (.cons _ (.cons _ (.cons hw₅ .nil)))) =>
    have hne : w₁ ≠ [] := Node.Lang.ne_nil hw₁ hp.filled
    obtain ⟨c, hlast, hc⟩ := Node.Lang.getLast? hw₅ hp.closes
    have hblank : isBlank c = false := by simpa using CharSet.holds_onlyOf hp.shut hc
    have hfilled : m.start < m.stop := by
      refine Match.start_lt_stop chars ?_
      rw [htext]
      simp [hne]
    have hend : chars[m.stop - 1]? = some c := by
      rw [← Match.getLast?_text hfilled (stop_le_size hm), htext]
      simp [List.getLast?_append, hlast]
    have hcap₁ : m.capture chars 1 = w₁ := (Option.some.inj h₁).symm
    have hcap₄ : m.capture chars 4 = w₅ := (Option.some.inj h₄).symm
    obtain rfl | rfl := himage
    · exact .refl_of_last hfilled hend hblank
    · refine ⟨hfilled, ?_, .inl ⟨c, c, ?_, hblank, hend, hblank⟩⟩
      · rw [← Match.head?_text hfilled, htext, hcap₁]
        obtain ⟨d, w₁, rfl⟩ := List.exists_cons_of_ne_nil hne
        simp
      · rw [hcap₄, List.getLast?_append, hlast]
        rfl

theorem format_eq (h : text ≠ []) :
    tools.format text = (fun out => if endsWithReturn text then withReturns out else out) <$>
      tools.formatLines (naturalLines text) := by
  have hempty : text.isEmpty = false := by simpa using h
  simp only [Tools.format, hempty, Bool.false_eq_true, if_false, map_eq_pure_bind]

/-- The text that the indentation starts from. -/
def trimmedText (s : Settings) (text : List Char) : Outcome (List Char) :=
  [Stage.flatten, .separate, .trim].foldlM (fun now stage => stage.run s now) (naturalLines text)

theorem run_flatten : (Stage.flatten.edit tools text).run.run s = (.ok (flattenTags s text), s) :=
  run_get_bind _ s

theorem run_separate : (Stage.separate.edit tools text).run.run s = (breakLines s text, s) :=
  (run_get_bind _ s).trans (run_lift _ s)

theorem run_trim : (Stage.trim.edit tools text).run.run s = (trimLines s text, s) :=
  (run_get_bind _ s).trans (run_lift _ s)

theorem run_join : (Stage.join.edit tools text).run.run s = (joinShort s text, s) :=
  (run_get_bind _ s).trans (run_lift _ s)

theorem trimmedText_eq :
    trimmedText s text = breakLines s (flattenTags s (naturalLines text)) >>= trimLines s := by
  have hflatten : Stage.flatten.run s (naturalLines text) =
      .ok (flattenTags s (naturalLines text)) := by
    rw [Stage.run, run_flatten]
  have hseparate : ∀ now, Stage.separate.run s now = breakLines s now :=
    fun _ => by rw [Stage.run, run_separate]
  have htrim : ∀ now, Stage.trim.run s now = trimLines s now := fun _ => by rw [Stage.run, run_trim]
  simp only [trimmedText, List.foldlM_cons, List.foldlM_nil, hflatten, hseparate, htrim, bind_pure,
    Outcome.ok_bind]

/-- Where styles and scripts are left alone and the settings stay, the formatter runs the stages and
restores the line ends. -/
theorem run_format_eq (hne : text ≠ []) (hcss : s.formatCss.truthy = false)
    (hjs : s.formatJs.truthy = false)
    (hstill : ∀ trimmed, trimmedText s text = .ok trimmed →
      ((tools.indent trimmed).run.run s).2 = s) :
    (tools.format text).run.run s = (Except.map (fun out =>
      if endsWithReturn text then withReturns out else out)
      (trimmedText s text >>= fun trimmed => ((tools.indent trimmed).run.run s).1 >>= joinShort s),
          s) := by
  have hcode : ∀ out, (tools.layAskedStyles out >>= tools.layAskedScripts).run.run s =
      (.ok out, s) := by
    intro out
    have hstyles : (tools.layAskedStyles out).run.run s = (.ok out, s) := by
      rw [Tools.layAskedStyles, run_get_bind, hcss]
      rfl
    rw [run_bind hstyles, Tools.layAskedScripts, run_get_bind, hjs]
    rfl
  have hlines : (tools.formatLines (naturalLines text)).run.run s =
      (trimmedText s text >>= fun trimmed => ((tools.indent trimmed).run.run s).1 >>= joinShort s,
      s) := by
    rw [trimmedText_eq] at hstill ⊢
    simp only [Tools.formatLines, Stage.all, List.foldlM_cons, List.foldlM_nil, bind_assoc,
      pure_bind]
    rw [run_bind run_flatten]
    refine run_bind_still run_separate fun broken hbroken =>
      run_bind_still run_trim fun trimmed htrimmed => ?_
    have hsame := hstill trimmed (by rw [hbroken, Outcome.ok_bind, htrimmed])
    refine run_bind_still (Prod.ext rfl hsame) fun indented _ => ?_
    have hjoin := run_bind_still (@run_join tools s indented) fun out _ => hcode out
    rwa [show joinShort s indented >>= Except.ok = joinShort s indented from bind_pure _] at hjoin
  rw [format_eq hne, ExceptT.run_map, StateT.run_map, hlines]
  rfl

/-- Each line feed with a carriage return before it. -/
def crlf (text : List Char) : List Char :=
  text.flatMap fun c => if c = '\n' then ['\r', '\n'] else [c]

@[simp] theorem crlf_nil : crlf [] = [] := rfl

@[simp] theorem crlf_cons (c : Char) (text : List Char) :
    crlf (c :: text) = (if c = '\n' then ['\r', '\n'] else [c]) ++ crlf text := rfl

@[simp] theorem crlf_append (a b : List Char) : crlf (a ++ b) = crlf a ++ crlf b := by
  simp [crlf]

theorem withReturns_eq_crlf (h : '\r' ∉ text) : withReturns text = crlf text := by
  have hall : text.filter (· != '\r') = text := by
    rw [List.filter_eq_self]
    intro c hc
    simpa using ne_of_mem_of_not_mem hc h
  rw [withReturns, hall, crlf]

theorem splitLinesFrom_crlf : ∀ {text : List Char} (line : List Char), '\r' ∉ text →
    splitLinesFrom line (crlf text) = splitLinesFrom line text
  | [], line, _ => rfl
  | c :: text, line, h => by
      obtain ⟨hc, hfree⟩ : '\r' ≠ c ∧ '\r' ∉ text := by simpa using h
      by_cases hn : c = '\n'
      · subst hn
        simpa [splitLinesFrom, isLineEnd] using splitLinesFrom_crlf [] hfree
      · have hstep : ∀ rest, splitLinesFrom line (c :: rest) =
            if isLineEnd c then line.reverse :: splitLinesFrom [] rest
            else splitLinesFrom (c :: line) rest := by
          intro rest
          rw [splitLinesFrom]
          rintro rest' rfl
          exact absurd rfl hc
        rw [crlf_cons, if_neg hn, List.singleton_append, hstep, hstep, splitLinesFrom_crlf [] hfree,
          splitLinesFrom_crlf (c :: line) hfree]

/-- The first line feed of a text stands after a carriage return. -/
def ReturnFirst (text : List Char) : Prop :=
  ∃ line rest, text = line ++ '\r' :: '\n' :: rest ∧ '\n' ∉ line

theorem endsWithReturn_iff : endsWithReturn text = true ↔ ReturnFirst text := by
  have hspan : text.span (· != '\n') = (text.takeWhile (· != '\n'), text.dropWhile (· != '\n')) :=
    List.span_eq_takeWhile_dropWhile _ _
  unfold endsWithReturn
  rw [hspan]
  constructor
  · intro h
    split at h
    next line c rest heq =>
      obtain ⟨hline, hrest⟩ := Prod.mk.inj heq
      have hc : c = '\n' := by
        have := List.head?_dropWhile_not (· != '\n') text
        rw [hrest] at this
        simpa using this
      obtain ⟨front, hfront⟩ := List.getLast?_eq_some_iff.1 (by simpa using h)
      refine ⟨front, rest, ?_, fun hmem => ?_⟩
      · rw [← List.takeWhile_append_dropWhile (p := (· != '\n')) (l := text), hline, hrest,
          hfront, hc]
        simp
      · have hall := List.mem_takeWhile_imp (l := text) (p := (· != '\n')) (x := '\n')
          (by rw [hline, hfront]; simp [hmem])
        simp at hall
    next => cases h
  · rintro ⟨line, rest, rfl, hline⟩
    have hall : ∀ c ∈ line ++ ['\r'], (c != '\n') = true := by
      intro c hc
      obtain hc | hc := List.mem_append.1 hc
      · simpa using ne_of_mem_of_not_mem hc hline
      · rw [List.mem_singleton.1 hc]
        decide
    have hsplit : line ++ '\r' :: '\n' :: rest = (line ++ ['\r']) ++ '\n' :: rest := by simp
    rw [hsplit, List.takeWhile_append_of_pos hall, List.dropWhile_append_of_pos hall]
    simp

theorem crlf_eq_self (h : '\n' ∉ text) : crlf text = text := by
  induction text with
  | nil => rfl
  | cons c text ih =>
    obtain ⟨hc, h⟩ : '\n' ≠ c ∧ '\n' ∉ text := by simpa using h
    rw [crlf_cons, if_neg hc.symm, ih h]
    rfl

theorem returnFirst_crlf (h : '\n' ∈ text) : ReturnFirst (crlf text) := by
  obtain ⟨line, rest, rfl, hline⟩ := List.eq_append_cons_of_mem h
  exact ⟨line, crlf rest, by simp [crlf_eq_self hline], hline⟩

theorem not_returnFirst (h : '\r' ∉ text) : ¬ReturnFirst text := by
  rintro ⟨line, rest, rfl, -⟩
  simp at h

end TemplateTidy.Layout
