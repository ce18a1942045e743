import TemplateTidy.Layout.Indent
import TemplateTidy.Layout.Break
import TemplateTidy.Proofs.Region.Sources

/-! # The patterns of the formatter as trees

The patterns that take in names from the settings are the patterns of trees in which the names
stand.  `Adds` says which names the settings add.  Where all of them are plain, each pattern can be
read, and the theorems below name the tree that it is the pattern of. -/

namespace TemplateTidy.Layout

open Text Pattern

/-! ### Names -/

/-- A character that stands for itself in every pattern. -/
def isPlain (c : Char) : Bool :=
  !isSpecial c && !isBlank c && c != '#'

/-- The settings add these names of elements and template blocks, and keep these blocks out. -/
structure Adds (s : Settings) (html blocks kept : List (List Char)) : Prop where
  html_eq : s.customHtml.toList = html.flatMap ('|' :: ·)
  blocks_eq : s.customBlocks.toList = blocks.flatMap fun n => '|' :: (n ++ ['\\', 'b'])
  kept_eq : s.ignoreBlocks.map String.toList =
    if kept = [] then none else some (['|'].intercalate (kept.map (· ++ ['\\', 'b'])))
  plain : ∀ n ∈ html ++ blocks ++ kept, n ≠ [] ∧ ∀ c ∈ n, isPlain c = true

/-- The atoms of a name of the library; one of them holds a digit. -/
def nameAtoms : List Char → List Atom
  | '\\' :: 'd' :: rest => .sign (.digit true) :: nameAtoms rest
  | c :: rest => .lit c :: nameAtoms rest
  | [] => []

/-- A name before a word edge. -/
def edged (n : List Char) : List Atom :=
  lits n ++ [.edge]

def tagWords (html : List (List Char)) : List (List Atom) :=
  Markup.tagNames.map (nameAtoms ·.toList) ++ html.map lits

def voidWords : List (List Atom) :=
  Markup.voidElements.map (nameAtoms ·.toList)

def breakWords (html : List (List Char)) : List (List Atom) :=
  (breakNames ++ Markup.voidElements).map (nameAtoms ·.toList) ++ html.map lits

def shortWords : List (List Atom) :=
  shortNames.map (nameAtoms ·.toList)

theorem flatMap_lits (n : List Char) : (lits n).flatMap Atom.print = n := by
  simp [lits, List.flatMap_map]

theorem flatMap_edged (n : List Char) : (edged n).flatMap Atom.print = n ++ ['\\', 'b'] := by
  simp [edged, flatMap_lits]

theorem flatMap_nameAtoms (n : List Char) : (nameAtoms n).flatMap Atom.print = n := by
  fun_induction nameAtoms n with
  | case1 rest ih => simp [ih]
  | case2 c rest _ ih => simp [ih]
  | case3 => rfl

theorem simple_lits {flags : Flags} {n : List Char} (h : ∀ c ∈ n, isPlain c = true) :
    ∀ a ∈ lits n, a.Simple flags := by
  intro a ha
  obtain ⟨c, hc, rfl⟩ := List.mem_map.1 ha
  refine Atom.simple_sign ?_
  have hplain := h c hc
  simp only [isPlain, Bool.and_eq_true] at hplain
  rw [Sign.ok, hplain.1.1, hplain.1.2, hplain.2]
  simp

theorem simple_edged {flags : Flags} {n : List Char} (h : ∀ c ∈ n, isPlain c = true) :
    ∀ a ∈ edged n, a.Simple flags := by
  intro a ha
  obtain ha | ha := List.mem_append.1 ha
  · exact simple_lits h a ha
  · rw [List.mem_singleton.1 ha]
    exact Atom.simple_edge flags

theorem isPlain_of_isAlphanum {c : Char} (h : c.isAlphanum = true) : isPlain c = true := by
  have hne : ∀ d : Char, d.isAlphanum = false → c ≠ d := by
    rintro d hd rfl
    simp [h] at hd
  have hblank : isBlank c = false := by
    have hrange := h
    simp only [Char.isAlphanum, Char.isAlpha, Char.isUpper, Char.isLower, Char.isDigit, ge_iff_le,
      Bool.or_eq_true, Bool.and_eq_true, decide_eq_true_eq, UInt32.le_iff_toNat_le] at hrange
    simp only [isBlank, isSpace, Char.toNat, Bool.or_eq_false_iff, Bool.and_eq_false_iff,
      decide_eq_false_iff_not, beq_eq_false_iff_ne]
    rw [show 'A'.val.toNat = 65 from rfl, show 'Z'.val.toNat = 90 from rfl,
      show 'a'.val.toNat = 97 from rfl, show 'z'.val.toNat = 122 from rfl,
      show '0'.val.toNat = 48 from rfl, show '9'.val.toNat = 57 from rfl] at hrange
    omega
  rw [isPlain, hblank, isSpecial, bne_iff_ne.2 (hne '#' (by decide))]
  simp [hne]

/-- The atoms of the library's own names. -/
def isNameAtom : Atom → Bool
  | .sign (.lit c) => c.isAlphanum
  | .sign (.digit _) => true
  | _ => false

theorem simple_of_isNameAtom {flags : Flags} {a : Atom} (h : isNameAtom a = true) :
    a.Simple flags := by
  unfold isNameAtom at h
  split at h
  · exact simple_lits (n := [_]) (by simpa using isPlain_of_isAlphanum h) _ (by simp [lits])
  · exact Atom.simple_sign rfl
  · simp at h

/-- The library's own names are made of such atoms, and those of elements of small letters and
digits. -/
theorem knownNames_check :
    ((Markup.tagNames ++ Markup.voidElements ++ breakNames ++ shortNames).all fun n =>
      (nameAtoms n.toList).all isNameAtom) = true ∧
    (Markup.tagNames.all fun n => n.toList.all fun c => c.isLower || c.isDigit) = true := by
  decide +kernel

theorem simple_nameAtoms {names : List String}
    (h : names ⊆ Markup.tagNames ++ Markup.voidElements ++ breakNames ++ shortNames)
    (flags : Flags) : ∀ w ∈ names.map (nameAtoms ·.toList), ∀ a ∈ w, a.Simple flags := by
  intro w hw a ha
  obtain ⟨n, hn, rfl⟩ := List.mem_map.1 hw
  exact simple_of_isNameAtom (List.all_eq_true.1
    (List.all_eq_true.1 knownNames_check.1 n (h hn)) a ha)

variable {s : Settings} {html blocks kept : List (List Char)}

theorem Adds.simple_html (h : Adds s html blocks kept) (flags : Flags) :
    ∀ w ∈ html.map lits, ∀ a ∈ w, a.Simple flags := by
  intro w hw
  obtain ⟨n, hn, rfl⟩ := List.mem_map.1 hw
  exact simple_lits (h.plain n (by simp [hn])).2

theorem tagWords_names (h : Adds s html blocks kept) (flags : Flags) :
    Names flags (tagWords html) :=
  Names.append ⟨simple_nameAtoms (by grind) flags, _, _, _, rfl⟩ (h.simple_html flags)

theorem voidWords_names (flags : Flags) : Names flags voidWords :=
  ⟨simple_nameAtoms (by grind) flags, _, _, _, rfl⟩

theorem breakWords_names (h : Adds s html blocks kept) (flags : Flags) :
    Names flags (breakWords html) :=
  Names.append ⟨simple_nameAtoms (by grind) flags, _, _, _, rfl⟩ (h.simple_html flags)

theorem shortWords_names (flags : Flags) : Names flags shortWords :=
  ⟨simple_nameAtoms (by grind) flags, _, _, _, rfl⟩

/-! ### Printed names -/

theorem intercalate_append {sep : List Char} : ∀ {xs ys : List (List Char)}, xs ≠ [] →
    sep.intercalate (xs ++ ys) = sep.intercalate xs ++ ys.flatMap (sep ++ ·)
  | [], _, h => absurd rfl h
  | [x], [], _ => by simp [List.intercalate]
  | [x], y :: ys, _ => by
      rw [show [x] ++ y :: ys = x :: y :: ys from rfl, List.intercalate_cons_cons,
        show y :: ys = [y] ++ ys from rfl, intercalate_append (by simp)]
      simp [List.intercalate]
  | x :: x' :: xs, ys, _ => by
      rw [List.cons_append, List.cons_append, List.intercalate_cons_cons, ← List.cons_append,
        intercalate_append (by simp), List.intercalate_cons_cons]
      simp

theorem print_words_added (blank : Bool) {names : List String} (html : List (List Char))
    (hne : names ≠ []) :
    (words blank (names.map (nameAtoms ·.toList) ++ html.map lits)).print =
      (anyOf names).toList ++ html.flatMap ('|' :: ·) ++ if blank then ['\n'] else [] := by
  rw [print_words, List.map_append, List.map_map, List.map_map,
    intercalate_append (by simpa using hne), anyOf, String.toList_intercalate, List.flatMap_map]
  simp only [Function.comp_def, flatMap_nameAtoms, flatMap_lits]
  rfl

theorem toList_elements (h : Adds s html blocks kept) :
    (elements s).toList = (words false (tagWords html)).print := by
  rw [tagWords, print_words_added _ _ (by simp [Markup.tagNames]), elements, String.toList_append,
    h.html_eq]
  simp

theorem toList_breakElements (h : Adds s html blocks kept) :
    (breakElements s).toList = (words true (breakWords html)).print := by
  rw [breakWords, print_words_added _ _ (by simp [breakNames]), breakElements, String.toList_append,
    String.toList_append, h.html_eq]
  simp

theorem toList_voidSource : Markup.voidSource.toList = (words false voidWords).print := by
  have := print_words_added false [] (show Markup.voidElements ≠ [] by simp [Markup.voidElements])
  simpa [voidWords, Markup.voidSource, anyOf] using this.symm

theorem toList_shortElements : shortElements.toList = (words false shortWords).print := by
  have := print_words_added false [] (show shortNames ≠ [] by simp [shortNames])
  simpa [shortWords, shortElements, anyOf] using this.symm

/-! ### Template blocks -/

/-- A name that does not go on with one of the endings. -/
def unended (name : String) (endings : List String) : List Atom :=
  lits name.toList ++ [.notAhead <| .any <| endings.map (.text · .fin)]

/-- An assignment tag without a value. -/
def openSetWord : List Atom :=
  lits "set".toList ++
    [.notAhead <| .last <| .many (.without <| .last <| .text "%\x7d" .fin) <| .text "=" .fin]

def indentBlockWords : List (List Atom) :=
  [lits "if".toList, lits "for".toList, unended "block" ["trans", "translate"]] ++
    ["spaceless", "compress", "addto", "language", "with", "assets", "verbatim", "autoescape",
      "filter", "each", "macro", "call", "raw"].map (lits ·.toList) ++
    [unended "blocktrans" ["late"], lits "blocktranslate".toList, openSetWord]

def breakBlockWords : List (List Atom) :=
  ["if", "endif", "for", "endfor"].map (lits ·.toList) ++
    [unended "block" ["trans"], unended "endblock" ["trans"]] ++
    ["else", "plural", "spaceless", "endspaceless", "compress", "endcompress", "load", "include",
      "assets", "endassets", "addto", "language", "with", "endwith", "autoescape", "endautoescape",
      "filter", "endfilter", "elif", "resetcycle", "verbatim", "endverbatim", "each", "macro",
      "endmacro", "raw", "endraw", "call", "endcall", "image"].map (lits ·.toList) ++
    [unended "blocktrans" ["late"], unended "endblocktrans" ["late"], lits "blocktranslate".toList,
      lits "endblocktranslate".toList, openSetWord]

/-- The condition that keeps blocks out. -/
def exclusionItems (kept : List (List Char)) (rest : Items) : Items :=
  if kept = [] then rest else .atom (.notAhead <| words false (kept.map edged)) rest

theorem print_exclusionItems (h : Adds s html blocks kept) (rest : Items) :
    (exclusionItems kept rest).print = (exclusion s).toList ++ rest.print := by
  have hkept := h.kept_eq
  unfold exclusionItems exclusion
  by_cases he : kept = []
  · rw [if_pos he] at hkept
    rw [if_pos he, Option.map_eq_none_iff.1 hkept]
    rfl
  · rw [if_neg he, Option.map_eq_some_iff] at hkept
    obtain ⟨names, hnames, hlist⟩ := hkept
    rw [if_neg he, hnames]
    simp [print_words, Function.comp_def, flatMap_edged, hlist]

theorem print_indentBlockWords : (indentBlockNames ++ [openSet]).map String.toList =
    indentBlockWords.map (·.flatMap Atom.print) := by
  simp [indentBlockNames, openSet, indentBlockWords, unended, openSetWord, lits, Choice.any]

theorem print_breakBlockWords : (breakBlockNames ++ [openSet]).map String.toList =
    breakBlockWords.map (·.flatMap Atom.print) := by
  simp [breakBlockNames, openSet, breakBlockWords, unended, openSetWord, lits, Choice.any]

/-! ### Breaks -/

/-- A piece of a tag that is not its end. -/
def pieces : Choice :=
  .any
    [.atom (.escaped '"') <| .many (.set true (.escaped '"') []) <| .atom (.escaped '"') .fin,
      .text "'" <| .many (.set true (.lit '\'') []) <| .text "'" .fin,
      .text "\x7b" <| .many (.set true (.brace true) []) <| .text "\x7d" .fin,
      .atom (.set true (.lit '\'') [.escaped '"', .lit '>', .brace false, .brace true]) .fin]

/-- A line feed. -/
abbrev lineFeed : Atom := .sign (.control false)

def notAtLineStartAtom : Atom :=
  .paren (.look true false) <| .last <| .atom lineFeed <| .few .blank .fin

/-- The tag of an element that stands on a line of its own. -/
def breakTag (html : List (List Char)) : Atom :=
  .capture <| .last <| .text "<" <| .maybe (.lit '/') <|
      .atom (.plain <| words true (breakWords html)) <|
  .atom .edge <| .many (.capture pieces) <| .text ">" .fin

def breakBefore (html : List (List Char)) : Choice :=
  .last <| .atom notAtLineStartAtom <| .atom .keep <| .atom (breakTag html) .fin

def breakAfter (html : List (List Char)) : Choice :=
  .last <| .atom (breakTag html) <|
  .atom (.notAhead <| .last <| .few .space <| .atom lineFeed .fin) <|
  .atom (.ahead <| .last <| .atom (.set true (.control false) []) .fin) .fin

theorem compile_of_print {flags : Flags} {source : List Char} {e : Choice} (hs : source = e.print)
    (h : e.ok flags = true) : compile flags source = .ok (e.pattern flags) := by
  rw [compile, hs, read_print h]

theorem compileSource_of_print {flags : Flags} {source : String} {e : Choice}
    (hs : source.toList = e.print) (h : e.ok flags = true) :
    compileSource flags source = .ok (e.pattern flags) :=
  compile_of_print hs h

theorem print_pieces : pieces.print = tagPiece.toList := by
  simp [pieces, tagPiece, Choice.any]

theorem print_notAtLineStartAtom : notAtLineStartAtom.print = notAtLineStart.toList := by
  simp [notAtLineStartAtom, notAtLineStart]

theorem print_breakTag (h : Adds s html blocks kept) :
    (breakTag html).print = (elementBreak s).toList := by
  simp [breakTag, elementBreak, toList_breakElements h, print_pieces]

theorem compile_breakBefore (h : Adds s html blocks kept) :
    compileSource loose (notAtLineStart ++ r"\K" ++ elementBreak s) =
      .ok ((breakBefore html).pattern loose) := by
  refine compileSource_of_print ?_ ?_
  · simp [breakBefore, print_notAtLineStartAtom, print_breakTag h]
  · have hn := breakWords_names h loose
    simp [Choice.ok, breakBefore, breakTag, hn.print_head, hn.okIn_words (fun _ => rfl),
      hn.groups_words, hn.backs_words]
    decide

theorem compile_breakAfter (h : Adds s html blocks kept) :
    compileSource loose (elementBreak s ++ r"(?!\s*?\n)(?=[^\n])") =
      .ok ((breakAfter html).pattern loose) := by
  refine compileSource_of_print ?_ ?_
  · simp [breakAfter, print_breakTag h]
  · have hn := breakWords_names h loose
    simp [Choice.ok, breakAfter, breakTag, hn.print_head, hn.okIn_words (fun _ => rfl),
      hn.groups_words, hn.backs_words]
    decide

/-- The names of a block in a tag, but for those that are kept out. -/
def blockNames (ws : List (List Atom)) (blocks kept : List (List Char)) : Choice :=
  .last <| exclusionItems kept <| .atom (.plain <| words false (ws ++ blocks.map edged))
    (.done true)

/-- A template tag that stands on a line of its own. -/
def blockTag (blocks kept : List (List Char)) : Atom :=
  .capture <| .last <| .atom (.plain <| .any [.text "\x7b%" .fin, .text "\x7b\x7b#" .fin]) <|
  .few .blank <| .atom (.plain <| blockNames breakBlockWords blocks kept) <|
  .rep (.set true (.brace true) []) .some true <|
  .atom (.set false (.lit '%') [.brace true]) <| .text "\x7d" .fin

def blockBefore (blocks kept : List (List Char)) : Choice :=
  .last <| .atom notAtLineStartAtom <| .atom .keep <| .atom (blockTag blocks kept) .fin

def blockAfter (blocks kept : List (List Char)) : Choice :=
  .last <| .atom (blockTag blocks kept) <|
  .atom (.ahead <| .last <| .atom (.set true (.control false) []) .fin) .fin

/-- A check for lists of words. -/
def areSimple (flags : Flags) (ws : List (List Atom)) : Bool :=
  ws.all fun w => w.all fun a => a.groups == 0 && a.backs.isEmpty && a.keepless && a.okIn flags [] 0

theorem simple_of_areSimple {flags : Flags} {ws : List (List Atom)}
    (h : areSimple flags ws = true) : ∀ w ∈ ws, ∀ a ∈ w, a.Simple flags :=
  fun w hw a ha => Atom.simple_of_check (List.all_eq_true.1 (List.all_eq_true.1 h w hw) a ha)

theorem Adds.simple_blocks (h : Adds s html blocks kept) (flags : Flags) :
    ∀ w ∈ blocks.map edged, ∀ a ∈ w, a.Simple flags := by
  intro w hw
  obtain ⟨n, hn, rfl⟩ := List.mem_map.1 hw
  exact simple_edged (h.plain n (by simp [hn])).2

theorem Adds.names_kept (h : Adds s html blocks kept) (hne : kept ≠ []) (flags : Flags) :
    Names flags (kept.map edged) := by
  constructor
  · intro w hw
    obtain ⟨n, hn, rfl⟩ := List.mem_map.1 hw
    exact simple_edged (h.plain n (by simp [hn])).2
  · obtain ⟨n, rest, rfl⟩ := List.exists_cons_of_ne_nil hne
    obtain ⟨c, t, rfl⟩ := List.exists_cons_of_ne_nil (h.plain n (by simp)).1
    exact ⟨.lit c, lits t ++ [.edge], rest.map edged, rfl⟩

theorem blockWords_areSimple :
    areSimple looseLines breakBlockWords = true ∧ areSimple looseLines indentBlockWords = true := by
  decide +kernel

theorem breakBlockWords_names (h : Adds s html blocks kept) :
    Names looseLines (breakBlockWords ++ blocks.map edged) :=
  Names.append ⟨simple_of_areSimple blockWords_areSimple.1, _, _, _, rfl⟩
    (h.simple_blocks looseLines)

theorem indentBlockWords_names (h : Adds s html blocks kept) :
    Names looseLines (indentBlockWords ++ blocks.map edged) :=
  Names.append ⟨simple_of_areSimple blockWords_areSimple.2, _, _, _, rfl⟩
    (h.simple_blocks looseLines)

section exclusion

variable (h : Adds s html blocks kept) (rest : Items)
include h

theorem groups_exclusionItems : (exclusionItems kept rest).groups = rest.groups := by
  unfold exclusionItems
  split
  · rfl
  · rename_i hne
    simp [(h.names_kept hne looseLines).groups_words]

theorem backs_exclusionItems : (exclusionItems kept rest).backs = rest.backs := by
  unfold exclusionItems
  split
  · rfl
  · rename_i hne
    simp [(h.names_kept hne looseLines).backs_words]

theorem okIn_exclusionItems (flags : Flags) (opened : List Nat) (k : Nat) :
    (exclusionItems kept rest).okIn flags opened k = rest.okIn flags opened k := by
  unfold exclusionItems
  split
  · rfl
  · rename_i hne
    have hn := h.names_kept hne flags
    simp [hn.print_head, hn.okIn_words (fun e : false = true => by simp at e), hn.groups_words]

end exclusion

/-- A list of words for the names of blocks, with those that the settings add. -/
structure BlockWords (ws : List (List Atom)) (sources : List String) (blocks : List (List Char)) :
    Prop where
  names : Names looseLines (ws ++ blocks.map edged)
  print : sources.map String.toList = ws.map (·.flatMap Atom.print)
  ne_nil : ws ≠ []

namespace BlockWords

variable {ws : List (List Atom)} {sources : List String} (hw : BlockWords ws sources blocks)
  (h : Adds s html blocks kept)
include hw h

theorem print_blockNames : (blockNames ws blocks kept).print =
    (exclusion s ++ "(?:" ++ anyOf sources ++ s.customBlocks ++ ")").toList ++ ['\n'] := by
  have hblocks : (words false (ws ++ blocks.map edged)).print =
      (anyOf sources).toList ++ s.customBlocks.toList := by
    rw [print_words, List.map_append, List.map_map, intercalate_append (by simpa using hw.ne_nil),
      anyOf, String.toList_intercalate, hw.print, h.blocks_eq, List.flatMap_map]
    simp only [Function.comp_def, flatMap_edged]
    simp
  simp [blockNames, print_exclusionItems h, hblocks]

omit hw h in
theorem print_head (ws : List (List Atom)) (blocks kept : List (List Char)) :
    (blockNames ws blocks kept).print.head?.any (· != '?') = true := by
  unfold blockNames exclusionItems
  split <;> simp

theorem okIn_blockNames (opened : List Nat) (k : Nat) :
    (blockNames ws blocks kept).okIn looseLines opened k = true := by
  simp [blockNames, okIn_exclusionItems h, hw.names.print_head,
    hw.names.okIn_words (fun e : false = true => by simp at e), show looseLines.verbose =
    true from rfl]

theorem groups_blockNames : (blockNames ws blocks kept).groups = 0 := by
  simp [blockNames, groups_exclusionItems h, hw.names.groups_words]

theorem backs_blockNames : (blockNames ws blocks kept).backs = [] := by
  simp [blockNames, backs_exclusionItems h, hw.names.backs_words]

end BlockWords

variable (h : Adds s html blocks kept)
include h

theorem breakBlockWords_ok : BlockWords breakBlockWords (breakBlockNames ++ [openSet]) blocks :=
  ⟨breakBlockWords_names h, print_breakBlockWords, by simp [breakBlockWords]⟩

theorem indentBlockWords_ok : BlockWords indentBlockWords (indentBlockNames ++ [openSet]) blocks :=
  ⟨indentBlockWords_names h, print_indentBlockWords, by simp [indentBlockWords]⟩

theorem toList_breakBlocks :
    (breakBlocks s).toList = (blockNames breakBlockWords blocks kept).print := by
  rw [(breakBlockWords_ok h).print_blockNames h]
  unfold breakBlocks
  simp only [String.toList_append, List.append_assoc]
  simp

theorem print_blockTag : (blockTag blocks kept).print = (blockBreak s).toList := by
  have hprint : (blockTag blocks kept).print = r"((?:\x7b%|\x7b\x7b\#)[ ]*?(?:".toList ++
      ((blockNames breakBlockWords blocks kept).print ++ r")[^\x7d]+?[%\x7d]\x7d)".toList) := by
    simp [blockTag, Choice.any]
  rw [hprint, ← toList_breakBlocks h, ← String.toList_append, ← String.toList_append,
    ← String.append_assoc]
  rfl

theorem compile_blockBefore :
    compileSource looseLines (notAtLineStart ++ r"\K" ++ blockBreak s) =
      .ok ((blockBefore blocks kept).pattern looseLines) := by
  refine compileSource_of_print ?_ ?_
  · simp [blockBefore, print_notAtLineStartAtom, print_blockTag h]
  · have hw := breakBlockWords_ok h
    simp [Choice.ok, blockBefore, blockTag, BlockWords.print_head, hw.okIn_blockNames h,
      hw.groups_blockNames h, hw.backs_blockNames h]
    decide

theorem compile_blockAfter :
    compileSource looseLines (blockBreak s ++ r"(?=[^\n])") =
      .ok ((blockAfter blocks kept).pattern looseLines) := by
  refine compileSource_of_print ?_ ?_
  · simp [blockAfter, print_blockTag h]
  · have hw := breakBlockWords_ok h
    simp [Choice.ok, blockAfter, blockTag, BlockWords.print_head, hw.okIn_blockNames h,
      hw.groups_blockNames h, hw.backs_blockNames h]
    decide

end TemplateTidy.Layout
