import TemplateTidy.Proofs.Layout.GivenNames
import TemplateTidy.Proofs.Layout.Inversion
import TemplateTidy.Proofs.Layout.Standard
import TemplateTidy.Proofs.Pattern.Cover
import TemplateTidy.Proofs.Text.Feeds

/-! # Breaking lines inserts line feeds

Each of the four passes of `breakLines` replaces a match by its group, with a line feed beside it or
without.  The group is the whole match, whichever way the pattern matched, so a pass puts line feeds
in and does nothing else (`breakLines_inserts`).  They stand beside the brackets of a tag, so what
holds no bracket and no brace is never broken (`breakLines_keeps_tag`).  The passes over template
tags read the text of a tag as part of a further pattern: quoted, every text can be read
(`unfinishedTag_eq`). -/

namespace TemplateTidy.Layout

open Text Pattern

variable {s : Settings} {html blocks kept : List (List Char)} {text : List Char}
  {chars : Array Char} {m : Match}

/-! ### Groups that are the match -/

theorem keepless_breakTag (h : Adds s html blocks kept) : (breakTag html).keepless = true := by
  have hpieces : pieces.keepless = true := rfl
  simp [breakTag, Atom.keepless, Choice.keepless, Items.keepless,
    (breakWords_names h loose).keepless_words, hpieces]

/-- After a mark that moves the beginning of a match, the group is the match. -/
theorem capture_after_keep {flags : Flags} {a : Atom} {c : Choice} (ha : a.groups = 0)
    (hc : c.keepless = true) {chars : Array Char} {m : Match}
    (hm : m ∈ ((Choice.last <| .atom a <| .atom .keep <| .atom (.capture c) .fin).pattern
      flags).findAll chars) :
    m.capture chars 1 = m.text chars ∧ ((Atom.capture c).node flags 0).Lang (m.text chars) := by
  obtain ⟨origin, i, q, -, hq, rfl⟩ := exists_reach_of_mem_findAll hm
  obtain ⟨p₁, -, p₂, rfl, hgroup⟩ := hq
  have hindex : 0 + a.groups + Atom.keep.groups = 0 := by rw [ha]; rfl
  rw [hindex] at hgroup
  have hstart : q.start = p₁.pos := hgroup.start_eq
    (Atom.keepless_node (a := .capture c) flags hc _)
  have htext : (Match.ofPoint q).text chars = between chars p₁.pos q.pos := by
    rw [← hstart]
    rfl
  rw [htext]
  refine ⟨?_, hgroup.lang⟩
  obtain ⟨r, -, rfl⟩ := hgroup
  rfl

/-- Before conditions, the group is the match. -/
theorem capture_before_looks {flags : Flags} {c : Choice} {looks : Items} (hc : c.keepless = true)
    (hk : looks.keepless = true) (hlooks : ∀ k, ∀ n ∈ looks.nodes flags k, ∀ w, n.Lang w → w = [])
    (hm : m ∈ ((Choice.last <| .atom (.capture c) looks).pattern flags).findAll chars) :
    m.capture chars 1 = m.text chars ∧ ((Atom.capture c).node flags 0).Lang (m.text chars) := by
  have hkeep := Choice.keepless_nodes flags (e := .last <| .atom (.capture c) looks)
    (Bool.and_eq_true_iff.2 ⟨hc, hk⟩) 0
  rw [← Node.keepless_choice] at hkeep
  obtain ⟨ws, htext, hlang, hheld⟩ := parts_held rfl hkeep (Choice.nodup_indices flags _) hm
  have hfirst := hheld 0 1 _ rfl rfl
  obtain ⟨w, ws, hw, hrest, rfl⟩ := List.forall₂_cons_left_iff.1 hlang
  obtain rfl : w = m.capture chars 1 := Option.some.inj hfirst
  have hnil : ∀ v ∈ ws, v = [] := by
    intro v hv
    obtain ⟨k, hk, rfl⟩ := List.getElem_of_mem hv
    have hlt := hrest.length_eq ▸ hk
    exact hlooks _ _ (List.getElem_mem hlt) _ (hrest.get hlt hk)
  rw [htext, List.flatten_cons, List.flatten_eq_nil_iff.2 hnil, List.append_nil]
  exact ⟨rfl, hw⟩

/-- Each match is its first group, and goes from an opening sign to a closing one. -/
def Encloses (o c : Char) (P : Pattern) : Prop :=
  ∀ (chars : Array Char), ∀ m ∈ P.findAll chars,
    m.capture chars 1 = m.text chars ∧ (∃ w, m.text chars = o :: w) ∧ ∃ w, m.text chars = w ++ [c]

theorem ends_breakTag {w : List Char} (h : ((breakTag html).node loose 0).Lang w) :
    (∃ v, w = '<' :: v) ∧ ∃ v, w = v ++ ['>'] := by
  obtain ⟨_, _, rfl, ⟨c, rfl, hc⟩, _, _, rfl, -, _, _, rfl, -, _, _, rfl, -, _, _, rfl, -, d, rfl,
    hd⟩ := h
  obtain rfl : c = '<' := CharSet.eq_of_holds (by decide) hc
  obtain rfl : d = '>' := CharSet.eq_of_holds (by decide) hd
  refine ⟨⟨_, rfl⟩, ?_⟩
  simp only [← List.append_assoc]
  exact ⟨_, rfl⟩

theorem encloses_breakBefore (h : Adds s html blocks kept) :
    Encloses '<' '>' ((breakBefore html).pattern loose) := by
  intro chars m hm
  obtain ⟨hcapture, hlang⟩ := capture_after_keep rfl (keepless_breakTag h) hm
  exact ⟨hcapture, ends_breakTag hlang⟩

theorem encloses_breakAfter (h : Adds s html blocks kept) :
    Encloses '<' '>' ((breakAfter html).pattern loose) := by
  intro chars m hm
  obtain ⟨hcapture, hlang⟩ := capture_before_looks (keepless_breakTag h) rfl (fun k n hn w hw => by
    obtain rfl | rfl : n = _ ∨ n = _ := by simpa [Items.nodes] using hn
    · exact hw
    · exact hw) hm
  exact ⟨hcapture, ends_breakTag hlang⟩

theorem keepless_blockNames (h : Adds s html blocks kept) :
    (blockNames breakBlockWords blocks kept).keepless = true := by
  have hwords := (breakBlockWords_names h).keepless_words false
  unfold blockNames exclusionItems
  split
  · simp [Choice.keepless, Items.keepless, Atom.keepless, hwords]
  next hne =>
    simp [Choice.keepless, Items.keepless, Atom.keepless, hwords,
      (h.names_kept hne looseLines).keepless_words]

theorem keepless_blockTag (h : Adds s html blocks kept) :
    (blockTag blocks kept).keepless = true := by
  have hopen : (Choice.any [.text "\x7b%" .fin, .text "\x7b\x7b#" .fin]).keepless = true := rfl
  simp [blockTag, Choice.keepless, Items.keepless, Atom.keepless, keepless_blockNames h, hopen]

theorem ends_blockTag {w : List Char} (h : ((blockTag blocks kept).node looseLines 0).Lang w) :
    (∃ v, w = '\x7b' :: v) ∧ ∃ v, w = v ++ ['\x7d'] := by
  obtain ⟨u, _, rfl, hu, _, _, rfl, -, _, _, rfl, -, _, _, rfl, -, _, _, rfl, -, d, rfl, hd⟩ := h
  have hu : ∃ v, u = '\x7b' :: v := by
    obtain ⟨_, _, rfl, ⟨c, rfl, hc⟩, -⟩ | ⟨_, _, rfl, ⟨c, rfl, hc⟩, -⟩ := hu
    all_goals
      obtain rfl : c = '\x7b' := CharSet.eq_of_holds (by decide) hc
      exact ⟨_, rfl⟩
  obtain ⟨v, rfl⟩ := hu
  obtain rfl : d = '\x7d' := CharSet.eq_of_holds (by decide) hd
  refine ⟨⟨_, rfl⟩, ?_⟩
  simp only [← List.append_assoc]
  exact ⟨_, rfl⟩

theorem encloses_blockBefore (h : Adds s html blocks kept) :
    Encloses '\x7b' '\x7d' ((blockBefore blocks kept).pattern looseLines) := by
  intro chars m hm
  obtain ⟨hcapture, hlang⟩ := capture_after_keep rfl (keepless_blockTag h) hm
  exact ⟨hcapture, ends_blockTag hlang⟩

theorem encloses_blockAfter (h : Adds s html blocks kept) :
    Encloses '\x7b' '\x7d' ((blockAfter blocks kept).pattern looseLines) := by
  intro chars m hm
  obtain ⟨hcapture, hlang⟩ := capture_before_looks (keepless_blockTag h) rfl (fun k n hn w hw => by
    obtain rfl : n = _ := by simpa [Items.nodes] using hn
    exact hw) hm
  exact ⟨hcapture, ends_blockTag hlang⟩

/-! ### Quoted texts -/

/-- The characters that are escaped in a quoted text, blanks apart. -/
def quotedSigns : List Char := "()[]\x7b\x7d?*+|^$\\.-#&~".toList

/-- How a character of a quoted text is written. -/
def quoteSign (c : Char) : Sign :=
  if quotedSigns.contains c || isBlank c then .escaped c
  else if c == '\x00' then .zero
  else .lit c

def quoteAtoms (piece : List Char) : List Atom :=
  piece.map fun c => .sign (quoteSign c)

theorem print_quoteAtoms (piece : List Char) :
    (quoteAtoms piece).flatMap Atom.print = quote piece := by
  rw [quoteAtoms, List.flatMap_map, quote]
  refine congrArg (List.flatMap · piece) (funext fun c => ?_)
  unfold quoteSign quotedSigns
  split_ifs <;> simp

/-- No sign is a letter or a digit, and all characters with a meaning of their own are among
them. -/
theorem quotedSigns_check : (quotedSigns.all fun c => !c.isAlpha && !c.isDigit) = true ∧
    (['\\', '(', ')', '|', '.', '[', '^', '$', '?', '*', '+', '\x7b',
    '#'].all quotedSigns.contains) = true := by
  decide +kernel

theorem ok_quoteSign (flags : Flags) (c : Char) : (quoteSign c).ok flags = true := by
  unfold quoteSign
  split_ifs with hquote hzero
  · obtain hsign | hblank := Bool.or_eq_true_iff.1 hquote
    · exact List.all_eq_true.1 quotedSigns_check.1 c (by simpa using hsign)
    · by_contra hletter
      have hplain : isPlain c = true := isPlain_of_isAlphanum <| by
        rw [Char.isAlphanum, Bool.or_eq_true]
        by_contra hnot
        rw [not_or] at hnot
        exact hletter (by simp [hnot])
      simp [isPlain, hblank] at hplain
  · rfl
  · rw [Bool.or_eq_true, not_or] at hquote
    have hne : ∀ d ∈ ['\\', '(', ')', '|', '.', '[', '^', '$', '?', '*', '+', '\x7b', '#'],
        c ≠ d := by
      rintro d hd rfl
      exact hquote.1 (List.all_eq_true.1 quotedSigns_check.2 c hd)
    simp only [List.forall_mem_cons] at hne
    simp [hquote.2, hne]

theorem simple_quoteAtoms (flags : Flags) (piece : List Char) :
    ∀ a ∈ quoteAtoms piece, a.Simple flags := by
  intro a ha
  obtain ⟨c, -, rfl⟩ := List.mem_map.1 ha
  exact Atom.simple_sign (ok_quoteSign flags c)

/-! ### Unfinished tags -/

/-- The options of the pattern for unfinished tags. -/
abbrev verboseLines : Flags := { multiline := true, verbose := true }

/-- A piece of a tag that is not finished. -/
def unfinishedPieces : Choice :=
  .any
    [.atom (.escaped '"') <| .many (.set true (.escaped '"') [.lit '>']) <|
      .atom (.escaped '"') .fin,
      .text "'" <| .many (.set true (.lit '\'') [.lit '>']) <| .text "'" .fin,
      .text "\x7b\x7b" <| .many (.set true (.brace true) []) <| .text "\x7d\x7d" .fin,
      .text "\x7b%" <| .many (.set true (.lit '%') []) <| .text "%\x7d" .fin,
      .text "\x7b#" <| .many (.set true (.escaped '#') []) <| .text "#\x7d" .fin,
      .atom (.set true (.lit '>') [.brace false, .brace true]) .fin]

/-- The tag of an element up to a text that ends a line. -/
def unfinishedTree (html : List (List Char)) (piece : List Char) : Choice :=
  .last <| .atom (.escaped '<') <| .atom (.plain <| words false (tagWords html)) <| .atom .edge <|
  .few (.plain unfinishedPieces) <| .atoms (quoteAtoms piece) <| .atom .tail .fin

/-- Whatever the text, the pattern for unfinished tags can be read. -/
theorem unfinishedTag_eq (h : Adds s html blocks kept) (piece : List Char) :
    unfinishedTag s piece = .ok ((unfinishedTree html piece).pattern verboseLines) := by
  refine compile_of_print ?_ ?_
  · have hpieces : unfinishedPieces.print = (r#"\"[^\">]*\"|'[^'>]*'|\x7b\x7b[^\x7d]*\x7d\x7d|"# ++
        r"\x7b%[^%]*%\x7d|\x7b\#[^\#]*\#\x7d|[^>\x7b\x7d]").toList := by
      simp [unfinishedPieces, Choice.any]
    simp [unfinishedTree, toList_elements h, print_atoms, print_quoteAtoms, hpieces]
  · have hn := tagWords_names h verboseLines
    have hsimple := simple_quoteAtoms verboseLines piece
    have hquote : ∀ k, (Items.atoms (quoteAtoms piece) (.atom .tail .fin)).okIn verboseLines [] k =
        true :=
      fun k => okIn_atoms (fun a ha => (hsimple a ha).groups) (fun a ha =>
        (hsimple a ha).ok [] k) rfl
    have hbacks : unfinishedPieces.backs = [] := rfl
    simp [Choice.ok, unfinishedTree, hn.print_head,
      hn.okIn_words (fun e : false = true => by simp at e),
      hn.groups_words, hn.backs_words, hquote, backs_atoms fun a ha => (hsimple a ha).backs, hbacks]
    decide

/-! ### Passes -/

theorem spread_isolate {o c : Char} {piece : List Char} (ho : ∃ w, piece = o :: w)
    (hc : ∃ w, piece = w ++ [c])
    (side : Side) (start : Nat) : Spread o c piece (side.isolate start piece) := by
  cases side with
  | before =>
    obtain ⟨w, rfl⟩ := ho
    simp only [Side.isolate]
    split
    · exact .refl _
    · exact .before (.refl w)
  | after =>
    obtain ⟨w, rfl⟩ := hc
    rw [Side.isolate, List.append_assoc]
    exact (Spread.refl w).append (.after .nil)

/-- A replacement that keeps a match or isolates it spreads the text. -/
theorem Encloses.replaceAll_spread {o c : Char} {P : Pattern} (hP : Encloses o c P) (side : Side)
    {f : Match → List Char} (hf : ∀ m, f m = m.capture text.toArray 1 ∨
      f m = side.isolate m.start (m.capture text.toArray 1)) :
    Spread o c text (P.replaceAll f text.toArray) := by
  show Spread o c text.toArray.toList _
  refine Pattern.replaceAll_spread fun m hm => ?_
  obtain ⟨hcapture, ho, hc⟩ := hP _ m hm
  obtain hm | hm := hf m
  · rw [hm, hcapture]
    exact .refl _
  · rw [hm, hcapture]
    exact spread_isolate ho hc side _

theorem exists_spread_breakElementsOn (h : Adds s html blocks kept) (side : Side)
    (text : List Char) :
    ∃ result, breakElementsOn s side text = .ok result ∧ Spread '<' '>' text result := by
  cases side with
  | before =>
    simp only [breakElementsOn, compile_breakBefore h, Outcome.ok_bind]
    refine ⟨_, rfl, (encloses_breakBefore h).replaceAll_spread .before fun m => ?_⟩
    split <;> simp
  | after =>
    simp only [breakElementsOn, compile_breakAfter h, Outcome.ok_bind]
    refine ⟨_, rfl, (encloses_breakAfter h).replaceAll_spread .after fun m => ?_⟩
    split <;> simp

theorem exists_spread_breakBlocksOn (h : Adds s html blocks kept) (side : Side) (text : List Char) :
    ∃ result, breakBlocksOn s side text = .ok result ∧ Spread '\x7b' '\x7d' text result := by
  have hpass : ∀ {tag : Pattern} {spans : List Span}, Encloses '\x7b' '\x7d' tag →
      ∃ result, (tag.replaceAllM (fun m => do
          let piece := m.capture text.toArray 1
          if spans.any (Region.within m.span) then return piece
          else if (← unfinishedTag s piece).occurs (text.toArray.extract 0 m.stop) then return piece
          else return side.isolate m.start piece) text.toArray : Outcome (List Char)) = .ok result ∧
        Spread '\x7b' '\x7d' text result := by
    intro tag spans htag
    refine ⟨_, replaceAllM_ok (g := fun m =>
      if spans.any (Region.within m.span) then m.capture text.toArray 1
      else if ((unfinishedTree html (m.capture text.toArray 1)).pattern verboseLines).occurs
        (text.toArray.extract 0 m.stop) then m.capture text.toArray 1
      else side.isolate m.start (m.capture text.toArray 1)) fun m _ => ?_,
      htag.replaceAll_spread side fun m => ?_⟩
    · simp only [unfinishedTag_eq h, Outcome.ok_bind]
      split_ifs <;> rfl
    · split_ifs <;> simp
  cases side with
  | before =>
    simp only [breakBlocksOn, compile_blockBefore h, Outcome.ok_bind]
    exact hpass (encloses_blockBefore h)
  | after =>
    simp only [breakBlocksOn, compile_blockAfter h, Outcome.ok_bind]
    exact hpass (encloses_blockAfter h)

/-- Each line feed that comes in stands before an opening bracket or brace or after a closing
one. -/
theorem exists_spread_breakLines (h : Adds s html blocks kept) (text : List Char) :
    ∃ a b c d, breakLines s text = .ok d ∧ Spread '<' '>' text a ∧ Spread '<' '>' a b ∧
      Spread '\x7b' '\x7d' b c ∧ Spread '\x7b' '\x7d' c d := by
  obtain ⟨a, ha, hspreada⟩ := exists_spread_breakElementsOn h .before text
  obtain ⟨b, hb, hspreadb⟩ := exists_spread_breakElementsOn h .after a
  obtain ⟨c, hc, hspreadc⟩ := exists_spread_breakBlocksOn h .before b
  obtain ⟨d, hd, hspreadd⟩ := exists_spread_breakBlocksOn h .after c
  refine ⟨a, b, c, d, ?_, hspreada, hspreadb, hspreadc, hspreadd⟩
  simp only [breakLines, ha, hb, hc, hd, Outcome.ok_bind]

/-- A tag is not broken inside if it holds no bracket and no brace, in values or elsewhere. -/
theorem breakLines_keeps_tag (h : Adds s html blocks kept) {v : List Char}
    (hv : ('<' ∉ v ∧ '>' ∉ v) ∧ '\x7b' ∉ v ∧ '\x7d' ∉ v) (hin : '<' :: (v ++ ['>']) <:+: text) :
    ∃ result, breakLines s text = .ok result ∧ '<' :: (v ++ ['>']) <:+: result := by
  obtain ⟨a, b, c, d, hd, hab, hbc, hcd, hde⟩ := exists_spread_breakLines h text
  have htail : '<' ∉ v ++ ['>'] ∧ '\x7b' ∉ v ++ ['>'] := by simp [hv]
  have hinit : '>' ∉ ('<' :: (v ++ ['>'])).dropLast ∧ '\x7d' ∉ ('<' :: (v ++ ['>'])).dropLast := by
    rw [← List.cons_append, List.dropLast_concat]
    simp [hv]
  have ha := hab.keeps_piece hin htail.1 hinit.1
  have hb := hbc.keeps_piece ha htail.1 hinit.1
  have hc := hcd.keeps_piece hb htail.2 hinit.2
  exact ⟨d, hd, hde.keeps_piece hc htail.2 hinit.2⟩

/-- Whatever names the settings list, breaking lines answers on every text, and the answer is the
text with line feeds put into it. -/
theorem breakLines_inserts {s : Settings} {html blocks kept : Value}
    (h : TakesNames s html blocks kept)
    (text : List Char) : ∃ result, breakLines s text = .ok result ∧ Fed text result := by
  obtain ⟨_, _, _, hadds⟩ := h.exists_adds
  obtain ⟨a, b, c, d, hd, hab, hbc, hcd, hde⟩ := exists_spread_breakLines hadds text
  exact ⟨d, hd, ((hab.fed.trans hbc.fed).trans hcd.fed).trans hde.fed⟩

/-- Settings that list two elements, a block and a block to keep. -/
def listedSettings : Settings :=
  { Settings.standard 4 120 with
    customHtml := "|card|note"
    customBlocks := "|endtoc\\b|toc\\b"
    ignoreBlocks := some "endfor\\b|for\\b" }

theorem breakLines_inserts_listed :
    TakesNames listedSettings (.text "card, note") (.text "toc") (.text "for") ∧
      ∃ result, breakLines listedSettings
          "a<card title=\"\x7b% toc %\x7d\">b\x7b% endtoc %\x7d<br>c".toList = .ok result ∧
        Fed "a<card title=\"\x7b% toc %\x7d\">b\x7b% endtoc %\x7d<br>c".toList result := by
  have hlists : ∀ {t : String} {names : List String}, commaNames t = names →
      (names.all fun n => n != "" && n.toList.all isWord) = true → textOf (.text t) = .ok (some t) →
        ListsWords (.text t) := by
    intro t names hnames hcheck htext
    refine .inr ⟨t, htext, fun n hn => ?_⟩
    simpa using List.all_eq_true.1 hcheck n (hnames ▸ hn)
  have hcomma : commaNames "card, note" = ["card", "note"] ∧ commaNames "toc" = ["toc"] ∧
      commaNames "for" = ["for"] := by cbv
  have hsorted : sortedNames ["toc\\b", "endtoc\\b"] = ["endtoc\\b", "toc\\b"] ∧
      sortedNames ["for\\b", "endfor\\b"] = ["endfor\\b", "for\\b"] :=
    ⟨sortedNames_pair (by decide), sortedNames_pair (by decide)⟩
  have hnames : TakesNames listedSettings (.text "card, note") (.text "toc") (.text "for") := by
    refine ⟨?_, ?_, ?_, hlists hcomma.1 (by decide) rfl, hlists hcomma.2.1 (by decide) rfl,
      hlists hcomma.2.2 (by decide) rfl⟩
    · show Except.ok ("|" ++ String.intercalate "|" (commaNames "card, note")) = _
      rw [hcomma.1]
      rfl
    · show Except.ok ("|" ++ String.intercalate "|" (sortedNames
        ((commaNames "toc" ++ (commaNames "toc").map ("end" ++ ·)).map (· ++ "\\b")))) = _
      rw [hcomma.2.1]
      exact congrArg (fun names => Except.ok ("|" ++ String.intercalate "|" names)) hsorted.1
    · show Except.ok (some (String.intercalate "|" (sortedNames
        ((commaNames "for" ++ (commaNames "for").map ("end" ++ ·)).map (· ++ "\\b"))))) = _
      rw [hcomma.2.2]
      exact congrArg (fun names => Except.ok (some (String.intercalate "|" names))) hsorted.2
  exact ⟨hnames, breakLines_inserts hnames _⟩

end TemplateTidy.Layout
