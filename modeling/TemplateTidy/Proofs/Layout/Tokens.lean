import TemplateTidy.Proofs.Layout.LineOutlooks
import TemplateTidy.Proofs.Pattern.Pieces

/-! # Tags and texts

A document of elements without attributes is a list of tags and texts with blanks between them.
`Spells` is the relation between the tags and texts and the characters; `Gaps` follows the blanks
token by token, with the line feeds that some of them have to hold.  What a spelling does not hold
decides which patterns find nothing in it: some characters of markup (`Spells.alien_not_mem`), other
tags (`Spells.tag_of_less`), and a rule of dashes (`Spells.no_rule`). -/

namespace TemplateTidy.Layout

open Text Pattern Node

/-! ### Blanks -/

def isTab (c : Char) : Bool :=
  c == ' ' || c == '\t'

def isGap (c : Char) : Bool :=
  c == '\n' || isTab c

theorem isBlank_of_isGap {c : Char} (h : isGap c = true) : isBlank c = true := by
  simp only [isGap, isTab, Bool.or_eq_true, beq_iff_eq] at h
  obtain rfl | rfl | rfl := h <;> decide

theorem isTab_of_isGap {c : Char} (h : isGap c = true) (hc : c ≠ '\n') : isTab c = true := by
  simpa [isGap, hc] using h

theorem less_not_mem_of_isGap {g : List Char} (hg : ∀ c ∈ g, isGap c = true) : '<' ∉ g :=
  fun h => by cases hg _ h

/-! ### Tokens -/

/-- The names of elements that stand on lines of their own and go on one line if they are short. -/
def lineNames : List String :=
  ["button", "h1", "h2", "h3", "h4", "h5", "h6", "td", "th", "tr", "label", "div", "li", "head",
    "body", "p", "select", "option", "legend", "summary", "dt", "figcaption"]

structure LineName where
  name : String
  known : name ∈ lineNames

namespace LineName

def chars (n : LineName) : List Char :=
  n.name.toList

/-- A tag without attributes. -/
def tag (n : LineName) : (closing : Bool) → List Char
  | false => openTag n.chars
  | true => closeTag n.chars

theorem tag_eq (n : LineName) (closing : Bool) :
    n.tag closing = bracket closing ++ (n.chars ++ ['>']) := by
  cases closing <;> rfl

theorem lineNames_small :
    (lineNames.all fun n => n.toList.all isSmall && n.toList != []) = true := by
  decide +kernel

theorem small (n : LineName) : ∀ c ∈ n.chars, isSmall c = true := by
  have h := List.all_eq_true.1 lineNames_small n.name n.known
  simp only [Bool.and_eq_true, List.all_eq_true] at h
  exact h.1

theorem chars_ne_nil (n : LineName) : n.chars ≠ [] := by
  have h := List.all_eq_true.1 lineNames_small n.name n.known
  simp only [Bool.and_eq_true, bne_iff_ne] at h
  exact h.2

theorem mem_tag {n : LineName} {closing : Bool} {c : Char} (h : c ∈ n.tag closing) :
    isSmall c = true ∨ c ∈ ['<', '/', '>'] := by
  obtain h | h : c ∈ ['<', '/', '>'] ∨ c ∈ n.chars := by
    cases closing <;> simp only [tag, openTag, closeTag, List.mem_append, List.mem_cons,
      List.not_mem_nil] at h ⊢ <;>
      grind
  · exact .inr h
  · exact .inl (n.small c h)

/-- A tag is its bracket and characters that are none. -/
theorem exists_tag (n : LineName) (closing : Bool) : ∃ u, n.tag closing = '<' :: u ∧ '<' ∉ u := by
  have hname : '<' ∉ n.chars := fun h => by cases n.small _ h
  cases closing
  all_goals
    refine ⟨_, rfl, ?_⟩
    simp [hname]

end LineName

/-- What front matter begins and ends with. -/
def rule : List Char :=
  ['-', '-', '-']

/-- A text that a document holds: one line, and no rule of dashes. -/
structure PlainText extends TextLine where
  oneLine : ∀ c ∈ chars, isLineEnd c = false
  noRule : ¬ rule <:+: chars

inductive Token where
  | tag (closing : Bool) (n : LineName)
  | text (t : PlainText)

namespace Token

def chars : Token → List Char
  | tag closing n => n.tag closing
  | text t => t.chars

def isTag : Token → Bool
  | tag .. => true
  | text _ => false

theorem firm (t : Token) : Firm t.chars := by
  cases t with
  | tag closing n =>
    cases closing
    all_goals
      refine ⟨rfl, ?_⟩
      simp only [chars, LineName.tag_eq, ← List.append_assoc, List.getLast?_concat]
      rfl
  | text t => exact t.firm

theorem chars_ne_nil (t : Token) : t.chars ≠ [] := by
  intro h
  have := t.firm.1
  rw [h] at this
  cases this

theorem isBlank_head (t : Token) : ∀ c ∈ t.chars.head?, isBlank c = false := by
  intro c hc
  simpa [Option.mem_def.1 hc] using t.firm.1

theorem isBlank_last (t : Token) : ∀ c ∈ t.chars.getLast?, isBlank c = false := by
  intro c hc
  simpa [Option.mem_def.1 hc] using t.firm.2

theorem exists_cons (t : Token) : ∃ c r, t.chars = c :: r ∧ isGap c = false := by
  obtain ⟨c, r, h⟩ := List.exists_cons_of_ne_nil t.chars_ne_nil
  refine ⟨c, r, h, ?_⟩
  by_contra hc
  have hblank := t.isBlank_head c (by rw [h]; rfl)
  rw [isBlank_of_isGap (by simpa using hc)] at hblank
  cases hblank

theorem isGap_last (t : Token) : ∀ c ∈ t.chars.getLast?, isGap c = false := by
  intro c hc
  by_contra hgap
  have hblank := t.isBlank_last c hc
  rw [isBlank_of_isGap (by simpa using hgap)] at hblank
  cases hblank

/-- A token is one line. -/
theorem oneLine (t : Token) : ∀ c ∈ t.chars, isLineEnd c = false := by
  cases t with
  | tag closing n =>
    have hsigns : ∀ c ∈ ['<', '/', '>'], isLineEnd c = false := by simp [isLineEnd]
    intro c hc
    obtain h | h := LineName.mem_tag hc
    · by_contra hend
      have hblank := (plain_of_small h).2.1
      rw [isBlank_of_isLineEnd (by simpa using hend)] at hblank
      cases hblank
    · exact hsigns c h
  | text t => exact t.oneLine

theorem feed_not_mem (t : Token) : '\n' ∉ t.chars := fun h => by cases t.oneLine _ h

end Token

theorem PlainText.less_not_mem (t : PlainText) : '<' ∉ t.chars :=
  t.plain '<' (by decide)

/-! ### Gaps -/

/-- Tokens with what stands after each of them. -/
def spellTokens : List (Token × List Char) → List Char
  | [] => []
  | (t, g) :: ps => t.chars ++ (g ++ spellTokens ps)

/-- The first of some tokens. -/
def leader (ps : List (Token × List Char)) : Option Token :=
  (ps.map Prod.fst).head?

/-- The gaps of a document: blanks, and a line feed wherever `broken` asks for one. -/
def Gaps (broken : Token → Token → Bool) : List (Token × List Char) → Prop
  | [] => True
  | (t, g) :: ps =>
    (∀ c ∈ g, isGap c = true) ∧ (∀ t' ∈ leader ps, broken t t' = true → '\n' ∈ g) ∧ Gaps broken ps

/-- No two texts stand side by side. -/
def Apart (ts : List Token) : Prop :=
  ts.IsChain fun t t' => (t.isTag || t'.isTag) = true

/-- If line feeds are asked for between all neighbours, only the last gap may lack one. -/
theorem Gaps.all {broken : Token → Token → Bool} :
    ∀ {ps : List (Token × List Char)}, Gaps broken ps →
    (ps.map Prod.fst).IsChain (fun t t' => broken t t' = true) → Gaps (fun _ _ => true) ps
  | [], _, _ => trivial
  | [_], h, _ => ⟨h.1, fun _ ht => (by cases ht), trivial⟩
  | (t, g) :: (t', g') :: ps, h, hchain => by
      obtain ⟨hbroken, hchain⟩ := List.isChain_cons_cons.1 hchain
      refine ⟨h.1, fun t'' ht _ => ?_, h.2.2.all hchain⟩
      obtain rfl := Option.some.inj ht
      exact h.2.1 t' rfl hbroken

/-! ### Spellings -/

/-- Tags and texts written with blanks between and around them. -/
inductive Spells : List Token → List Char → Prop where
  | nil {gap : List Char} (hgap : ∀ c ∈ gap, isGap c = true) : Spells [] gap
  | cons {t : Token} {ts : List Token} {gap rest : List Char} (hgap : ∀ c ∈ gap, isGap c = true)
      (h : Spells ts rest) : Spells (t :: ts) (gap ++ (t.chars ++ rest))

/-- A spelling with a line feed wherever `broken` asks for one. -/
def Parted (broken : Token → Token → Bool) (ts : List Token) (text : List Char) : Prop :=
  ∃ gap ps, text = gap ++ spellTokens ps ∧ ps.map Prod.fst = ts ∧ (∀ c ∈ gap, isGap c = true) ∧
    Gaps broken ps

variable {ts : List Token} {text : List Char}

theorem Parted.spells {broken : Token → Token → Bool} (h : Parted broken ts text) :
    Spells ts text := by
  obtain ⟨gap, ps, rfl, rfl, hgap, hps⟩ := h
  induction ps generalizing gap with
  | nil => exact .nil (by simpa [spellTokens] using hgap)
  | cons p ps ih => exact .cons hgap (ih p.2 hps.1 hps.2.2)

namespace Spells

theorem parted (h : Spells ts text) : Parted (fun _ _ => false) ts text := by
  induction h with
  | nil hgap => exact ⟨_, [], by simp [spellTokens], rfl, hgap, trivial⟩
  | @cons t ts gap rest hgap h ih =>
    obtain ⟨gap', ps, rfl, rfl, hgap', hps⟩ := ih
    exact ⟨gap, (t, gap') :: ps, rfl, rfl, hgap, hgap', by simp, hps⟩

theorem behind {gap : List Char} (h : Spells ts text) (hgap : ∀ c ∈ gap, isGap c = true) :
    Spells ts (gap ++ text) := by
  cases h with
  | nil hgap' => exact .nil (List.forall_mem_append.2 ⟨hgap, hgap'⟩)
  | cons hgap' h =>
    rw [← List.append_assoc]
    exact .cons (List.forall_mem_append.2 ⟨hgap, hgap'⟩) h

theorem append {ts' : List Token} {text' : List Char} (h : Spells ts text) (h' : Spells ts' text') :
    Spells (ts ++ ts') (text ++ text') := by
  induction h with
  | nil hgap => exact h'.behind hgap
  | cons hgap _ ih =>
    rw [List.append_assoc, List.append_assoc]
    exact .cons hgap ih

theorem ne_nil (h : Spells ts text) (hne : ts ≠ []) : text ≠ [] := by
  cases h with
  | nil => exact absurd rfl hne
  | @cons t => simp [t.chars_ne_nil]

end Spells

/-! ### What a spelling holds -/

/-- The characters of markup that neither a tag nor a text holds. -/
def alien : List Char :=
  ['{', '}', '[', ']', '%', '#', '*', '?']

theorem Token.alien_not_mem (t : Token) {c : Char} (hc : c ∈ alien) : c ∉ t.chars := by
  cases t with
  | tag closing n =>
    have hall : (alien.all fun c => !(isSmall c || ['<', '/', '>'].contains c)) = true := by decide
    intro hmem
    have hc := List.all_eq_true.1 hall c hc
    obtain hmem | hmem := LineName.mem_tag hmem
    · simp [hmem] at hc
    · simp only [List.contains_iff_mem.2 hmem, Bool.or_true, Bool.not_true] at hc
      cases hc
  | text t =>
    have hmarkup : alien ⊆ markup := by simp [alien, markup]
    exact t.plain c (List.mem_cons_of_mem _ (hmarkup hc))

namespace Spells

theorem alien_not_mem (h : Spells ts text) {c : Char} (hc : c ∈ alien) : c ∉ text := by
  have hgap : ∀ {gap : List Char}, (∀ d ∈ gap, isGap d = true) → c ∉ gap := by
    intro gap hgap hmem
    have hall : (alien.all fun c => !isGap c) = true := by decide
    have := List.all_eq_true.1 hall c hc
    rw [hgap c hmem] at this
    cases this
  induction h with
  | nil h => exact hgap h
  | cons h _ ih => simp [hgap h, Token.alien_not_mem _ hc, ih]

theorem brace_not_mem (h : Spells ts text) : '\x7b' ∉ text :=
  h.alien_not_mem (by simp [alien])

/-- An end of a text that begins with a character that the first part does not hold. -/
theorem suffix_of_not_mem {c : Char} {u a b : List Char} (ha : c ∉ a) (h : c :: u <:+ a ++ b) :
    c :: u <:+ b := by
  induction a with
  | nil => exact h
  | cons d a ih =>
    obtain h | h := List.suffix_cons_iff.1 h
    · exact absurd (List.cons.inj h).1 fun he => ha (by simp [he])
    · exact ih (fun hmem => ha (by simp [hmem])) h

/-- Where a bracket opens, a tag begins. -/
theorem tag_of_less (h : Spells ts text) {u : List Char} (hu : '<' :: u <:+ text) :
    ∃ closing, ∃ n : LineName, n.tag closing <+: '<' :: u := by
  induction h with
  | @nil gap hgap => exact absurd (hgap '<' (hu.subset (by simp))) (by decide)
  | @cons t ts gap rest hgap h ih =>
    have hu := suffix_of_not_mem (less_not_mem_of_isGap hgap) hu
    cases t with
    | text t => exact ih (suffix_of_not_mem t.less_not_mem hu)
    | tag closing n =>
      obtain ⟨v, hv, hfree⟩ := n.exists_tag closing
      rw [Token.chars, hv] at hu
      obtain hu | hu := List.suffix_cons_iff.1 hu
      · exact ⟨closing, n, by rw [hv, hu]; exact List.prefix_append _ _⟩
      · exact ih (suffix_of_not_mem hfree hu)

/-- A spelling that begins with a dash begins with a text. -/
theorem leader_of_dash {r : List Char} (h : Spells ts ('-' :: r)) :
    ∃ t ∈ ts.head?, t.isTag = false := by
  generalize htext : '-' :: r = text at h
  cases h with
  | nil hgap => exact absurd (hgap '-' (by simp [← htext])) (by decide)
  | @cons t ts gap rest hgap h =>
    refine ⟨t, rfl, ?_⟩
    cases gap with
    | nil =>
      cases t with
      | text t => rfl
      | tag closing n =>
        obtain ⟨v, hv, -⟩ := n.exists_tag closing
        rw [List.nil_append, Token.chars, hv] at htext
        cases htext
    | cons c gap =>
      obtain ⟨rfl, -⟩ := List.cons.inj htext
      exact absurd (hgap '-' (by simp)) (by decide)

end Spells

theorem LineName.dash_not_mem (n : LineName) (closing : Bool) : '-' ∉ n.tag closing := by
  intro h
  obtain h | h := mem_tag h
  · cases h
  · simp at h

theorem Token.noRule (t : Token) : ¬ rule <:+: t.chars := by
  cases t with
  | tag closing n => exact fun h => n.dash_not_mem closing (h.subset (by simp [rule]))
  | text t => exact t.noRule

namespace Spells

/-- No rule of dashes stands in a spelling. -/
theorem no_rule (h : Spells ts text) (hts : Apart ts) {u : List Char} (hu : u <:+ text) :
    ¬ rule <+: u := by
  rintro ⟨r, rfl⟩
  induction h with
  | @nil gap hgap => exact absurd (hgap '-' (hu.subset (by simp [rule]))) (by decide)
  | @cons t ts gap rest hgap h ih =>
    have hdash : '-' ∉ gap := fun hmem => by cases hgap _ hmem
    have hu : rule ++ r <:+ t.chars ++ rest := suffix_of_not_mem hdash hu
    have hrule : ∀ a b, t.chars ≠ a ++ (rule ++ b) := fun a b he => t.noRule ⟨a, b, by simp [he]⟩
    obtain ⟨x, hx⟩ := hu
    obtain ⟨a, ha, hr⟩ | ⟨a, -, hr⟩ := List.append_eq_append_iff.1 hx
    · obtain ⟨b, hb, -⟩ | ⟨b, hb, hrest⟩ := List.append_eq_append_iff.1 hr
      · exact hrule x b (by rw [ha, hb])
      · -- the rule begins in the token or behind it, and goes on behind it
        have hdash : ∀ c ∈ a ++ b, c = '-' := by simp [← hb, rule]
        have hne : b ≠ [] := by
          rintro rfl
          exact hrule x [] (by simp [ha, hb])
        obtain ⟨c, b, rfl⟩ := List.exists_cons_of_ne_nil hne
        obtain rfl := hdash c (by simp)
        obtain ⟨t', ht', htext⟩ : ∃ t ∈ ts.head?, t.isTag = false :=
          leader_of_dash (by rwa [hrest] at h)
        obtain ⟨ts', rfl⟩ := List.head?_eq_some_iff.1 ht'
        have htag := (List.isChain_cons_cons.1 hts).1
        rw [htext, Bool.or_false] at htag
        cases a with
        | nil => exact ih hts.tail ⟨[], hr⟩
        | cons d a =>
          obtain rfl := hdash d (by simp)
          cases t with
          | text t => cases htag
          | tag closing n => exact n.dash_not_mem closing (by rw [show n.tag closing = _ from ha]; simp)
    · exact ih hts.tail ⟨a, hr.symm⟩

/-! ### Line ends -/

/-- A blank at the end can be left out. -/
theorem dropLast_gap {c : Char} (hc : isGap c = true) {x : List Char} (h : Spells ts (x ++ [c])) :
    Spells ts x := by
  generalize htext : x ++ [c] = text at h
  induction h generalizing x with
  | @nil gap hgap => exact .nil fun d hd => hgap d (by simp [← htext, hd])
  | @cons t ts gap rest hgap h ih =>
    cases hrest : rest using List.reverseRecOn with
    | nil =>
      -- the last character is the token's
      obtain ⟨u, d, ht⟩ : ∃ u d, t.chars = u ++ [d] :=
        ⟨_, _, (List.dropLast_append_getLast t.chars_ne_nil).symm⟩
      have hlast := t.isGap_last d (by simp [ht])
      rw [hrest, ht, List.append_nil, ← List.append_assoc] at htext
      obtain ⟨-, hd⟩ := List.append_inj' htext rfl
      obtain rfl : c = d := by simpa using hd
      rw [hc] at hlast
      cases hlast
    | append_singleton rest' d =>
      subst hrest
      rw [← List.append_assoc, ← List.append_assoc] at htext
      obtain ⟨rfl, hd⟩ := List.append_inj' htext rfl
      obtain rfl : c = d := by simpa using hd
      rw [List.append_assoc]
      exact .cons hgap (ih rfl)

theorem isLineEnd_eq (h : Spells ts text) {c : Char} (hc : c ∈ text) (hend : isLineEnd c = true) :
    c = '\n' := by
  have hgap : ∀ {gap : List Char}, (∀ d ∈ gap, isGap d = true) → c ∈ gap → c = '\n' := by
    intro gap hgap hmem
    have := hgap c hmem
    simp only [isGap, isTab, Bool.or_eq_true, beq_iff_eq] at this
    obtain rfl | rfl | rfl := this
    · rfl
    · cases hend
    · cases hend
  induction h with
  | nil h => exact hgap h hc
  | @cons t ts gap rest hg h ih =>
    obtain hc | hc := List.mem_append.1 hc
    · exact hgap hg hc
    obtain hc | hc := List.mem_append.1 hc
    · rw [t.oneLine c hc] at hend
      cases hend
    · exact ih hc

end Spells

/-- With line feeds as line ends a document is the same. -/
theorem Spells.naturalLines (h : Spells ts text) : Spells ts (naturalLines text) := by
  obtain he | he := @joinWith_splitLinesFrom [] text fun c hc => h.isLineEnd_eq hc
  · rw [Layout.naturalLines, splitLines, he]
    exact h
  · refine dropLast_gap (c := '\n') rfl ?_
    rw [Layout.naturalLines, splitLines, he]
    exact h

end TemplateTidy.Layout
