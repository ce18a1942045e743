import TemplateTidy.Proofs.Pattern.Search

/-! # What a replacement puts in

A replacement with effects gives each match an image and puts the images in
(`images_of_replaceAllM`).  A character of the result comes from the text or from an image
(`mem_splice`), and where the images keep to the text at their ends, so does the result
(`splice_tidy`). -/

namespace TemplateTidy

open Text

/-! ### Characters -/

variable {text : Array Char} {m : Match} {c : Char}

theorem mem_of_mem_between {i j : Nat} (h : c ∈ between text i j) : c ∈ text.toList := by
  rw [between_eq] at h
  exact List.mem_of_mem_drop (List.mem_of_mem_take h)

theorem Match.mem_of_mem_text (h : c ∈ m.text text) : c ∈ text.toList :=
  mem_of_mem_between h

namespace Pattern

section effects

variable {μ : Type → Type} [Monad μ] [LawfulMonad μ] {Gives : ∀ {α : Type}, μ α → α → Prop}

/-- What a walk through a list gives are values that its steps give. -/
theorem forall₂_of_mapM (hpure : ∀ {α : Type} {a b : α}, Gives (pure a : μ α) b → b = a)
    (hbind : ∀ {α β : Type} {x : μ α} {f : α → μ β} {b : β}, Gives (x >>= f) b →
      ∃ a, Gives x a ∧ Gives (f a) b) {α β : Type} {f : α → μ β} :
    ∀ {as : List α} {bs : List β}, Gives (as.mapM f) bs →
      List.Forall₂ (fun a b => Gives (f a) b) as bs
  | [], bs, h => by
      rw [List.mapM_nil] at h
      rw [hpure h]
      exact .nil
  | a :: as, bs, h => by
      rw [List.mapM_cons] at h
      obtain ⟨b, hb, h⟩ := hbind h
      obtain ⟨bs', hbs, h⟩ := hbind h
      rw [hpure h]
      exact .cons hb (forall₂_of_mapM hpure hbind hbs)

/-- A replacement with effects puts in images that its steps give. -/
theorem images_of_replaceAllM (hpure : ∀ {α : Type} {a b : α}, Gives (pure a : μ α) b → b = a)
    (hbind : ∀ {α β : Type} {x : μ α} {f : α → μ β} {b : β}, Gives (x >>= f) b →
      ∃ a, Gives x a ∧ Gives (f a) b) {p : Pattern} {f : Match → μ (List Char)} {text : Array Char}
    {result : List Char} (h : Gives (p.replaceAllM f text) result) :
    ∃ images : List (Match × List Char), images.map Prod.fst = p.findAll text ∧
      (∀ x ∈ images, Gives (f x.1) x.2) ∧ result = splice text 0 images := by
  obtain ⟨images, himages, h⟩ := hbind h
  refine ⟨images, ?_, ?_, hpure h⟩
  all_goals
    have hall := forall₂_of_mapM hpure hbind himages
    generalize p.findAll text = ms at hall
    clear himages h
  · induction hall with
    | nil => rfl
    | cons hx _ ih =>
      obtain ⟨image, -, hx⟩ := hbind hx
      simp [hpure hx, ih]
  · induction hall with
    | nil => simp
    | cons hx _ ih =>
      obtain ⟨image, himage, hx⟩ := hbind hx
      rw [hpure hx]
      simpa using ⟨himage, fun a b h => ih (a, b) h⟩

end effects

/-- A replacement that may fail puts in what its steps answer. -/
theorem images_of_replaceAllM_ok {ε : Type} {p : Pattern} {f : Match → Except ε (List Char)}
    {text : Array Char} {result : List Char} (h : p.replaceAllM f text = .ok result) :
    ∃ images : List (Match × List Char), images.map Prod.fst = p.findAll text ∧
      (∀ x ∈ images, f x.1 = .ok x.2) ∧ result = splice text 0 images := by
  refine @images_of_replaceAllM (Except ε) _ _ (fun x a => x = .ok a) ?_ ?_ p f text result h
  · intro α a b h
    exact (Except.ok.inj h).symm
  · intro α β x f b h
    cases x with
    | error e => cases h
    | ok a => exact ⟨a, rfl, h⟩

end Pattern

/-! ### Ends -/

/-- An image that begins like its match, and ends with no blank if the match does, or stands before
none. -/
structure Flush (text : Array Char) (m : Match) (image : List Char) : Prop where
  filled : m.start < m.stop
  head : image.head? = text[m.start]?
  last : (∃ c d, image.getLast? = some c ∧ isBlank c = false ∧ text[m.stop - 1]? = some d ∧
      isBlank d = false) ∨ ∃ c, text[m.stop]? = some c ∧ isBlank c = false

theorem Match.head?_text (h : m.start < m.stop) : (m.text text).head? = text[m.start]? := by
  rw [show m.text text = between text m.start m.stop from rfl, between_eq, List.head?_take,
    if_neg (by omega), List.head?_drop]
  simp

theorem Match.start_lt_stop (text : Array Char) (h : m.text text ≠ []) : m.start < m.stop := by
  by_contra hge
  refine h ?_
  rw [show m.text text = between text m.start m.stop from rfl, between_eq,
    Nat.sub_eq_zero_of_le (by omega), List.take_zero]

theorem Match.getLast?_text (h : m.start < m.stop)
    (hsize : m.stop ≤ text.size) : (m.text text).getLast? = text[m.stop - 1]? := by
  have hlen : (text.toList.drop m.start).length = text.size - m.start := by simp
  rw [show m.text text = between text m.start m.stop from rfl, between_eq,
    List.getLast?_eq_getElem?,
    List.length_take, hlen, Nat.min_eq_left (by omega), List.getElem?_take_of_lt (by omega),
    List.getElem?_drop, show m.start + (m.stop - m.start - 1) = m.stop - 1 by omega]
  simp

theorem Flush.refl_of_last (h : m.start < m.stop)
    (hc : text[m.stop - 1]? = some c) (hb : isBlank c = false) : Flush text m (m.text text) := by
  obtain ⟨hlt, -⟩ := Array.getElem?_eq_some_iff.1 hc
  refine ⟨h, Match.head?_text h, .inl ⟨c, c, ?_, hb, hc, hb⟩⟩
  rw [Match.getLast?_text h (by omega), hc]

end TemplateTidy
