import TemplateTidy.Proofs.Layout.FullLines
import TemplateTidy.Proofs.Region.Absence

/-! # Blank lines after tags

Each listed tag has a pass of its own, and what a pass puts in depends on the passes before it.  But
a run of tags ends with a closing brace, with a line feed or without one, so all that a pass can put
in is a line feed behind a brace (`afterTag_unfed`), and a tag that the text does not mention has
nothing to do in any pass (`afterTag_of_unmentioned`).  Hence the order of the list decides at most
how many line feeds stand behind a brace, and nothing if the text mentions only one of the tags
(`blankLinesAfter_perm`). -/

namespace TemplateTidy

namespace Text

/-! ### Line feeds behind braces -/

/-- A text without the line feeds behind closing braces; `behind` tells whether it goes on behind
one. -/
def unfed (behind : Bool) : List Char → List Char
  | [] => []
  | c :: rest => if behind && c == '\n' then unfed true rest else c :: unfed (c == '\x7d') rest

/-- Whether a text ends with a closing brace and line feeds. -/
def endsTag (behind : Bool) : List Char → Bool
  | [] => behind
  | c :: rest => endsTag (c == '\x7d' || behind && c == '\n') rest

theorem unfed_append (v : List Char) : ∀ (behind : Bool) (u : List Char),
    unfed behind (u ++ v) = unfed behind u ++ unfed (endsTag behind u) v
  | _, [] => rfl
  | behind, c :: u => by
      rw [List.cons_append, unfed, unfed, endsTag]
      by_cases h : (behind && c == '\n') = true
      · simp [h, unfed_append v true u]
      · simp [h, unfed_append v _ u]

theorem endsTag_append (v : List Char) : ∀ (behind : Bool) (u : List Char),
    endsTag behind (u ++ v) = endsTag (endsTag behind u) v
  | _, [] => rfl
  | _, _ :: u => endsTag_append v _ u

/-- A line feed behind a tag does not count. -/
theorem unfed_feed {u : List Char} (hu : ∀ behind, endsTag behind u = true)
    (behind : Bool) (v : List Char) : unfed behind (u ++ ['\n'] ++ v) = unfed behind (u ++ v) := by
  rw [List.append_assoc, unfed_append, unfed_append v behind u, hu]
  rfl

theorem endsTag_feeds {w : List Char} (h : ∀ c ∈ w, c = '\n') : endsTag true w = true := by
  induction w with
  | nil => rfl
  | cons c w ih =>
    obtain rfl := h c (by simp)
    exact ih fun d hd => h d (by simp [hd])

end Text

open Text

theorem splice_unfed {text : Array Char} : ∀ {pos : Nat} {images : List (Match × List Char)},
    Ordered text pos (images.map Prod.fst) →
    (∀ x ∈ images, ∀ behind v, unfed behind (x.2 ++ v) = unfed behind (x.1.text text ++ v)) →
      ∀ behind, unfed behind (splice text pos images) = unfed behind (text.toList.drop pos)
  | pos, [], _, _, behind => by rw [splice_nil]
  | pos, (m, image) :: images, ho, hf, behind => by
      obtain ⟨h₁, h₂, h₃⟩ := ho
      rw [splice_cons, drop_eq_parts h₁ h₂, unfed_append, unfed_append _ behind,
        hf (m, image) (by simp), unfed_append,
        unfed_append _ _ (m.text text), splice_unfed h₃ fun x hx => hf x (by simp [hx])]

theorem Pattern.replaceAll_unfed {p : Pattern} {f : Match → List Char} {text : Array Char}
    (hf : ∀ m ∈ p.findAll text, ∀ behind v, unfed behind (f m ++ v) = unfed behind
      (m.text text ++ v)) (behind : Bool) :
    unfed behind (p.replaceAll f text) = unfed behind text.toList := by
  rw [replaceAll, splice_unfed p.ordered_images (by simpa using hf), List.drop_zero]

namespace Layout

open Node Pattern

/-! ### Runs of tags -/

/-- Runs of the tags of a name. -/
def tagRuns (name : List Char) : Pattern :=
  (runTree id name (.atom .edge)).pattern runFlags

/-- What follows the name in a tag. -/
def afterName : Items :=
  .atom .edge <| .rep (.set true (.brace true) []) .some true <| .text "%\x7d" <|
    .maybe lineFeed .fin

/-- The nodes of a tag before its name. -/
def tagHead : List Node :=
  Items.nodes runFlags (.text "\x7b%" <| .few .space .fin) 1

variable {name : List Char} {text : Array Char}

theorem tagRun_eq (h : ∀ c ∈ name, isPlain c = true) : tagRun "" name r"\b" = .ok (tagRuns name) :=
  compile_of_print (by simp [runTree, print_atoms, flatMap_lits]) (runTree_ok h).2.1

theorem node_tagRuns : (tagRuns name).node = .group 1 (.rep (.ofList (tagHead ++
    (name.map (fun c => .one (CharSet.single c .simple)) ++ afterName.nodes runFlags 1)))
      1 none false) := by
  have hname : (Items.atoms (lits name) afterName).nodes runFlags 1 =
      name.map (fun c => .one (CharSet.single c .simple)) ++ afterName.nodes runFlags 1 := by
    rw [nodes_atoms (by simp [lits])]
    simp only [lits, List.map_map]
    rfl
  rw [← hname]
  rfl

theorem keepless_tagRuns : (tagRuns name).node.keepless = true := by
  have hname : ∀ a ∈ lits name, a.keepless = true := by simp [lits, Atom.keepless]
  have hkeep : (runTree id name (.atom .edge)).keepless = true := by
    simp [runTree, Choice.keepless, Items.keepless, Atom.keepless, keepless_atoms hname]
  exact (keepless_choice _).trans (Choice.keepless_nodes runFlags hkeep 0)

/-- A tag of a run ends with a closing brace, and perhaps a line feed. -/
theorem exists_tag_of_lang {w : List Char} {front : List Node}
    (h : (ofList (front ++ afterName.nodes runFlags 1)).Lang w) :
    ∃ u v, w = u ++ ['\x7d'] ++ v ∧ ∀ c ∈ v, c = '\n' := by
  obtain ⟨ws, rfl, hws⟩ := lang_ofList.1 h
  have hlast := List.forall₂_drop (front.length + 3) hws
  rw [List.drop_append, List.drop_eq_nil_of_le (by omega), List.nil_append,
    Nat.add_sub_cancel_left] at hlast
  obtain ⟨brace, ws', hbrace, hrest, hdrop⟩ := List.forall₂_cons_left_iff.1 hlast
  obtain ⟨feed, ws'', hfeed, hnil, rfl⟩ := List.forall₂_cons_left_iff.1 hrest
  obtain rfl := List.forall₂_nil_left_iff.1 hnil
  refine ⟨(ws.take (front.length + 3)).flatten, feed, ?_, fun c hc => ?_⟩
  · rw [← Node.Lang.eq_singleton hbrace (by decide), List.append_assoc]
    conv_lhs => rw [← List.take_append_drop (front.length + 3) ws, hdrop]
    simp
  · exact CharSet.eq_of_holds (by decide) (hfeed.forall_of_rep c hc)

/-- So does a run of tags. -/
theorem exists_tag_of_mem_findAll {m : Match} (hm : m ∈ (tagRuns name).findAll text) :
    ∃ u v, m.text text = u ++ ['\x7d'] ++ v ∧ ∀ c ∈ v, c = '\n' := by
  obtain ⟨origin, i, q, hi, hq, rfl⟩ := exists_reach_of_mem_findAll hm
  have hstart : q.start = i := hq.start_eq keepless_tagRuns
  have hlang : (tagRuns name).node.Lang (between text i q.pos) := hq.lang
  rw [node_tagRuns] at hlang
  obtain ⟨us, hus, htags, hne, -⟩ := hlang
  obtain ⟨us, u, rfl⟩ := us.eq_nil_or_concat'.resolve_left (hne le_rfl)
  have hlast := htags u (by simp)
  rw [← List.append_assoc] at hlast
  obtain ⟨u', v, rfl, hv⟩ := exists_tag_of_lang hlast
  refine ⟨us.flatten ++ u', v, ?_, hv⟩
  show between text q.start q.pos = _
  rw [hstart, hus]
  simp

/-! ### Names that are not mentioned -/

theorem fits_of_reach_ones {scene : Scene} {q : Point} {ns : List Node} :
    ∀ {w : List CharSet} {p : Point},
    (ofList (w.map .one ++ ns)).Reach scene false p q → fits w (scene.rest p) = true
  | [], _, _ => rfl
  | cs :: w, p, h => by
      obtain ⟨m, hm, h⟩ := reach_ofList_cons.1 h
      obtain ⟨c, r, hr, hc, rfl⟩ := reach_one.1 hm
      have hw := fits_of_reach_ones h
      rw [Scene.rest_move, hr] at hw
      rw [hr, fits, hc]
      exact hw

/-- Whether a text mentions a tag. -/
def mentionsTag (text name : List Char) : Bool :=
  Region.mentions text (String.ofList name)

/-- Line feeds put into a text bring no tag in. -/
theorem mentionsTag_of_fed {a b : List Char} (h : Fed a b) (hplain : ∀ c ∈ name, isPlain c = true)
    (ha : mentionsTag a name = false) : mentionsTag b name = false := by
  refine Region.mentions_of_fed_of_feedless h (fun cs hcs => ?_) ha
  rw [Region.anyCase, String.toList_ofList] at hcs
  obtain ⟨c, hc, rfl⟩ := List.mem_map.1 hcs
  have hne : c ≠ '\n' := by
    rintro rfl
    exact absurd (hplain '\n' hc) (by decide)
  have himages : Folding.simple.images '\n' = ['\n'] := by decide
  simpa [CharSet.holds, CharSet.single, CharItem.holds_range_self, himages] using hne

/-- A run of tags mentions their name. -/
theorem findAll_tagRuns {text : List Char} (h : mentionsTag text name = false) :
    (tagRuns name).findAll text.toArray = [] := by
  refine findAll_eq_nil fun scene hscene i q _ hreach => ?_
  rw [node_tagRuns] at hreach
  obtain ⟨m, ⟨n, hn, -, hiter⟩, -⟩ := hreach
  obtain ⟨n, rfl⟩ : ∃ k, n = k + 1 := Nat.exists_eq_succ_of_ne_zero (Nat.ne_of_gt (hn le_rfl))
  cases hiter with
  | succ hround _ =>
    obtain ⟨_, -, hround⟩ := reach_ofList_cons.1 hround
    obtain ⟨_, -, hround⟩ := reach_ofList_cons.1 hround
    obtain ⟨m', -, hround⟩ := reach_ofList_cons.1 hround
    have hfits := fits_of_reach_ones (w := name.map (CharSet.single · .simple))
      (by rw [List.map_map]; exact hround)
    have hmention : mentionsTag text name = true := by
      refine Region.mentions_iff.2 ⟨scene.rest m', ?_, by simpa [Region.anyCase] using hfits⟩
      rw [Scene.rest, hscene]
      exact List.drop_suffix _ _
    rw [h] at hmention
    cases hmention

/-! ### Passes -/

/-- The pass of a tag: a line feed is put behind each of its runs, unless the document says
otherwise there. -/
def afterTag (doc : List Char) (now name : List Char) : List Char :=
  (tagRuns name).replaceAll (fun m =>
    if (Region.ignoredSpans doc.toArray).any (Region.within m.span) || doc.toArray[m.stop]? ==
      some '\n' then
      m.text now.toArray
    else m.text now.toArray ++ ['\n']) now.toArray

variable {s : Settings} {doc now : List Char} {names : List (List Char)}

theorem blankLinesAfter_eq_foldl (hnames : listedTags s.blankLineAfterTag = .ok names)
    (hplain : ∀ n ∈ names, ∀ c ∈ n, isPlain c = true) (text : List Char) :
    blankLinesAfter s text = .ok (names.foldl (afterTag text) text) := by
  rw [blankLinesAfter, hnames, Outcome.ok_bind]
  have hfold : ∀ now : List Char, ∀ ns ⊆ names, ns.foldlM (fun now name => do
      let run ← tagRun "" name r"\b"
      return run.replaceAll (fun m =>
        if (Region.ignoredSpans text.toArray).any (Region.within m.span) || text.toArray[m.stop]? ==
          some '\n' then
          m.text now.toArray
        else m.text now.toArray ++ ['\n']) now.toArray) now = Except.ok
            (ns.foldl (afterTag text) now) := by
    intro now ns hns
    induction ns generalizing now with
    | nil => rfl
    | cons name ns ih =>
      rw [List.foldlM_cons, tagRun_eq (hplain name (hns (by simp))), Outcome.ok_bind]
      exact ih _ fun n hn => hns (by simp [hn])
  exact hfold text names (List.Subset.refl names)

theorem afterTag_unfed (behind : Bool) :
    unfed behind (afterTag doc now name) = unfed behind now := by
  refine (replaceAll_unfed (fun m hm behind v => ?_) behind).trans (by simp)
  split
  · rfl
  · refine unfed_feed (fun behind => ?_) behind v
    obtain ⟨u, w, htext, hw⟩ := exists_tag_of_mem_findAll hm
    rw [htext, endsTag_append, endsTag_append]
    exact endsTag_feeds hw

theorem afterTag_fed : Fed now (afterTag doc now name) := by
  have hspread : Spread '\x7b' '\x7d' now.toArray.toList (afterTag doc now name) := by
    refine replaceAll_spread fun m hm => ?_
    split
    · exact .refl _
    · obtain ⟨u, w, htext, hw⟩ := exists_tag_of_mem_findAll hm
      -- one more line feed behind the brace is one more at the end
      have hfeeds : w ++ ['\n'] = '\n' :: w := by
        rw [List.eq_replicate_of_mem hw, ← List.replicate_succ', List.replicate_succ]
      rw [htext, List.append_assoc _ w, hfeeds, List.append_assoc, List.append_assoc]
      exact (Spread.refl u).append (.after (.refl w))
  exact hspread.fed

theorem afterTag_of_unmentioned (h : mentionsTag now name = false) :
    afterTag doc now name = now := by
  refine (replaceAll_eq_self fun m hm => ?_).trans (by simp)
  rw [findAll_tagRuns h] at hm
  cases hm

theorem foldl_afterTag_unfed (behind : Bool) :
    unfed behind (names.foldl (afterTag doc) now) = unfed behind now := by
  induction names generalizing now with
  | nil => rfl
  | cons name names ih => exact ih.trans (afterTag_unfed behind)

/-- Only the tags that the document mentions have something to do: the passes bring no name in. -/
theorem foldl_afterTag_filter (hplain : ∀ n ∈ names, ∀ c ∈ n, isPlain c = true)
    (hfed : Fed doc now) : names.foldl (afterTag doc) now =
      (names.filter (mentionsTag doc)).foldl (afterTag doc) now := by
  induction names generalizing now with
  | nil => rfl
  | cons name names ih =>
    have hrest : ∀ n ∈ names, ∀ c ∈ n, isPlain c = true := fun n hn => hplain n (by simp [hn])
    by_cases h : mentionsTag doc name = true
    · rw [List.filter_cons_of_pos h]
      exact ih hrest (hfed.trans afterTag_fed)
    · rw [List.filter_cons_of_neg h, List.foldl_cons, afterTag_of_unmentioned]
      · exact ih hrest hfed
      · exact mentionsTag_of_fed hfed (hplain name (by simp)) (Bool.eq_false_iff.2 h)

/-- The order of the listed tags decides at most how many line feeds stand behind a closing brace,
and nothing if the text mentions only one of them. -/
theorem blankLinesAfter_perm {s' : Settings} {names' : List (List Char)}
    (hnames : listedTags s.blankLineAfterTag = .ok names)
    (hnames' : listedTags s'.blankLineAfterTag = .ok names') (hperm : names.Perm names')
    (hplain : ∀ n ∈ names, ∀ c ∈ n, isPlain c = true) (text : List Char) :
    ∃ a b, blankLinesAfter s text = .ok a ∧ blankLinesAfter s' text = .ok b ∧
      unfed false a = unfed false b ∧ ((names.filter (mentionsTag text)).length ≤ 1 → a = b) := by
  have hplain' : ∀ n ∈ names', ∀ c ∈ n, isPlain c = true := fun n hn =>
    hplain n (hperm.mem_iff.2 hn)
  refine ⟨_, _, blankLinesAfter_eq_foldl hnames hplain text,
    blankLinesAfter_eq_foldl hnames' hplain' text, ?_, ?_⟩
  · rw [foldl_afterTag_unfed, foldl_afterTag_unfed]
  · intro hone
    have hfilter := hperm.filter (mentionsTag text)
    rw [foldl_afterTag_filter hplain (Spread.refl (o := ' ') (c := ' ') text).fed,
      foldl_afterTag_filter hplain' (Spread.refl (o := ' ') (c := ' ') text).fed]
    have heq : names.filter (mentionsTag text) = names'.filter (mentionsTag text) := by
      generalize names.filter (mentionsTag text) = ns at hone hfilter ⊢
      obtain _ | ⟨n, _ | ⟨n', ns⟩⟩ := ns
      · exact (List.nil_perm.1 hfilter).symm
      · exact List.singleton_perm.1 hfilter
      · simp at hone
    rw [heq]

end Layout

end TemplateTidy
