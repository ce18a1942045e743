import TemplateTidy.Discovery
import TemplateTidy.Proofs.Report.Count

/-! # The files that a run finds

Below a directory a run takes the files with the extension that are not excluded, have the pragma
and pass the ignore file (`mem_filesOf_iff`).  The ignore file is asked about the absolute path,
whose components it sees from the root of all on.  So it leaves out what it ignores by the path from
the directory on just where its rules say the same of both paths (`mem_filesOf_iff_relative`).  What
a run finds for all of its sources is eligible but for one thing: where no pragma is asked for, the
search takes directories with the extension too (`eligible_of_discover`). -/

namespace TemplateTidy

namespace Files.Glob

/-! ### Searching for an extension -/

theorem fits_any {ps : List Piece} {w : List Char} :
    fits (.any :: ps) w = true ↔ ∃ u v, w = u ++ v ∧ fits ps v = true := by
  rw [fits]
  induction w with
  | nil =>
    rw [fits.fitsAfter]
    constructor
    · exact fun h => ⟨[], [], rfl, h⟩
    · rintro ⟨u, v, hw, h⟩
      exact (List.append_eq_nil_iff.1 hw.symm).2 ▸ h
  | cons c w ih =>
    rw [fits.fitsAfter, Bool.or_eq_true, ih]
    constructor
    · rintro (h | ⟨u, v, rfl, h⟩)
      · exact ⟨[], c :: w, rfl, h⟩
      · exact ⟨c :: u, v, rfl, h⟩
    · rintro ⟨u, v, hw, h⟩
      cases u with
      | nil => exact .inl (hw ▸ h)
      | cons d u => exact .inr ⟨u, v, (List.cons.inj hw).2, h⟩

theorem fits_literals : ∀ {w v : List Char}, fits (w.map .literal) v = true ↔ v = w
  | [], v => by cases v <;> simp [fits]
  | c :: w, [] => by simp [fits]
  | c :: w, d :: v => by
      have ih := @fits_literals w v
      simp [fits, Piece.takes, ih]

/-- What a search for an extension looks for in each directory. -/
def extensionPieces (ext : String) : List Piece :=
  .any :: ('.' :: ext.toList).map .literal

theorem fits_extensionPieces {ext : String} {name : List Char} :
    fits (extensionPieces ext) name = true ↔ ∃ stem, name = stem ++ '.' :: ext.toList := by
  rw [extensionPieces, fits_any]
  simp only [fits_literals]
  constructor
  · rintro ⟨stem, _, rfl, rfl⟩
    exact ⟨stem, rfl⟩
  · rintro ⟨stem, rfl⟩
    exact ⟨stem, _, rfl, rfl⟩

/-- A plain extension: no separator and no wildcard. -/
def IsExtension (ext : String) : Prop :=
  ∀ c ∈ ext.toList, c ≠ '/' ∧ c ≠ '*' ∧ c ≠ '?' ∧ c ≠ '['

theorem piecesFrom_literals : ∀ {w : List Char}, (∀ c ∈ w, c ≠ '*' ∧ c ≠ '?' ∧ c ≠ '[') →
    piecesFrom w.length w = w.map .literal
  | [], _ => rfl
  | c :: w, h => by
      obtain ⟨⟨hstar, hone, hset⟩, h⟩ := List.forall_mem_cons.1 h
      have ih := piecesFrom_literals h
      rw [List.length_cons, piecesFrom, ih, List.map_cons]
      · exact hstar
      · exact hone
      · exact hset

variable {t : Tree} {d f : Path} {ext : String}

theorem pieces_extension (hext : IsExtension ext) :
    pieces ('*' :: '.' :: ext.toList) = extensionPieces ext := by
  have hplain : ∀ c ∈ '.' :: ext.toList, c ≠ '*' ∧ c ≠ '?' ∧ c ≠ '[' :=
    List.forall_mem_cons.2 ⟨by decide, fun c hc => (hext c hc).2⟩
  exact congrArg (Piece.any :: ·) (piecesFrom_literals hplain)

theorem parts_extension (hext : IsExtension ext) :
    (Path.ofString ("**/*." ++ ext)).parts = ["**", String.ofList ('*' :: '.' :: ext.toList)] := by
  have htext : ("**/*." ++ ext).toList = ['*', '*'] ++ '/' :: ('*' :: '.' :: ext.toList) := by simp
  have hslash : '/' ∉ '*' :: '.' :: ext.toList := by
    simpa using fun hmem => (hext _ hmem).1 rfl
  have hsplit : ("**/*." ++ ext).toList.splitOn '/' = [['*', '*'], '*' :: '.' :: ext.toList] := by
    rw [htext, List.splitOn_append_cons_self, List.splitOn_eq_singleton hslash,
      List.splitOn_eq_singleton (by decide)]
    rfl
  unfold Path.ofString
  rw [hsplit]
  have hne : ∀ x : String, x.toList.head? ≠ some '*' →
      (String.ofList ('*' :: '.' :: ext.toList) != x) = true := by
    intro x hx
    refine bne_iff_ne.2 fun heq => hx ?_
    rw [← heq, String.toList_ofList]
    rfl
  refine (List.filter_eq_self.2 ?_).trans rfl
  refine List.forall_mem_cons.2 ⟨by decide, List.forall_mem_singleton.2 ?_⟩
  rw [hne "" (by simp), hne "." (by simp), Bool.and_true]

theorem contains_stars_eq_false : ∀ {w : List Char}, '*' ∉ w → Text.contains ['*', '*'] w = false
  | [], _ => rfl
  | c :: w, h => by
      rw [List.mem_cons, not_or] at h
      rw [Text.contains, contains_stars_eq_false h.2, Bool.or_false, List.isPrefixOf,
        beq_eq_false_iff_ne.2 h.1, Bool.false_and]

theorem ofString_extension (hext : IsExtension ext) :
    Component.ofString (String.ofList ('*' :: '.' :: ext.toList)) =
    .ok (.name (extensionPieces ext)) := by
  have hstars : Text.contains ['*', '*'] ('*' :: '.' :: ext.toList) = false := by
    have hmem : '*' ∉ '.' :: ext.toList := by simpa using fun hmem => (hext _ hmem).2.1 rfl
    rw [Text.contains, contains_stars_eq_false hmem]
    rfl
  have hne : ∀ x : String, x.toList[1]? ≠ some '.' ∨ x.toList.head? ≠ some '*' →
      String.ofList ('*' :: '.' :: ext.toList) ≠ x := by
    rintro _ hx rfl
    simp at hx
  unfold Component.ofString
  rw [if_neg (hne "**" (.inl (by simp))), if_neg (hne ".." (.inr (by simp))), String.toList_ofList,
    hstars, pieces_extension hext]
  rfl

theorem search_extension (hext : IsExtension ext) (hend : ("**/*." ++ ext).endsWith "/" = false) :
    search t d ("**/*." ++ ext) =
      .ok (if t.isDirectory d then select t [.anyDepth,
      .name (extensionPieces ext)] d else []) := by
  unfold search
  rw [parts_extension hext, hend, List.mapM_cons, List.mapM_cons, ofString_extension hext]
  rfl

/-- The search finds what stands with the extension in the directory or in one below it. -/
theorem mem_select_extension :
    f ∈ select t [.anyDepth, .name (extensionPieces ext)] d ↔
      ∃ dir ∈ directoriesFrom t d, f ∈ entriesOf t dir ∧ ∃ stem, f.name.toList = stem ++
      '.' :: ext.toList := by
  simp [select, fits_extensionPieces]

end Files.Glob

/-! ### Asking the ignore file -/

namespace Files.IgnoreFile

variable {rules : IgnoreFile} {parts : List String}

/-- What the rules say of a path by its components: the last rule that matches decides. -/
def verdict (rules : IgnoreFile) (parts : List String) : Bool :=
  rules.foldl (fun ignored rule =>
    if (rule.pattern.matchStart? ("/".intercalate parts).toList.toArray).isSome then rule.ignores
      else ignored) false

theorem ignores_absolute : rules.ignores (Path.render ⟨true, parts⟩) = rules.verdict parts := by
  have htext : (Path.render ⟨true, parts⟩).toList = '/' :: ("/".intercalate parts).toList := by
    simp [Path.render]
  unfold ignores verdict
  rw [htext]
  rfl

/-- Components that are written as they are: not empty, without separators, and not a dot at the
beginning. -/
structure IsRelative (parts : List String) : Prop where
  ne_nil : parts ≠ []
  head : parts.head? ≠ some "."
  names : ∀ n ∈ parts, n ≠ "" ∧ '/' ∉ n.toList

theorem ignores_relative (h : IsRelative parts) :
    rules.ignores (Path.render ⟨false, parts⟩) = rules.verdict parts := by
  obtain ⟨first, rest, rfl⟩ := List.exists_cons_of_ne_nil h.ne_nil
  obtain ⟨hne, hslash⟩ := h.names first (by simp)
  have hdot : first.toList ≠ ['.'] := fun heq => h.head (congrArg some (String.toList_inj.1 heq))
  obtain ⟨c, name, hname⟩ := List.exists_cons_of_ne_nil (by simpa using hne : first.toList ≠ [])
  rw [hname, List.mem_cons, not_or] at hslash
  -- the text goes on with the name of the first component, and not with a slash or a dot and a
  -- slash
  have htext : ∃ tail, ("/".intercalate (first :: rest)).toList = c :: (name ++ tail) := by
    rw [String.toList_intercalate, List.map_cons, hname]
    cases rest with
    | nil => exact ⟨[], by simp⟩
    | cons second rest =>
      exact ⟨_, by rw [List.map_cons, List.intercalate_cons_cons, List.append_assoc]; rfl⟩
  obtain ⟨tail, htext⟩ := htext
  have hrender : (Path.render ⟨false, first :: rest⟩).toList = c :: (name ++ tail) := htext
  unfold ignores verdict
  rw [hrender, htext]
  split
  next heq => exact absurd (List.cons.inj heq).1.symm hslash.1
  next heq =>
    obtain ⟨rfl, htail⟩ := List.cons.inj heq
    cases name with
    | nil => exact absurd hname hdot
    | cons d name => exact absurd (List.mem_cons.2 (.inl (List.cons.inj htail).1.symm)) hslash.2
  next => rfl

end Files.IgnoreFile

namespace Discovery

open Files Files.Glob

variable {s : Settings} {t : Tree} {source f : Path} {files : List Path}

/-! ### The files of a directory -/

theorem isTaken_iff : isTaken s t f = .ok true ↔
    isExcluded s f = .ok false ∧ hasPragma s t f = .ok true ∧ passesIgnoreFile s f = true := by
  unfold isTaken
  constructor
  · intro h
    obtain ⟨out, hout, h⟩ := Outcome.exists_of_bind h
    cases out with
    | true => cases h
    | false =>
      obtain ⟨marked, hmarked, h⟩ := Outcome.exists_of_bind h
      cases marked with
      | false => cases h
      | true => exact ⟨hout, hmarked, Except.ok.inj h⟩
  · rintro ⟨hout, hmarked, hpass⟩
    rw [hout, hmarked, hpass]
    rfl

section directory

variable (hext : IsExtension (extensionOf s))
  (hend : ("**/*." ++ extensionOf s).endsWith "/" = false)
  (hdir : t.isDirectory (t.resolve source) = true) (hfiles : filesOf s t source = .ok files)
include hext hend hdir hfiles

/-- The files of a directory: those with the extension that stand in it or below and that are
taken. -/
theorem mem_filesOf_iff :
    f ∈ files ↔ (∃ dir ∈ directoriesFrom t (t.resolve source), f ∈ entriesOf t dir ∧
        ∃ stem, f.name.toList = stem ++ '.' :: (extensionOf s).toList) ∧
      isExcluded s f = .ok false ∧ hasPragma s t f = .ok true ∧ passesIgnoreFile s f = true := by
  have hfile : t.isFile (t.resolve source) = false := by
    unfold Tree.isDirectory at hdir
    unfold Tree.isFile
    split at hdir
    next hentry => rw [hentry]
    next => cases hdir
  have hfilter : (select t [.anyDepth, .name (extensionPieces (extensionOf s))]
    (t.resolve source)).filterM
      (isTaken s t) = .ok files := by
    rw [← hfiles]
    unfold filesOf
    simp only [hfile, Bool.false_eq_true, if_false, search_extension hext hend, hdir, if_true]
    rfl
  rw [Outcome.mem_filterM_iff hfilter, mem_select_extension, isTaken_iff]

/-- The path `rel` below the directory `root` leads to a file that is taken if only the ignore file
lets it through. -/
structure IsCandidate (s : Settings) (t : Tree) (root : Path) (rel : List String) : Prop where
  relative : IgnoreFile.IsRelative rel
  found : ∃ dir ∈ directoriesFrom t root, ⟨true, root.parts ++ rel⟩ ∈ entriesOf t dir
  extension : ∃ stem, (⟨true, root.parts ++ rel⟩ : Files.Path).name.toList = stem ++
    '.' :: (extensionOf s).toList
  kept : isExcluded s ⟨true, root.parts ++ rel⟩ = .ok false
  marked : hasPragma s t ⟨true, root.parts ++ rel⟩ = .ok true

/-- A file below a directory is taken exactly if its path from the directory on is not ignored, just
where the rules say the same of the absolute path. -/
theorem mem_filesOf_iff_relative (huse : s.useGitignore.truthy = true) {rel : List String}
    (hrel : IsCandidate s t (t.resolve source) rel) :
    (⟨true, (t.resolve source).parts ++ rel⟩ ∈ files ↔
      s.gitignore.ignores (Path.render ⟨false, rel⟩) = false) ↔
      s.gitignore.verdict ((t.resolve source).parts ++ rel) = s.gitignore.verdict rel := by
  have htaken : ⟨true, (t.resolve source).parts ++ rel⟩ ∈ files ↔
      s.gitignore.verdict ((t.resolve source).parts ++ rel) = false := by
    obtain ⟨dir, hin, hentry⟩ := hrel.found
    rw [mem_filesOf_iff hext hend hdir hfiles, ← IgnoreFile.ignores_absolute]
    constructor
    · rintro ⟨-, -, -, hpass⟩
      simpa [passesIgnoreFile, huse] using hpass
    · intro hpass
      exact ⟨⟨dir, hin, hentry, hrel.extension⟩, hrel.kept,
        hrel.marked, by simp [passesIgnoreFile, hpass]⟩
  rw [htaken, IgnoreFile.ignores_relative hrel.relative]
  cases s.gitignore.verdict ((t.resolve source).parts ++ rel) <;> cases s.gitignore.verdict rel <;>
    simp

end directory

/-! ### The files of all sources -/

/-- A source that is taken itself. -/
structure IsNamed (s : Settings) (t : Tree) (p : Path) : Prop where
  file : t.isFile p = true
  marked : hasPragma s t p = .ok true
  passes : passesIgnoreFile s p = true

/-- A source is taken itself, or else it stands for what the search below it finds and takes. -/
theorem of_filesOf (h : filesOf s t source = .ok files) :
    (IsNamed s t (t.resolve source) ∧ files = [t.resolve source]) ∨
      (¬IsNamed s t (t.resolve source) ∧ ∃ found,
        search t (t.resolve source) ("**/*." ++ extensionOf s) = .ok found ∧
        ∀ f, f ∈ files ↔ f ∈ found ∧ isTaken s t f = .ok true) := by
  -- a source that is not taken itself is searched, for whichever reason that is
  have hbelow : ∀ h : (do (← search t (t.resolve source) ("**/*." ++ extensionOf s)).filterM (isTaken s t)) = .ok files,
      ∃ found, search t (t.resolve source) ("**/*." ++ extensionOf s) = .ok found ∧
        ∀ f, f ∈ files ↔ f ∈ found ∧ isTaken s t f = .ok true := by
    intro h
    obtain ⟨found, hfound, h⟩ := Outcome.exists_of_bind h
    exact ⟨found, hfound, fun f => Outcome.mem_filterM_iff h⟩
  unfold filesOf at h
  simp only [pure_bind, Bool.false_eq_true, if_false] at h
  split at h
  next hfile =>
    obtain ⟨marked, hmarked, h⟩ := Outcome.exists_of_bind h
    cases marked with
    | false =>
      rw [if_neg Bool.false_ne_true] at h
      refine .inr ⟨fun hnamed => ?_, hbelow h⟩
      cases hmarked.symm.trans hnamed.marked
    | true =>
      rw [if_pos rfl] at h
      split at h
      next hpass => exact .inl ⟨⟨hfile, hmarked, hpass⟩, (Except.ok.inj h).symm⟩
      next hpass => exact .inr ⟨fun hnamed => hpass hnamed.passes, hbelow h⟩
  next hfile => exact .inr ⟨fun hnamed => hfile hnamed.file, hbelow h⟩

/-- What has a pragma that is asked for is a regular file. -/
theorem isFile_of_hasPragma (h : hasPragma s t f = .ok true) :
    t.isFile f = true ∨ s.requirePragma.isBool false = true := by
  unfold hasPragma at h
  split at h
  next hnone => exact .inr hnone
  next =>
    obtain ⟨bytes, hbytes, -⟩ := Outcome.exists_of_bind h
    refine .inl ?_
    unfold Tree.readBytes at hbytes
    unfold Tree.isFile
    split at hbytes
    next hentry => rw [hentry]
    next => cases hbytes
    next => split at hbytes <;> cases hbytes

/-- All that a run finds has the pragma and passes the ignore file, and what is not one of the given
paths is not excluded.  It is a regular file if it is one of the given paths or a pragma is asked
for; else it is what the search below a source finds, which may be a directory. -/
theorem eligible_of_discover {sources : List Path} {j j' : Journal}
    (h : (discover s t sources).run.run j = (.ok files, j')) (hf : f ∈ files) :
    hasPragma s t f = .ok true ∧ passesIgnoreFile s f = true ∧ ∃ source ∈ sources,
      (f = t.resolve source ∧ t.isFile f = true) ∨
      (isExcluded s f = .ok false ∧ (t.isFile f = true ∨ s.requirePragma.isBool false = true) ∧
        ∃ found, search t (t.resolve source) ("**/*." ++ extensionOf s) = .ok found ∧
        f ∈ found) := by
  obtain ⟨parts, d, hparts, h⟩ := Stateful.exists_of_bind h
  have hparts := (Stateful.of_lift hparts).1
  have hfiles : parts.flatten = files := by
    dsimp only at h
    split at h
    · obtain ⟨-, e, -, h⟩ := Stateful.exists_of_bind h
      exact (Stateful.of_pure h).1
    · exact (Stateful.of_pure h).1
  obtain ⟨part, hpart, hf⟩ := List.mem_flatten.1 (hfiles ▸ hf)
  obtain ⟨source, hsource, hpart⟩ := Outcome.exists_of_mem_mapM hparts part hpart
  obtain ⟨hnamed, rfl⟩ | ⟨-, found, hfound, hiff⟩ := of_filesOf hpart
  · obtain rfl := List.mem_singleton.1 hf
    exact ⟨hnamed.marked, hnamed.passes, source, hsource, .inl ⟨rfl, hnamed.file⟩⟩
  · obtain ⟨hmem, htaken⟩ := (hiff f).1 hf
    obtain ⟨hkept, hmarked, hpass⟩ := isTaken_iff.1 htaken
    exact ⟨hmarked, hpass, source, hsource, .inr ⟨hkept, isFile_of_hasPragma hmarked, found,
      hfound, hmem⟩⟩

end Discovery

end TemplateTidy
