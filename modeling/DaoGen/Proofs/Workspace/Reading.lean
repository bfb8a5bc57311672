import DaoGen.Proofs.Helper.Overlooked
import DaoGen.Proofs.Workspace.Agreement
set_option autoImplicit false

/-!
# What a pass reads

A pass reads the files below the source directory one by one, so the sources are those at some
locations together with those at all others, in some order (`Workspace.exists_sourcesAt`,
`Workspace.exists_sources`).  What is read from locations where nothing is written is read again
after writing (`Workspace.sourcesAt_generated`).
-/

namespace DaoGen.Workspace

open DaoGen.Source (SourceFile)

/-! ## One file after the other -/

section

variable {ε α β : Type} {f : α → Except ε β}

theorem mapM_eq_ok_iff {l : List α} {results : List β} :
    l.mapM f = .ok results ↔ List.Forall₂ (fun a b => f a = .ok b) l results := by
  induction l generalizing results with
  | nil =>
    rw [List.mapM_nil, List.forall₂_nil_left_iff]
    exact ⟨fun h => (Except.ok.inj h).symm, fun h => h ▸ rfl⟩
  | cons a l ih =>
    rw [List.mapM_cons, List.forall₂_cons_left_iff]
    cases f a with
    | error e => simp [bind, Except.bind]
    | ok b =>
      cases hrest : l.mapM f with
      | error e =>
        simp only [hrest, reduceCtorEq, false_iff] at ih
        simp [bind, Except.bind, ih]
      | ok bs =>
        simp only [hrest, Except.ok.injEq] at ih
        simp [bind, Except.bind, pure, Except.pure, ← ih]
        exact eq_comm

/-- In another order the results are the same, in that order. -/
theorem exists_mapM_of_perm {l l' : List α} (h : l.Perm l') {results : List β}
    (hresults : l.mapM f = .ok results) :
    ∃ results', l'.mapM f = .ok results' ∧ results.Perm results' := by
  obtain ⟨results', hall, hperm⟩ := List.perm_comp_forall₂ h.symm (mapM_eq_ok_iff.1 hresults)
  exact ⟨results', mapM_eq_ok_iff.2 hall, hperm.symm⟩

theorem mapM_append_eq_ok_iff {l l' : List α} {results : List β} :
    (l ++ l').mapM f = .ok results ↔
      ∃ a b, l.mapM f = .ok a ∧ l'.mapM f = .ok b ∧ a ++ b = results := by
  rw [List.mapM_append]
  cases l.mapM f with
  | error e => simp [bind, Except.bind]
  | ok a =>
    cases l'.mapM f with
    | error e => simp [bind, Except.bind]
    | ok b => simp [bind, Except.bind, pure, Except.pure]

/-- The results for a list are those for its elements that fail a test and those that pass it. -/
theorem exists_mapM_of_filter {l : List α} {test : α → Bool} {a b : List β}
    (ha : (l.filter (!test ·)).mapM f = .ok a) (hb : (l.filter test).mapM f = .ok b) :
    ∃ results, l.mapM f = .ok results ∧ (a ++ b).Perm results :=
  exists_mapM_of_perm (List.perm_append_comm.trans (List.filter_append_perm test l))
    (mapM_append_eq_ok_iff.2 ⟨a, b, ha, hb, rfl⟩)

theorem exists_filter_of_mapM {l : List α} (test : α → Bool) {results : List β}
    (h : l.mapM f = .ok results) :
    ∃ a b, (l.filter (!test ·)).mapM f = .ok a ∧ (l.filter test).mapM f = .ok b ∧
      (a ++ b).Perm results := by
  have hsplit := (List.perm_append_comm.trans (List.filter_append_perm test l)).symm
  obtain ⟨_, hall, hperm⟩ := exists_mapM_of_perm hsplit h
  obtain ⟨a, b, ha, hb, rfl⟩ := mapM_append_eq_ok_iff.1 hall
  exact ⟨a, b, ha, hb, hperm.symm⟩

end

/-! ## Sources by location -/

/-- Reads a file below a directory as a source. -/
def readSource (read : Source.Reader) (directory : Path) (file : Location × Content) :
    Except Failure SourceFile :=
  match Tree.readEntry (.file file.2) with
  | .error o => .error (.unreadable (directory.below file.1) o.message)
  | .ok text => read (directory.below file.1) text

/-- The files below a directory that are read as sources. -/
def sourceFiles (w : Workspace) (language : Language) (directory : Path) :
    List (Location × Content) :=
  (w.tree.filesBelow directory.location).filter fun file =>
    isSource language (directory.below file.1)

/-- The sources that a pass reads from the locations that pass a test. -/
def sourcesAt (w : Workspace) (s : Settings) (read : Source.Reader) (test : Location → Bool) :
    Except Failure (List SourceFile) :=
  let directory := w.absolute s.sourceDir
  match Language.ofName? s.language with
  | none => .error (.unsupportedLanguage s.language)
  | some language =>
    ((w.sourceFiles language directory).filter fun file =>
      test (directory.location ++ file.1)).mapM (readSource read directory)

theorem sources_eq (w : Workspace) (language : Language) (directory : Path)
    (read : Source.Reader) :
    w.sources language directory read =
      (w.sourceFiles language directory).mapM (readSource read directory) := by
  have hfiles : ∀ files : List (Location × Content),
      (files.filterMap fun file =>
        if isSource language (directory.below file.1) then
          some (directory.below file.1, file.2) else none) =
      (files.filter fun file => isSource language (directory.below file.1)).map fun file =>
        (directory.below file.1, file.2) := by
    intro files
    induction files with
    | nil => rfl
    | cons file rest ih =>
      by_cases hsource : isSource language (directory.below file.1) = true
      · simp only [List.filterMap_cons, List.filter_cons, hsource, if_true, List.map_cons, ih]
      · simp only [List.filterMap_cons, List.filter_cons, if_neg hsource, ih]
  unfold sources
  dsimp only
  rw [hfiles, List.mapM_map]
  rfl

/-- What a pass makes of the sources that it has read. -/
def analysisOf (w : Workspace) (s : Settings) (files : List SourceFile) : Analysis :=
  ⟨(Schema.Registry.ofProgram (Program.ofSources (w.absolute s.sourceDir) files)).tables.length,
    Validation.ofSources s.runtime (w.absolute s.sourceDir) files⟩

theorem analyze_eq_ok_iff {w : Workspace} {s : Settings} {read : Source.Reader} {a : Analysis} :
    w.analyze s read = .ok a ↔ ∃ language, Language.ofName? s.language = some language ∧
      w.tree.isDirectory (w.absolute s.sourceDir) = true ∧
      ∃ files, w.sources language (w.absolute s.sourceDir) read = .ok files ∧
        a = w.analysisOf s files := by
  unfold analyze
  dsimp only
  cases Language.ofName? s.language with
  | none => simp [throw, throwThe, MonadExceptOf.throw]
  | some language =>
    dsimp only
    by_cases hdirectory : w.tree.isDirectory (w.absolute s.sourceDir) = true
    · rw [if_pos hdirectory]
      cases hsources : w.sources language (w.absolute s.sourceDir) read with
      | error e => simp [hdirectory, hsources, bind, Except.bind]
      | ok files =>
        simp [hdirectory, hsources, bind, Except.bind, pure, Except.pure, analysisOf,
          Validation.ofSources, eq_comm]
    · rw [if_neg hdirectory]
      simp [hdirectory, throw, throwThe, MonadExceptOf.throw]

section

variable {w : Workspace} {s : Settings} {read : Source.Reader} {language : Language}

/-- The sources are those at some locations and those at all others. -/
theorem exists_sourcesAt (hlanguage : Language.ofName? s.language = some language)
    (test : Location → Bool) {files : List SourceFile}
    (h : w.sources language (w.absolute s.sourceDir) read = .ok files) :
    ∃ others own, w.sourcesAt s read (!test ·) = .ok others ∧ w.sourcesAt s read test = .ok own ∧
      (others ++ own).Perm files := by
  rw [sources_eq] at h
  unfold sourcesAt
  rw [hlanguage]
  exact exists_filter_of_mapM _ h

theorem exists_sources (hlanguage : Language.ofName? s.language = some language)
    {test : Location → Bool} {others own : List SourceFile}
    (hothers : w.sourcesAt s read (!test ·) = .ok others)
    (hown : w.sourcesAt s read test = .ok own) :
    ∃ files, w.sources language (w.absolute s.sourceDir) read = .ok files ∧
      (others ++ own).Perm files := by
  unfold sourcesAt at hothers hown
  rw [hlanguage] at hothers hown
  rw [sources_eq]
  exact exists_mapM_of_filter hothers hown

end

/-! ## Reading after writing -/

/-- A file below a directory, by the names that lead to it from there. -/
def fileBelow? (directory : Location) (entry : Location × Entry) : Option (Location × Content) :=
  match entry.2 with
  | .directory => none
  | .file content =>
    if directory.isPrefixOf entry.1 then some (entry.1.drop directory.length, content) else none

theorem filesBelow_perm (t : Tree) (directory : Location) :
    (t.filesBelow directory).Perm (t.entries.filterMap (fileBelow? directory)) :=
  sortBy_perm _ _

/-- The location of a file below a directory. -/
theorem append_of_fileBelow? {directory : Location} {entry : Location × Entry}
    {file : Location × Content} (h : fileBelow? directory entry = some file) :
    directory ++ file.1 = entry.1 := by
  unfold fileBelow? at h
  split at h
  · cases h
  · split at h
    · rename_i hprefix
      cases h
      obtain ⟨rest, hrest⟩ := List.isPrefixOf_iff_prefix.1 hprefix
      rw [← hrest, List.drop_left]
    · cases h

/-- The files that are read from some locations, as what is read from the entries. -/
theorem filter_sourceFiles_perm (w : Workspace) (language : Language) (directory : Path)
    (test : Location → Bool) :
    ((w.sourceFiles language directory).filter fun file =>
        test (directory.location ++ file.1)).Perm
      (w.tree.entries.filterMap fun entry =>
        (fileBelow? directory.location entry).filter fun file =>
          test (directory.location ++ file.1) && isSource language (directory.below file.1)) := by
  unfold sourceFiles
  rw [List.filter_filter, ← List.filter_filterMap]
  exact (filesBelow_perm w.tree directory.location).filter _

/-- The sources at locations where nothing is written are read again after writing. -/
theorem sourcesAt_generated {w : Workspace} {s : Settings} {read : Source.Reader}
    (test : Location → Bool)
    (htest : ∀ f ∈ w.generatedFiles s read, test (targetOf (w.absolute s.outDir) f) = false)
    {others : List SourceFile} (h : w.sourcesAt s read test = .ok others) :
    ∃ others', (w.generated s read).sourcesAt s read test = .ok others' ∧ others.Perm others' := by
  unfold sourcesAt at h ⊢
  dsimp only at h ⊢
  cases hlanguage : Language.ofName? s.language with
  | none =>
    rw [hlanguage] at h
    cases h
  | some language =>
    rw [hlanguage] at h
    have hsame : (w.generated s read).absolute s.sourceDir = w.absolute s.sourceDir := rfl
    have htree : (w.generated s read).tree =
        (writeFiles w.tree (w.absolute s.outDir) (w.generatedFiles s read)).tree :=
      generate_tree w s read
    have hentries : ∀ directory : Path, ((w.generated s read).tree.entries.filterMap fun entry =>
        (fileBelow? directory.location entry).filter fun file =>
          test (directory.location ++ file.1) && isSource language (directory.below file.1)) =
        w.tree.entries.filterMap fun entry =>
          (fileBelow? directory.location entry).filter fun file =>
            test (directory.location ++ file.1) && isSource language (directory.below file.1) := by
      intro directory
      rw [htree]
      refine filterMap_writeFiles _ (fun _ => rfl) fun f hf e => ?_
      cases hfile : fileBelow? directory.location (targetOf (w.absolute s.outDir) f, e) with
      | none => rfl
      | some file =>
        rw [Option.filter_some, append_of_fileBelow? hfile, htest f hf]
        rfl
    rw [hsame]
    refine exists_mapM_of_perm ?_ h
    have hbefore := filter_sourceFiles_perm w language (w.absolute s.sourceDir) test
    have hafter :=
      filter_sourceFiles_perm (w.generated s read) language (w.absolute s.sourceDir) test
    rw [hentries] at hafter
    exact hbefore.trans hafter.symm

end DaoGen.Workspace
