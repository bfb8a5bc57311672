import DaoGen.Proofs.Workspace.Reading
set_option autoImplicit false

/-!
# Generating again

Writing the same files again makes no directory and leaves every location as it was
(`Workspace.writeFiles_again`).  A generated module below the source directory becomes a source of
the next pass, and a class that extends the one generated for it is then complained about
(`Workspace.rejected_with_generated_class`).  As long as no source looks up a generated class
(`Workspace.Overlooks`), as when the output directory lies elsewhere
(`Workspace.overlooks_of_apart`), the sources are analyzed alike, and generating again gives the
same result (`Workspace.generate_again`).
-/

namespace DaoGen.Workspace

/-! ## Writing again -/

section

variable {t : Tree} {outDir : Path} {files : List Emit.GeneratedFile}

theorem directory_of_writeFiles {l : Location} (h : t.get? l = some .directory) :
    (writeFiles t outDir files).tree.get? l = some .directory := by
  by_cases hne : files = []
  · subst hne
    exact h
  · have hdirectory := Tree.directory_of_makeDirectories t outDir h
    cases hmade : (t.makeDirectories outDir).2 with
    | some o => rwa [(writeFiles_of_obstacle hne hmade).1]
    | none => rwa [writeFiles_of_made hne hmade, directory_of_foldl_writeFile]

variable (hne : files ≠ []) (hfailures : (writeFiles t outDir files).failures = 0)

include hne hfailures

/-- When all files are written the output directory was made. -/
theorem makeDirectories_of_failures : (t.makeDirectories outDir).2 = none := by
  cases hmade : (t.makeDirectories outDir).2 with
  | none => rfl
  | some o =>
    rw [(writeFiles_of_obstacle hne hmade).2.2] at hfailures
    exact absurd (List.eq_nil_of_length_eq_zero hfailures) hne

/-- When all files are written nothing stood in the way of any. -/
theorem isFree_of_failures {f : Emit.GeneratedFile} (hf : f ∈ files) :
    isFree outDir (t.makeDirectories outDir).1 f = true := by
  rw [writeFiles_of_made hne (makeDirectories_of_failures hne hfailures),
    failures_foldl_writeFile, Nat.zero_add, List.countP_eq_zero] at hfailures
  simpa using hfailures f hf

end

/-- Once all files were written, writing them again writes them all and changes nothing. -/
theorem writeFiles_again {t : Tree} (hclosed : t.Closed) {outDir : Path}
    {files : List Emit.GeneratedFile} (hfailures : (writeFiles t outDir files).failures = 0) :
    let done := writeFiles t outDir files
    let again := writeFiles done.tree outDir files
    again.written = done.written ∧ again.failures = 0 ∧
      ∀ l, again.tree.get? l = done.tree.get? l := by
  intro done again
  by_cases hne : files = []
  · subst hne
    exact ⟨rfl, rfl, fun l => rfl⟩
  · have hmade := makeDirectories_of_failures hne hfailures
    have hfree : files.filter (isFree outDir (t.makeDirectories outDir).1) = files :=
      List.filter_eq_self.2 fun f hf => isFree_of_failures hne hfailures hf
    have hdone : done = files.foldl (writeFile outDir)
        { tree := (t.makeDirectories outDir).1, tried := files } := writeFiles_of_made hne hmade
    -- the output directory is there, so it is not made again
    have hthere : done.tree.makeDirectories outDir = (done.tree, none) := by
      have hway : done.tree.LeadsTo outDir.location := by
        intro k hk
        rw [hdone, directory_of_foldl_writeFile]
        exact Tree.leadsTo_makeDirectories hclosed hmade k hk
      exact Tree.makeDirectories_of_leadsTo (Tree.isTooLong_of_makeDirectories hmade) hway
    have hagain : again = files.foldl (writeFile outDir) { tree := done.tree, tried := files } := by
      have hmadeAgain : (done.tree.makeDirectories outDir).2 = none := by rw [hthere]
      rw [show again = _ from writeFiles_of_made hne hmadeAgain, hthere]
    have hfreeAgain : isFree outDir done.tree = isFree outDir (t.makeDirectories outDir).1 := by
      funext f
      rw [hdone, isFree_foldl_writeFile]
    refine ⟨?_, ?_, fun l => ?_⟩
    · rw [hagain, written_foldl_writeFile, hfreeAgain, hdone, written_foldl_writeFile]
    · rw [hagain, failures_foldl_writeFile, hfreeAgain, Nat.zero_add, List.countP_eq_zero]
      intro f hf
      simp [isFree_of_failures hne hfailures hf]
    · rw [hagain, get?_foldl_writeFile, hfreeAgain, hfree, hdone, get?_foldl_writeFile, hfree,
        contentAfter_twice]

/-! ## Reading the sources again -/

/-- Whether a generated file is written to a location. -/
def isGenerated (w : Workspace) (s : Settings) (read : Source.Reader) (l : Location) : Bool :=
  (w.generatedFiles s read).any fun f => targetOf (w.absolute s.outDir) f = l

/-- The sources that a pass reads overlook those among them that lie at some locations. -/
def Overlooks (w : Workspace) (s : Settings) (read : Source.Reader) (own : Location → Bool) :
    Prop :=
  ∃ others made, w.sourcesAt s read (!own ·) = .ok others ∧ w.sourcesAt s read own = .ok made ∧
    ∀ g ∈ made, DaoGen.Overlooks others g

instance (w : Workspace) (s : Settings) (read : Source.Reader) (own : Location → Bool) :
    Decidable (w.Overlooks s read own) :=
  match hothers : w.sourcesAt s read (!own ·), hmade : w.sourcesAt s read own with
  | .ok others, .ok made =>
    decidable_of_iff (∀ g ∈ made, DaoGen.Overlooks others g) <| by
      constructor
      · exact fun h => ⟨others, made, hothers, hmade, h⟩
      · rintro ⟨_, _, hothers', hmade', h⟩
        obtain rfl := Except.ok.inj (hothers.symm.trans hothers')
        obtain rfl := Except.ok.inj (hmade.symm.trans hmade')
        exact h
  | .error _, _ => isFalse fun ⟨_, _, hothers', _⟩ => nomatch hothers.symm.trans hothers'
  | _, .error _ => isFalse fun ⟨_, _, _, hmade', _⟩ => nomatch hmade.symm.trans hmade'

section

variable {w : Workspace} {s : Settings} {read : Source.Reader}

theorem analysisOf_generated (files : List Source.SourceFile) :
    (w.generated s read).analysisOf s files = w.analysisOf s files := by
  have hsame : (w.generated s read).absolute s.sourceDir = w.absolute s.sourceDir := rfl
  rw [analysisOf, analysisOf, hsame]

/-- All other sources are read again. -/
theorem exists_others_generated {others : List Source.SourceFile}
    (h : w.sourcesAt s read (!w.isGenerated s read ·) = .ok others) :
    ∃ others', (w.generated s read).sourcesAt s read (!w.isGenerated s read ·) = .ok others' ∧
      others.Perm others' := by
  refine sourcesAt_generated (!w.isGenerated s read ·) (fun f hf => ?_) h
  have htarget : w.isGenerated s read (targetOf (w.absolute s.outDir) f) = true :=
    List.any_eq_true.2 ⟨f, hf, decide_eq_true rfl⟩
  rw [htarget]
  rfl

theorem overlooks_of_nil {own : Location → Bool} {others : List Source.SourceFile}
    (hothers : w.sourcesAt s read (!own ·) = .ok others) (hown : w.sourcesAt s read own = .ok []) :
    w.Overlooks s read own :=
  ⟨others, [], hothers, hown, fun _ hg => absurd hg List.not_mem_nil⟩

/-- When the sources overlook the generated modules, those that lie there before and those that
generating leaves, they are analyzed alike again. -/
theorem exists_analyze_generated {a : Analysis} (ha : w.analyze s read = .ok a)
    (hclean : a.validation.diagnostics = []) (hbefore : w.Overlooks s read (w.isGenerated s read))
    (hafter : (w.generated s read).Overlooks s read (w.isGenerated s read)) :
    ∃ again, (w.generated s read).analyze s read = .ok again ∧ again.validation.diagnostics = [] ∧
      again.validation.helpers.length = a.validation.helpers.length ∧ again.tables = a.tables ∧
      ∀ outDir, Emit.generate s.runtime outDir again.validation.helpers =
        Emit.generate s.runtime outDir a.validation.helpers := by
  obtain ⟨language, hlanguage, hdirectory, files, hfiles, rfl⟩ := analyze_eq_ok_iff.1 ha
  obtain ⟨others, old, hothers, hold, hoverlookOld⟩ := hbefore
  obtain ⟨others', new, hothers', hnew, hoverlookNew⟩ := hafter
  obtain ⟨files₁, hfiles₁, hperm₁⟩ := exists_sources hlanguage hothers hold
  obtain rfl := Except.ok.inj (hfiles.symm.trans hfiles₁)
  obtain ⟨files₂, hfiles₂, hperm₂⟩ := exists_sources hlanguage hothers' hnew
  obtain ⟨same, hsame, hperm⟩ := exists_others_generated hothers
  obtain rfl := Except.ok.inj (hothers'.symm.trans hsame)
  have hnewOverlooked : ∀ g ∈ new, DaoGen.Overlooks others g := fun g hg =>
    ⟨(hoverlookNew g hg).undecorated,
      fun f hf => (hoverlookNew g hg).unreached f (hperm.mem_iff.1 hf)⟩
  obtain ⟨hdiagnostics₁, halike₁⟩ :=
    validated_without s.runtime (w.absolute s.sourceDir) hperm₁ hoverlookOld
  obtain ⟨hdiagnostics₂, halike₂⟩ := validated_without s.runtime (w.absolute s.sourceDir)
    ((hperm.append_right new).trans hperm₂) hnewOverlooked
  have hnone := hdiagnostics₁.1 hclean
  obtain ⟨hgenerate₁, hhelpers₁, htables₁⟩ := halike₁ hnone
  obtain ⟨hgenerate₂, hhelpers₂, htables₂⟩ := halike₂ hnone
  have hdirectoryAgain : (w.generated s read).tree.isDirectory (w.absolute s.sourceDir) = true := by
    refine Tree.isDirectory_of_directories (fun l hl => ?_) hdirectory
    rw [generated, generate_tree]
    exact directory_of_writeFiles hl
  have hagain : (w.generated s read).analyze s read = .ok (w.analysisOf s files₂) := by
    rw [← analysisOf_generated]
    exact analyze_eq_ok_iff.2 ⟨language, hlanguage, hdirectoryAgain, files₂, hfiles₂, rfl⟩
  exact ⟨_, hagain, hdiagnostics₂.2 hnone, hhelpers₂.trans hhelpers₁.symm,
    htables₂.trans htables₁.symm, fun outDir => (hgenerate₂ outDir).trans (hgenerate₁ outDir).symm⟩

end

/-! ## Generating again -/

/-- A result of generating counts what was declared and written, without diagnostics. -/
theorem exists_of_generate_ok {w : Workspace} {s : Settings} {read : Source.Reader}
    {summary : Summary} (h : (w.generate s read).result = .ok summary) :
    ∃ a, w.analyze s read = .ok a ∧ a.validation.diagnostics = [] ∧
      summary = ⟨a.validation.helpers.length, a.tables,
        (writeFiles w.tree (w.absolute s.outDir) (w.generatedFiles s read)).written,
        (writeFiles w.tree (w.absolute s.outDir) (w.generatedFiles s read)).failures⟩ := by
  cases ha : w.analyze s read with
  | error f =>
    rw [generate, ha] at h
    cases h
  | ok a =>
    rw [generate_result ha] at h
    by_cases hdiagnostics : a.validation.diagnostics = []
    · rw [unlessRejected_of_nil hdiagnostics] at h
      cases h
      exact ⟨a, rfl, hdiagnostics, rfl⟩
    · rw [unlessRejected_of_ne_nil hdiagnostics] at h
      cases h

/-- Nothing is read from locations at which no source can lie. -/
theorem sourcesAt_eq_nil {w : Workspace} {s : Settings} {read : Source.Reader} {language : Language}
    (hlanguage : Language.ofName? s.language = some language) {test : Location → Bool}
    (h : ∀ names, test ((w.absolute s.sourceDir).location ++ names) = false) :
    w.sourcesAt s read test = .ok [] := by
  have hnone : ((w.sourceFiles language (w.absolute s.sourceDir)).filter fun file =>
      test ((w.absolute s.sourceDir).location ++ file.1)) = [] :=
    List.filter_eq_nil_iff.2 fun file _ => ne_true_of_eq_false (h file.1)
  unfold sourcesAt
  dsimp only
  rw [hlanguage]
  dsimp only
  rw [hnone, List.mapM_nil]
  rfl

/-- The sources overlook modules that are generated into a directory apart from theirs. -/
theorem overlooks_of_apart {w : Workspace} {s : Settings} {read : Source.Reader} {summary : Summary}
    (hresult : (w.generate s read).result = .ok summary) (hfailures : summary.failures = 0)
    (hapart : ¬ (w.absolute s.sourceDir).location <+: (w.absolute s.outDir).location) :
    w.Overlooks s read (w.isGenerated s read) ∧
      (w.generated s read).Overlooks s read (w.isGenerated s read) := by
  obtain ⟨a, ha, -, rfl⟩ := exists_of_generate_ok hresult
  obtain ⟨language, hlanguage, hdirectory, files, hfiles, -⟩ := analyze_eq_ok_iff.1 ha
  have hfar : ∀ names,
      w.isGenerated s read ((w.absolute s.sourceDir).location ++ names) = false := by
    intro names
    rw [Bool.eq_false_iff]
    intro hgenerated
    obtain ⟨f, hf, htarget⟩ := List.any_eq_true.1 hgenerated
    have hbelow : (w.absolute s.sourceDir).location <+: targetOf (w.absolute s.outDir) f := by
      rw [of_decide_eq_true htarget]
      exact List.prefix_append _ _
    rcases List.prefix_concat_iff.1 hbelow with heq | hbelow
    · -- a file cannot be written where the source directory is
      have hsource := Tree.get?_location_of_isDirectory hdirectory
      have hmade := Tree.directory_of_makeDirectories w.tree (w.absolute s.outDir) hsource
      have hfree := isFree_of_failures (List.ne_nil_of_mem hf) hfailures hf
      rw [heq] at hmade
      exact Tree.get?_ne_directory (Option.isNone_iff_eq_none.1 hfree) hmade
    · exact hapart hbelow
  obtain ⟨others, own, hothers, -, -⟩ := exists_sourcesAt hlanguage (w.isGenerated s read) hfiles
  obtain ⟨others', hothers', -⟩ := exists_others_generated hothers
  exact ⟨overlooks_of_nil hothers (sourcesAt_eq_nil hlanguage hfar),
    overlooks_of_nil hothers' (sourcesAt_eq_nil hlanguage hfar)⟩

/-- With any reader, generating again ends in the same result and leaves every file as it was, as
long as the sources overlook the generated modules: those that lie there before, and those that
generating leaves. -/
theorem generate_again {w : Workspace} {s : Settings} {read : Source.Reader} {summary : Summary}
    (hclosed : w.tree.Closed) (hresult : (w.generate s read).result = .ok summary)
    (hfailures : summary.failures = 0) (hbefore : w.Overlooks s read (w.isGenerated s read))
    (hafter : (w.generated s read).Overlooks s read (w.isGenerated s read)) :
    ((w.generated s read).generate s read).result = .ok summary ∧
      ∀ l, ((w.generated s read).generate s read).tree.get? l =
        (w.generate s read).tree.get? l := by
  obtain ⟨a, ha, hdiagnostics, rfl⟩ := exists_of_generate_ok hresult
  obtain ⟨again, hagain, hclean, hhelpers, htables, hgenerate⟩ :=
    exists_analyze_generated ha hdiagnostics hbefore hafter
  obtain ⟨hwritten, hnoFailures, htree⟩ := writeFiles_again hclosed hfailures
  have hsame : (w.generated s read).absolute s.outDir = w.absolute s.outDir := rfl
  have hfiles : (w.generated s read).generatedFiles s read = w.generatedFiles s read := by
    rw [generatedFiles, generatedFiles, hagain, ha]
    exact hgenerate _
  have hstart : (w.generated s read).tree =
      (writeFiles w.tree (w.absolute s.outDir) (w.generatedFiles s read)).tree :=
    generate_tree w s read
  rw [generate_result hagain, unlessRejected_of_nil hclean, generate_tree, generate_tree, hfiles,
    hsame, hstart, hwritten, hnoFailures, hhelpers, htables]
  exact ⟨by rw [← hfailures], htree⟩

/-- A directory with a helper class in a text that has a stray bracket behind it. -/
def brokenWorkspace : Workspace :=
  ⟨⟨[(["p".toList], .directory), (["p".toList, "db".toList], .directory),
    (["p".toList, "db".toList, "db.ts".toList],
      .file (.text "@Helper(\x7b name: \"db\" \x7d)\nexport class Db \x7b\x7d\n)\n"))]⟩, ⟨"/p"⟩⟩

/-- Settings under which modules are written among the sources. -/
def amongSettings : Settings := { sourceDir := ⟨"db"⟩, outDir := ⟨"db/generated"⟩ }

/-- A reader that passes over the bracket.  In any other text it finds the class that is generated
for the helper. -/
def recoverDb : Source.Reader := fun path text =>
  .ok {
    path, text, imports := [], typeNames := []
    classes :=
      if path.text = "/p/db/db.ts" then
        [⟨"Db", none,
          [⟨"Helper", none, [.object default [("name", .string default "db")]], default⟩],
          [], [], false, true, default⟩]
      else
        [⟨"DbDatabaseHelper", some "OrmLiteSqliteOpenHelper", [], [],
          [⟨"constructor", .constructor,
            [⟨"context", some ⟨"Context", .reference "Context" []⟩, false, none, default⟩],
            [], .unrestricted, false, false, false, none, false, false, true, default⟩],
          false, true, default⟩] }

/-- Generating twice among the sources of a reader that recovers: the class that was generated is
read the second time. -/
theorem generate_again_among :
    let w := brokenWorkspace
    let s := amongSettings
    let read := recoverDb
    w.tree.Closed ∧ ∃ summary, (w.generate s read).result = .ok summary ∧ summary.helpers = 1 ∧
      summary.written.map (·.text) = ["/p/db/generated/DbDatabaseHelper.ts"] ∧
      summary.failures = 0 ∧ w.Overlooks s read (w.isGenerated s read) ∧
      (w.generated s read).Overlooks s read (w.isGenerated s read) ∧
      ((w.generated s read).generate s read).result = .ok summary ∧
      ∀ l, ((w.generated s read).generate s read).tree.get? l =
        (w.generate s read).tree.get? l := by
  intro w s read
  have hclosed : w.tree.Closed := Tree.closed_of_entries (by decide +kernel)
  have hcounts : (w.generate s read).result.toOption.map
      (fun x => (x.helpers, x.written.map (·.text), x.failures)) =
        some (1, ["/p/db/generated/DbDatabaseHelper.ts"], 0) := by
    decide +kernel
  have hbefore : w.Overlooks s read (w.isGenerated s read) := by decide +kernel
  have hafter : (w.generated s read).Overlooks s read (w.isGenerated s read) := by decide +kernel
  obtain ⟨summary, hsome, heq⟩ := Option.map_eq_some_iff.1 hcounts
  obtain ⟨hhelpers, hwritten, hfailures⟩ : summary.helpers = 1 ∧
      summary.written.map (·.text) = ["/p/db/generated/DbDatabaseHelper.ts"] ∧
      summary.failures = 0 := by simpa using heq
  have hresult : (w.generate s read).result = .ok summary := by
    cases hr : (w.generate s read).result with
    | error f => rw [hr] at hsome; cases hsome
    | ok x => rw [hr] at hsome; cases hsome; rfl
  exact ⟨hclosed, summary, hresult, hhelpers, hwritten, hfailures, hbefore, hafter,
    generate_again hclosed hresult hfailures hbefore hafter⟩

/-- A helper class that extends the class generated for it is accepted as long as that class is
no source; then the generated constructor, which demands an argument, is its own. -/
theorem rejected_with_generated_class :
    let db : Source.SourceFile :=
      ⟨⟨"/p/src/db.ts"⟩, "",
        [⟨[⟨"DbDatabaseHelper", none⟩], "./generated/DbDatabaseHelper", default⟩],
        [⟨"Db", some "DbDatabaseHelper",
          [⟨"Helper", none, [.object default [("name", .string default "db")]], default⟩],
          [], [], false, true, default⟩], []⟩
    let made : Source.SourceFile :=
      ⟨⟨"/p/src/generated/DbDatabaseHelper.ts"⟩, "",
        [⟨[⟨"Context", none⟩, ⟨"OrmLiteSqliteOpenHelper", none⟩], "@ormhelper/runtime", default⟩],
        [⟨"DbDatabaseHelper", some "OrmLiteSqliteOpenHelper", [], [],
          [⟨"constructor", .constructor,
            [⟨"context", some ⟨"Context", .reference "Context" []⟩, false, none, default⟩],
            [], .unrestricted, false, false, false, none, false, false, true, default⟩],
          false, true, default⟩], []⟩
    let alone := Validation.ofSources {} ⟨"/p/src"⟩ [db]
    let together := Validation.ofSources {} ⟨"/p/src"⟩ [db, made]
    alone.diagnostics.map (·.complaint) = [] ∧
      (Emit.generate {} ⟨"/p/src/generated"⟩ alone.helpers).map (·.fileName) =
        ["DbDatabaseHelper.ts"] ∧
      together.helpers.map (·.name) = [] ∧
      together.diagnostics.map (·.complaint) = [.missingEmptyConstructor "Db"] := by
  decide +kernel

end DaoGen.Workspace
