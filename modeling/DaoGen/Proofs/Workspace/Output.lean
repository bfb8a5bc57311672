import DaoGen.Proofs.Emit.FileNames
import DaoGen.Proofs.Path.Destination
import DaoGen.Proofs.Workspace.Rerun
set_option autoImplicit false

/-!
# An account of the generated files

Whether a file can be written is a matter of that file alone (`Workspace.isWritable`).  The files
of a pass that can be written are written, in their order, and all others are counted
(`Workspace.writeFiles_account`).  Their paths are different, so each file that was written keeps
its content.  As the way to the output directory is there in the end, that content is also what is
read from the path of the file (`Workspace.readText_of_isWritable`).
-/

namespace DaoGen

/-! ## Paths in normal form -/

namespace Path

/-- The parts of an absolute path in which all `..` stand before the names. -/
def NormalParts (parts : List Part) : Prop :=
  ∃ (k : Nat) (names : List (List Char)),
    parts = .root :: (List.replicate k Part.parent ++ names.map Part.name) ∧
      ∀ name ∈ names, (Part.name name).IsLater

theorem NormalParts.isAbsolute {p : Path} (h : NormalParts p.parts) : p.isAbsolute := by
  obtain ⟨k, names, heq, -⟩ := h
  rw [isAbsolute_iff, heq]
  rfl

/-- A name joined to an absolute path is the last piece; the pieces before it make the parts of
that path. -/
theorem exists_pieces_join {p : Path} (h : p.isAbsolute) {name : String}
    (hname : '/' ∉ name.toList) :
    ∃ before, pieces (p.join ⟨name⟩).text.toList = before ++ [name.toList] ∧
      p.parts = .root :: laterParts before := by
  obtain ⟨text, htext, hparts⟩ := exists_text_of_isAbsolute h
  rw [join_of_slash_notMem p hname, hparts]
  have hempty : p.text.isEmpty = false := by
    rw [String.isEmpty_eq_false_iff]
    rintro heq
    rw [heq] at htext
    cases htext
  unfold separator
  rw [hempty, Bool.false_or, htext]
  split
  · rename_i hlast
    -- the separator at the end of the path ends its last piece
    obtain ⟨before, hbefore⟩ := List.getLast?_eq_some_iff.1 (of_decide_eq_true hlast)
    refine ⟨pieces before, ?_, ?_⟩
    · rw [String.append_empty, String.toList_append, htext, hbefore, List.append_assoc,
        List.singleton_append, pieces_append_slash, pieces_of_not_mem hname]
    · have hpieces : [] :: pieces text = pieces before ++ [[]] := by
        rw [← pieces_slash, hbefore, pieces_append_slash]
        rfl
      have hlater := congrArg laterParts hpieces
      rw [laterParts_void rfl, laterParts_append, laterParts_void rfl] at hlater
      rw [hlater]
      exact congrArg _ (List.append_nil _)
  · refine ⟨[] :: pieces text, ?_, by rw [laterParts_void rfl]⟩
    rw [← pieces_slash, ← htext, String.toList_append, String.toList_append, List.append_assoc,
      ← pieces_of_not_mem hname]
    exact pieces_append_slash _ _

end Path

/-! ## Following a path -/

namespace Tree

open DaoGen.Path

/-- When everything on the way is a directory, the pieces of a path lead where its parts lead. -/
theorem follow_of_way {t : Tree} {here : Location} {pieces : List (List Char)}
    (h : ∀ before, before <+: laterParts pieces →
      t.get? (before.foldl enter here) = some .directory) :
    t.follow here pieces = .ok ((laterParts pieces).foldl enter here) := by
  induction pieces generalizing here with
  | nil => rfl
  | cons piece more ih =>
    have hhere : t.get? here = some .directory := h [] List.nil_prefix
    rw [follow, hhere]
    dsimp only
    by_cases hvoid : isVoid piece = true
    · rw [laterParts_void hvoid] at h ⊢
      rw [if_pos hvoid]
      exact ih h
    · rw [laterParts_solid (by simpa using hvoid)] at h ⊢
      rw [if_neg hvoid, List.foldl_cons]
      have hmore : ∀ before, before <+: laterParts more →
          t.get? (before.foldl enter (enter here (partOfPiece piece))) = some .directory :=
        fun before hbefore =>
          h (partOfPiece piece :: before) (List.cons_prefix_cons.2 ⟨rfl, hbefore⟩)
      by_cases hparent : piece = ['.', '.']
      · rw [if_pos hparent, partOfPiece, if_pos hparent] at *
        exact ih hmore
      · rw [if_neg hparent, partOfPiece, if_neg hparent] at *
        exact ih hmore

theorem follow_append (t : Tree) (here : Location) (a b : List (List Char)) :
    t.follow here (a ++ b) = (t.follow here a).bind fun l => t.follow l b := by
  induction a generalizing here with
  | nil => rfl
  | cons piece more ih =>
    rw [List.cons_append, follow, follow]
    split
    · rfl
    · rfl
    · split
      · exact ih here
      · split
        · exact ih here.dropLast
        · exact ih (here ++ [piece])

theorem foldl_enter_parents (k : Nat) : (List.replicate k Part.parent).foldl enter [] = [] := by
  induction k with
  | zero => rfl
  | succ k ih => exact ih

theorem foldl_enter_names (l : Location) (names : List (List Char)) :
    (names.map Part.name).foldl enter l = l ++ names := by
  induction names generalizing l with
  | nil => exact (List.append_nil l).symm
  | cons name rest ih =>
    rw [List.map_cons, List.foldl_cons, ih, enter, List.append_assoc, List.singleton_append]

/-- The way of a path in normal form descends from the root. -/
theorem prefix_of_normalParts {parts before : List Part} (h : NormalParts (.root :: parts))
    (hbefore : before <+: parts) : before.foldl enter [] <+: parts.foldl enter [] := by
  obtain ⟨k, names, heq, -⟩ := h
  obtain rfl := (List.cons.inj heq).2
  rw [List.foldl_append, foldl_enter_parents, foldl_enter_names, List.nil_append]
  rcases prefix_or_eq_append hbefore with hparents | ⟨rest, rfl, hrest⟩
  · rw [(List.prefix_replicate_iff.1 hparents).2, foldl_enter_parents]
    exact List.nil_prefix
  · obtain ⟨first, hfirst, rfl⟩ := List.prefix_map_iff.1 hrest
    rw [List.foldl_append, foldl_enter_parents, foldl_enter_names, List.nil_append]
    exact hfirst

/-- A file is read from its path when the way to its directory is there. -/
theorem readText_join {t : Tree} {p : Path} {name text : String} (hnormal : NormalParts p.parts)
    (hway : t.LeadsTo p.location) (hname : (Part.name name.toList).IsLater)
    (hshort : isTooLong (p.join ⟨name⟩) = false)
    (hget : t.get? (p.location ++ [name.toList]) = some (.file (.text text))) :
    t.readText (p.join ⟨name⟩) = .ok text := by
  obtain ⟨hsolid, hslash, hpart⟩ := hname
  have hparent : name.toList ≠ ['.', '.'] := by
    intro heq
    rw [Part.spelling, heq] at hpart
    cases hpart
  obtain ⟨before, hpieces, hparts⟩ := exists_pieces_join hnormal.isAbsolute hslash
  have hlocation : p.location = (laterParts before).foldl enter [] := by
    rw [location_eq, hparts]
    rfl
  have hdirectory : t.follow [] before = .ok p.location := by
    rw [hlocation]
    refine follow_of_way fun first hfirst => hway _ ?_
    rw [hlocation]
    exact prefix_of_normalParts (hparts ▸ hnormal) hfirst
  have hfollow : t.follow [] (pieces (p.join ⟨name⟩).text.toList) =
      .ok (p.location ++ [name.toList]) := by
    rw [hpieces, follow_append, hdirectory]
    simp only [Except.bind, follow, hway _ (List.prefix_refl _)]
    rw [if_neg (by simpa [Part.spelling] using hsolid), if_neg hparent]
  unfold readText find
  rw [hshort, hfollow]
  simp [bind, Except.bind, pure, Except.pure, hget, readEntry]

end Tree

/-! ## Files that can be written -/

namespace Workspace

open Emit DaoGen.Schema

/-- Whether a file can be written to an output directory, when it is the only one. -/
def isWritable (t : Tree) (outDir : Path) (f : GeneratedFile) : Bool :=
  (writeFiles t outDir [f]).failures = 0

theorem isWritable_of_obstacle {t : Tree} {outDir : Path}
    (h : (t.makeDirectories outDir).2 ≠ none) (f : GeneratedFile) :
    isWritable t outDir f = false := by
  obtain ⟨o, ho⟩ := Option.ne_none_iff_exists'.1 h
  rw [isWritable, (writeFiles_of_obstacle (List.cons_ne_nil f []) ho).2.2]
  rfl

theorem isWritable_of_made {t : Tree} {outDir : Path} (h : (t.makeDirectories outDir).2 = none) :
    isWritable t outDir = isFree outDir (t.makeDirectories outDir).1 := by
  funext f
  rw [isWritable, writeFiles_of_made (List.cons_ne_nil f []) h, failures_foldl_writeFile]
  cases hfree : isFree outDir (t.makeDirectories outDir).1 f <;> simp [hfree]

section

variable (t : Tree) (outDir : Path) (files : List GeneratedFile)

/-- The files that can be written are written and the others are counted. -/
theorem writeFiles_account :
    (writeFiles t outDir files).written =
        (files.filter (isWritable t outDir)).map (fun f => outDir.join ⟨f.fileName⟩) ∧
      (writeFiles t outDir files).failures = files.countP (!isWritable t outDir ·) := by
  by_cases hne : files = []
  · subst hne
    exact ⟨rfl, rfl⟩
  · cases hmade : (t.makeDirectories outDir).2 with
    | some o =>
      have hnone : ∀ f, isWritable t outDir f = false :=
        isWritable_of_obstacle (by rw [hmade]; exact Option.some_ne_none o)
      obtain ⟨-, hwritten, hfailures⟩ := writeFiles_of_obstacle hne hmade
      rw [hwritten, hfailures, List.filter_eq_nil_iff.2 fun f _ => by simp [hnone],
        List.countP_eq_length.2 fun f _ => by simp [hnone]]
      exact ⟨rfl, rfl⟩
    | none =>
      rw [writeFiles_of_made hne hmade, written_foldl_writeFile, failures_foldl_writeFile,
        isWritable_of_made hmade, Nat.zero_add]
      exact ⟨rfl, rfl⟩

end

section

variable {t : Tree} {outDir : Path} {files : List GeneratedFile}

variable (hnames : (files.map (·.fileName)).Nodup) (hplain : ∀ f ∈ files, '/' ∉ f.fileName.toList)

include hnames hplain

theorem nodup_written_writeFiles : (writeFiles t outDir files).written.Nodup := by
  have hjoin : (files.filter (isWritable t outDir)).map (fun f => outDir.join ⟨f.fileName⟩) =
      ((files.filter (isWritable t outDir)).map (·.fileName)).map
        fun name => ⟨outDir.text ++ outDir.separator ++ name⟩ := by
    rw [List.map_map]
    exact List.map_congr_left fun f hf =>
      outDir.join_of_slash_notMem (hplain f (List.mem_filter.1 hf).1)
  rw [(writeFiles_account t outDir files).1, hjoin]
  refine (hnames.sublist (List.filter_sublist.map _)).map fun a b heq => ?_
  exact String.append_right_inj _ |>.1 (congrArg Path.text heq)

theorem isWritable_of_mem_written {f : GeneratedFile} (hf : f ∈ files)
    (hmem : outDir.join ⟨f.fileName⟩ ∈ (writeFiles t outDir files).written) :
    isWritable t outDir f = true := by
  rw [(writeFiles_account t outDir files).1] at hmem
  obtain ⟨g, hg, hpath⟩ := List.mem_map.1 hmem
  obtain ⟨hmemg, hwritable⟩ := List.mem_filter.1 hg
  rw [outDir.join_of_slash_notMem (hplain g hmemg),
    outDir.join_of_slash_notMem (hplain f hf)] at hpath
  have hname : g.fileName = f.fileName := String.append_right_inj _ |>.1 (congrArg Path.text hpath)
  rwa [← List.inj_on_of_nodup_map hnames hmemg hf hname]

omit hnames hplain in
/-- A file that was written is read back from its path. -/
theorem readText_of_isWritable {f : GeneratedFile} (hclosed : t.Closed)
    (hnormal : Path.NormalParts outDir.parts) (hf : f ∈ files)
    (hname : (Path.Part.name f.fileName.toList).IsLater) (hwritable : isWritable t outDir f = true)
    (hget : (writeFiles t outDir files).tree.get? (targetOf outDir f) =
      some (.file (.text f.content))) :
    (writeFiles t outDir files).tree.readText (outDir.join ⟨f.fileName⟩) = .ok f.content := by
  have hmade : (t.makeDirectories outDir).2 = none := by
    by_contra hsome
    rw [isWritable_of_obstacle hsome] at hwritable
    cases hwritable
  have hway : (writeFiles t outDir files).tree.LeadsTo outDir.location := by
    intro k hk
    rw [writeFiles_of_made (List.ne_nil_of_mem hf) hmade, directory_of_foldl_writeFile]
    exact Tree.leadsTo_makeDirectories hclosed hmade k hk
  have hshort : Tree.isTooLong (outDir.join ⟨f.fileName⟩) = false := by
    rw [isWritable_of_made hmade, isFree, Option.isNone_iff_eq_none] at hwritable
    unfold Tree.writeObstacle? at hwritable
    split at hwritable
    · cases hwritable
    · rename_i hshort
      simpa using hshort
  exact Tree.readText_join hnormal hway hname hshort hget

end

/-! ## The files of a pass -/

section

variable (p : Program) (registry : Schema.Registry) (runtime : RuntimeNames) (outDir : Path)

/-- The names of the files of a pass are different, and each is a name in any path. -/
theorem fileNames_generate :
    let files := Emit.generate runtime outDir (Validation.ofProgram p registry runtime).helpers
    (files.map (·.fileName)).Nodup ∧
      ∀ f ∈ files, (Path.Part.name f.fileName.toList).IsLater := by
  intro files
  refine ⟨nodup_fileNames_generate (Validation.nodup_sanitized p registry runtime), fun f hf => ?_⟩
  have hending : f.fileName.toList = f.className.toList ++ ".ts".toList := by
    rw [fileName_eq_of_mem_generate hf, Naming.moduleFile, String.toList_append]
  have hlong : 3 ≤ f.fileName.toList.length := by
    rw [hending, List.length_append]
    exact Nat.le_add_left 3 _
  have hparent : f.fileName.toList ≠ ['.', '.'] := fun heq => by simp [heq] at hlong
  have hsolid : Path.isVoid f.fileName.toList = false := by
    by_contra hvoid
    have hcases : f.fileName.toList = [] ∨ f.fileName.toList = ['.'] := by
      simpa only [Path.isVoid, Bool.not_eq_false, Bool.or_eq_true, decide_eq_true_eq] using hvoid
    rcases hcases with heq | heq <;> simp [heq] at hlong
  exact ⟨hsolid, slash_notMem_fileName hf, if_neg hparent⟩

/-- Of the files of a pass, written to any tree, each is written or counted as a failure.  A file
is written exactly when it can be written alone, so one that is blocked keeps no other from being
written, and none is written when the output directory cannot be made.  No two files are written to
one path, and each file that was written is there with its content in the end, also for who reads
it by its path.  A pass that makes these files, with whatever reader, leaves this tree and reports
these paths. -/
theorem writeFiles_accounts_for_files (t : Tree) :
    let files := Emit.generate runtime outDir (Validation.ofProgram p registry runtime).helpers
    let done := writeFiles t outDir files
    done.written.length + done.failures = files.length ∧
      done.written =
        (files.filter (isWritable t outDir)).map (fun f => outDir.join ⟨f.fileName⟩) ∧
      done.failures = files.countP (!isWritable t outDir ·) ∧
      ((t.makeDirectories outDir).2 ≠ none →
        done.written = [] ∧ done.failures = files.length) ∧
      done.written.Nodup ∧
      (∀ f ∈ files, outDir.join ⟨f.fileName⟩ ∈ done.written →
        done.tree.get? (targetOf outDir f) = some (.file (.text f.content)) ∧
          (t.Closed → Path.NormalParts outDir.parts →
            done.tree.readText (outDir.join ⟨f.fileName⟩) = .ok f.content)) ∧
      ∀ (w : Workspace) (s : Settings) (read : Source.Reader), w.tree = t →
        w.absolute s.outDir = outDir → w.generatedFiles s read = files →
        (w.generate s read).tree = done.tree ∧
          ∀ summary, (w.generate s read).result = .ok summary →
            summary.written = done.written ∧ summary.failures = done.failures := by
  intro files done
  obtain ⟨hnames, hlater⟩ := fileNames_generate p registry runtime outDir
  have hplain : ∀ f ∈ files, '/' ∉ f.fileName.toList := fun f hf => (hlater f hf).2.1
  obtain ⟨hwritten, hfailures⟩ := writeFiles_account t outDir files
  refine ⟨length_written_writeFiles t outDir files, hwritten, hfailures, fun hobstacle => ?_,
    nodup_written_writeFiles hnames hplain, fun f hf hmem => ?_, ?_⟩
  · have hnone := isWritable_of_obstacle hobstacle
    rw [hwritten, hfailures, List.filter_eq_nil_iff.2 fun f _ => by simp [hnone],
      List.countP_eq_length.2 fun f _ => by simp [hnone]]
    exact ⟨rfl, rfl⟩
  · have hget := get?_of_mem_written hf hnames hplain hmem
    refine ⟨hget, fun hclosed hnormal => ?_⟩
    exact readText_of_isWritable hclosed hnormal hf (hlater f hf)
      (isWritable_of_mem_written hnames hplain hf hmem) hget
  · rintro w s read rfl rfl hfiles
    rw [generate_tree w s read, hfiles]
    refine ⟨rfl, fun summary hresult => ?_⟩
    obtain ⟨a, -, -, rfl⟩ := exists_of_generate_ok hresult
    rw [hfiles]
    exact ⟨rfl, rfl⟩

/-- Two helpers, where a directory stands at the path of the first one's module. -/
theorem writeFiles_accounts_for_files_blocked :
    let helper (owner db : String) : Source.SourceClass :=
      ⟨owner, none, [⟨"Helper", none, [.object default [("name", .string default db)]], default⟩],
        [], [], false, true, default⟩
    let p := Program.ofSources ⟨"/src"⟩
      [⟨⟨"/src/db.ts"⟩, "", [], [helper "Customer" "customer", helper "Other" "other"], []⟩]
    let files := Emit.generate {} ⟨"/out"⟩
      (Validation.ofProgram p (Registry.ofProgram p) {}).helpers
    let t : Tree := ⟨[(["out".toList], .directory),
      (["out".toList, "CustomerDatabaseHelper.ts".toList], .directory)]⟩
    let done := writeFiles t ⟨"/out"⟩ files
    t.Closed ∧ Path.NormalParts (⟨"/out"⟩ : Path).parts ∧
      files.map (·.fileName) = ["CustomerDatabaseHelper.ts", "OtherDatabaseHelper.ts"] ∧
      done.written.map (·.text) = ["/out/OtherDatabaseHelper.ts"] ∧ done.failures = 1 ∧
      ∀ f ∈ files, f.helper = "other" →
        (⟨"/out"⟩ : Path).join ⟨f.fileName⟩ ∈ done.written ∧
          done.tree.readText ((⟨"/out"⟩ : Path).join ⟨f.fileName⟩) = .ok f.content := by
  intro helper p files t done
  have hclosed : t.Closed := Tree.closed_of_entries (by decide +kernel)
  have hnormal : Path.NormalParts (⟨"/out"⟩ : Path).parts := by
    refine ⟨0, ["out".toList], by decide +kernel, fun name hname => ?_⟩
    rw [List.mem_singleton.1 hname]
    exact ⟨rfl, by decide, rfl⟩
  have htexts : ∀ f ∈ files, f.helper = "other" →
      ((⟨"/out"⟩ : Path).join ⟨f.fileName⟩).text ∈ done.written.map (·.text) := by
    decide +kernel
  have hwritten : ∀ f ∈ files, f.helper = "other" →
      (⟨"/out"⟩ : Path).join ⟨f.fileName⟩ ∈ done.written := by
    intro f hf hhelper
    obtain ⟨path, hpath, heq⟩ := List.mem_map.1 (htexts f hf hhelper)
    rwa [show path = _ from congrArg Path.mk heq] at hpath
  obtain ⟨-, -, -, -, -, hcontent, -⟩ :=
    writeFiles_accounts_for_files p (Registry.ofProgram p) {} ⟨"/out"⟩ t
  exact ⟨hclosed, hnormal, by decide +kernel, by decide +kernel, by decide +kernel,
    fun f hf hhelper => ⟨hwritten f hf hhelper,
      (hcontent f hf (hwritten f hf hhelper)).2 hclosed hnormal⟩⟩

end

end Workspace

end DaoGen
