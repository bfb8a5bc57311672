import DaoGen.Workspace.Pass
import DaoGen.Proofs.Workspace.Tree
set_option autoImplicit false

/-!
# What writing the generated files does

Files are written one after another, and one that cannot be written is passed over.  Which ones
can be written is settled by the tree in which writing starts, since a written file stands in the
way of no other (`Workspace.isFree_writeFile`).  So the free files are written, the others are
counted, and each location holds what the last free file of that location says
(`Workspace.get?_foldl_writeFile`).
-/

namespace DaoGen.Workspace

open Emit

variable (outDir : Path)

/-- Where a generated file is written. -/
def targetOf (f : GeneratedFile) : Location := outDir.location ++ [f.fileName.toList]

/-- Nothing keeps a generated file from being written. -/
def isFree (t : Tree) (f : GeneratedFile) : Bool :=
  (t.writeObstacle? outDir f.fileName).isNone

/-- What a location holds after files were written, from what it held before. -/
def contentAfter (l : Location) (files : List GeneratedFile) (old : Option Entry) :
    Option Entry :=
  files.foldl (fun e f => if targetOf outDir f = l then some (.file (.text f.content)) else e) old

theorem targetOf_ne_nil (f : GeneratedFile) : targetOf outDir f ≠ [] :=
  List.append_ne_nil_of_right_ne_nil _ (List.cons_ne_nil _ _)

/-! ## One file -/

section

variable {outDir} {w : Writing} {f : GeneratedFile}

theorem writeFile_of_isFree (h : isFree outDir w.tree f = true) :
    (writeFile outDir w f).tree = w.tree.put (targetOf outDir f) (.file (.text f.content)) ∧
      (writeFile outDir w f).written = w.written ++ [outDir.join ⟨f.fileName⟩] ∧
      (writeFile outDir w f).failures = w.failures := by
  have hnone := Option.isNone_iff_eq_none.1 h
  unfold writeFile
  rw [Tree.writeText_eq, hnone]
  exact ⟨rfl, rfl, rfl⟩

theorem writeFile_of_not_isFree (h : ¬ isFree outDir w.tree f = true) :
    (writeFile outDir w f).tree = w.tree ∧ (writeFile outDir w f).written = w.written ∧
      (writeFile outDir w f).failures = w.failures + 1 := by
  rw [isFree, Option.isNone_iff_eq_none] at h
  obtain ⟨o, ho⟩ := Option.ne_none_iff_exists'.1 h
  unfold writeFile
  rw [Tree.writeText_eq, ho]
  exact ⟨rfl, rfl, rfl⟩

/-- A written file stands in the way of no other. -/
theorem isFree_writeFile (g : GeneratedFile) :
    isFree outDir (writeFile outDir w f).tree g = isFree outDir w.tree g := by
  by_cases h : isFree outDir w.tree f = true
  · rw [(writeFile_of_isFree h).1, isFree, isFree,
      Tree.writeObstacle?_put (targetOf_ne_nil outDir f)
        (Tree.get?_ne_directory (Option.isNone_iff_eq_none.1 h))]
  · rw [(writeFile_of_not_isFree h).1]

theorem directory_of_writeFile {l : Location} :
    (writeFile outDir w f).tree.get? l = some .directory ↔ w.tree.get? l = some .directory := by
  by_cases h : isFree outDir w.tree f = true
  · rw [(writeFile_of_isFree h).1]
    exact Tree.get?_put_eq_directory_iff (targetOf_ne_nil outDir f)
      (Tree.get?_ne_directory (Option.isNone_iff_eq_none.1 h)) _ l
  · rw [(writeFile_of_not_isFree h).1]

/-- What is read from the entries without the one that is written stays. -/
theorem filterMap_writeFile {β : Type} (view : Location × Entry → Option β)
    (hview : ∀ e, view (targetOf outDir f, e) = none) :
    (writeFile outDir w f).tree.entries.filterMap view = w.tree.entries.filterMap view := by
  by_cases hfree : isFree outDir w.tree f = true
  · rw [(writeFile_of_isFree hfree).1]
    exact Tree.filterMap_putIn view hview _ _
  · rw [(writeFile_of_not_isFree hfree).1]

end

/-! ## All files -/

section

variable {outDir} (w : Writing) (files : List GeneratedFile)

theorem isFree_foldl_writeFile (g : GeneratedFile) :
    isFree outDir (files.foldl (writeFile outDir) w).tree g = isFree outDir w.tree g := by
  induction files generalizing w with
  | nil => rfl
  | cons f files ih => rw [List.foldl_cons, ih, isFree_writeFile]

theorem directory_of_foldl_writeFile {l : Location} :
    (files.foldl (writeFile outDir) w).tree.get? l = some .directory ↔
      w.tree.get? l = some .directory := by
  induction files generalizing w with
  | nil => rfl
  | cons f files ih => rw [List.foldl_cons, ih, directory_of_writeFile]

/-- The free files are written. -/
theorem written_foldl_writeFile :
    (files.foldl (writeFile outDir) w).written =
      w.written ++ (files.filter (isFree outDir w.tree)).map fun f => outDir.join ⟨f.fileName⟩ := by
  induction files generalizing w with
  | nil => exact (List.append_nil _).symm
  | cons f files ih =>
    rw [List.foldl_cons, ih, List.filter_congr fun g _ => isFree_writeFile g]
    by_cases h : isFree outDir w.tree f = true
    · rw [(writeFile_of_isFree h).2.1, List.filter_cons_of_pos h, List.map_cons,
        List.append_assoc, List.singleton_append]
    · rw [(writeFile_of_not_isFree h).2.1, List.filter_cons_of_neg h]

/-- The others are counted. -/
theorem failures_foldl_writeFile :
    (files.foldl (writeFile outDir) w).failures =
      w.failures + files.countP (!isFree outDir w.tree ·) := by
  induction files generalizing w with
  | nil => rfl
  | cons f files ih =>
    rw [List.foldl_cons, ih, List.countP_congr (q := (!isFree outDir w.tree ·)) fun g _ => by
      rw [isFree_writeFile]]
    by_cases h : isFree outDir w.tree f = true
    · rw [(writeFile_of_isFree h).2.2, List.countP_cons_of_neg (by simp [h])]
    · rw [(writeFile_of_not_isFree h).2.2, List.countP_cons_of_pos (by simp [h])]
      omega

/-- A location holds what the last free file of that location says. -/
theorem get?_foldl_writeFile (l : Location) :
    (files.foldl (writeFile outDir) w).tree.get? l =
      contentAfter outDir l (files.filter (isFree outDir w.tree)) (w.tree.get? l) := by
  induction files generalizing w with
  | nil => rfl
  | cons f files ih =>
    rw [List.foldl_cons, ih, List.filter_congr fun g _ => isFree_writeFile g]
    by_cases h : isFree outDir w.tree f = true
    · rw [(writeFile_of_isFree h).1, List.filter_cons_of_pos h, contentAfter, contentAfter,
        List.foldl_cons, Tree.get?_put _ (targetOf_ne_nil outDir f)]
    · rw [(writeFile_of_not_isFree h).1, List.filter_cons_of_neg h]

theorem filterMap_foldl_writeFile {β : Type} (view : Location × Entry → Option β)
    (hview : ∀ f ∈ files, ∀ e, view (targetOf outDir f, e) = none) :
    (files.foldl (writeFile outDir) w).tree.entries.filterMap view =
      w.tree.entries.filterMap view := by
  induction files generalizing w with
  | nil => rfl
  | cons f files ih =>
    rw [List.foldl_cons, ih _ fun g hg => hview g (List.mem_cons_of_mem f hg),
      filterMap_writeFile view (hview f List.mem_cons_self)]

/-- A location holds what it held before, or what a file of that location says. -/
theorem contentAfter_cases (l : Location) (old : Option Entry) :
    contentAfter outDir l files old = old ∨
      ∃ f ∈ files, targetOf outDir f = l ∧
        contentAfter outDir l files old = some (.file (.text f.content)) := by
  induction files generalizing old with
  | nil => exact .inl rfl
  | cons f files ih =>
    unfold contentAfter
    rw [List.foldl_cons]
    rcases ih (if targetOf outDir f = l then some (.file (.text f.content)) else old) with
      hsame | ⟨g, hg, htarget, hcontent⟩
    · by_cases h : targetOf outDir f = l
      · exact .inr ⟨f, List.mem_cons_self, h, hsame.trans (if_pos h)⟩
      · exact .inl (hsame.trans (if_neg h))
    · exact .inr ⟨g, List.mem_cons_of_mem f hg, htarget, hcontent⟩

/-- Writing the same files again changes nothing. -/
theorem contentAfter_twice (l : Location) (old : Option Entry) :
    contentAfter outDir l files (contentAfter outDir l files old) =
      contentAfter outDir l files old := by
  induction files generalizing old with
  | nil => rfl
  | cons f files ih =>
    by_cases h : targetOf outDir f = l
    · -- the first file decides both times what the others start from
      simp only [contentAfter, List.foldl_cons, if_pos h]
    · have hcons : ∀ e, contentAfter outDir l (f :: files) e = contentAfter outDir l files e :=
        fun e => by rw [contentAfter, List.foldl_cons, if_neg h]; rfl
      rw [hcons, hcons, ih]

end

/-! ## The output directory -/

section

variable {outDir} {t : Tree} {files : List GeneratedFile}

/-- The files are written one after another when the output directory can be made. -/
theorem writeFiles_of_made (hne : files ≠ []) (h : (t.makeDirectories outDir).2 = none) :
    writeFiles t outDir files =
      files.foldl (writeFile outDir) { tree := (t.makeDirectories outDir).1, tried := files } := by
  unfold writeFiles
  rw [if_neg (by simpa using hne)]
  generalize t.makeDirectories outDir = made at h
  obtain ⟨made, obstacle⟩ := made
  subst h
  rfl

/-- No file is written when it cannot. -/
theorem writeFiles_of_obstacle {o : Obstacle} (hne : files ≠ [])
    (h : (t.makeDirectories outDir).2 = some o) :
    (writeFiles t outDir files).tree = (t.makeDirectories outDir).1 ∧
      (writeFiles t outDir files).written = [] ∧
      (writeFiles t outDir files).failures = files.length := by
  unfold writeFiles
  rw [if_neg (by simpa using hne)]
  generalize t.makeDirectories outDir = made at h
  obtain ⟨made, obstacle⟩ := made
  subst h
  exact ⟨rfl, rfl, rfl⟩

/-- What is read from files that are not written stays. -/
theorem filterMap_writeFiles {β : Type} (view : Location × Entry → Option β)
    (hview : ∀ l, view (l, .directory) = none)
    (hfiles : ∀ f ∈ files, ∀ e, view (targetOf outDir f, e) = none) :
    (writeFiles t outDir files).tree.entries.filterMap view = t.entries.filterMap view := by
  by_cases hne : files = []
  · subst hne
    rfl
  · cases hmade : (t.makeDirectories outDir).2 with
    | some o => rw [(writeFiles_of_obstacle hne hmade).1, Tree.filterMap_makeDirectories view hview]
    | none =>
      rw [writeFiles_of_made hne hmade, filterMap_foldl_writeFile _ _ view hfiles,
        Tree.filterMap_makeDirectories view hview]

variable (outDir t files)

/-- Writing files adds directories on the way to the output directory and writes its files, and
changes nothing else. -/
theorem get?_writeFiles (l : Location) :
    (writeFiles t outDir files).tree.get? l = t.get? l ∨
      (t.get? l = none ∧ (writeFiles t outDir files).tree.get? l = some .directory ∧
        l <+: outDir.location) ∨
      ∃ f ∈ files, targetOf outDir f = l ∧
        (writeFiles t outDir files).tree.get? l = some (.file (.text f.content)) := by
  by_cases hne : files = []
  · subst hne
    exact .inl rfl
  · have hdirectories := Tree.makeDirectories_spec t outDir l
    cases hmade : (t.makeDirectories outDir).2 with
    | some o =>
      rw [(writeFiles_of_obstacle hne hmade).1]
      exact hdirectories.imp_right .inl
    | none =>
      rw [writeFiles_of_made hne hmade, get?_foldl_writeFile]
      rcases contentAfter_cases _ l ((t.makeDirectories outDir).1.get? l) with
        hsame | ⟨f, hf, htarget, hcontent⟩
      · rw [hsame]
        exact hdirectories.imp_right .inl
      · exact .inr (.inr ⟨f, (List.mem_filter.1 hf).1, htarget, hcontent⟩)

end

end DaoGen.Workspace
