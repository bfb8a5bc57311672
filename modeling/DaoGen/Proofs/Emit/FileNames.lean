import DaoGen.Proofs.Emit.FileOrder
import DaoGen.Proofs.Helper.Claims
import DaoGen.Proofs.Workspace.Writing
import Mathlib.Data.List.Nodup
set_option autoImplicit false

/-!
# The names of the generated files

Only the class names of helpers are claimed while the declarations are checked one after the
other.  An accepted helper has claimed its name first, so the accepted helpers have different
class names (`Validation.nodup_classNames_outcomes`), hence different sanitized names, and sorting
puts them in strictly ascending order (`Validation.pairwise_helpers`).

Every generated name is a sanitized name with one of two endings.  So the files of a pass have
different class names and different file names, each of them exports the class that its name
announces, and none is written over another (`Emit.generated_files_apart`).
-/

namespace DaoGen

open DaoGen.Schema

/-! ## Generated names -/

namespace Naming

theorem append_left_inj {a b ending : String} : a ++ ending = b ++ ending ↔ a = b := by
  rw [← String.toList_inj, String.toList_append, String.toList_append, List.append_left_inj,
    String.toList_inj]

theorem helperClass_inj {a b : String} : helperClass a = helperClass b ↔ sanitize a = sanitize b :=
  append_left_inj

theorem configClass_inj {a b : String} : configClass a = configClass b ↔ sanitize a = sanitize b :=
  append_left_inj

theorem moduleFile_injective : Function.Injective moduleFile := fun _ _ => append_left_inj.1

/-- No name is both a helper's and a config writer's, whatever databases they are made for. -/
theorem configClass_ne_helperClass (a b : String) : configClass a ≠ helperClass b := by
  intro heq
  have hlast := congrArg (fun name : String => name.toList.getLast?) heq
  simp [configClass, helperClass] at hlast

theorem toUpper_ne_slash {c : Char} (h : c.isAlphanum = true) : c.toUpper ≠ '/' := by
  intro heq
  unfold Char.toUpper at heq
  split at heq
  · rename_i hlower
    have hleast : 97 ≤ c.val.toNat := hlower.1
    have hmost : c.val.toNat ≤ 122 := hlower.2
    have hshift : ('A'.val - 'a'.val).toNat = 2 ^ 32 - 32 := by decide
    have hslash : '/'.val.toNat = 47 := by decide
    have hval := congrArg (fun d : Char => d.val.toNat) heq
    simp only [UInt32.toNat_add] at hval
    rw [hshift, hslash] at hval
    omega
  · subst heq
    revert h
    decide

/-- A generated name separates no parts of a path. -/
theorem slash_notMem_sanitize (name : String) : '/' ∉ (sanitize name).toList := by
  have hkept : ∀ c ∈ name.toList.filter Char.isAlphanum, c.isAlphanum = true := by
    intro c hc
    exact (List.mem_filter.1 hc).2
  rw [sanitize, String.toList_ofList]
  cases hletters : name.toList.filter Char.isAlphanum with
  | nil => exact List.not_mem_nil
  | cons c rest =>
    rw [hletters] at hkept
    intro hslash
    rcases List.mem_cons.1 hslash with hfirst | hrest
    · exact toUpper_ne_slash (hkept c List.mem_cons_self) hfirst.symm
    · exact absurd (hkept '/' (List.mem_cons_of_mem c hrest)) (by decide)

end Naming

/-! ## The helpers of a program -/

namespace Validation

open DaoGen.HelperDeclaration

variable {p : Program} {registry : Registry} {runtime : RuntimeNames}

/-- A helper that is accepted later has another class name than any that was claimed before. -/
theorem nodup_classNames_outcomes (claims : Claims) (ds : List HelperDeclaration) :
    ((values ((outcomes p registry runtime claims ds).map (·.result))).map
      (·.className)).Nodup := by
  induction ds generalizing claims with
  | nil => exact .nil
  | cons d rest ih =>
    rw [outcomes_cons, List.map_cons]
    cases hresult : (outcomeOf p registry runtime claims d).result with
    | error e => exact ih (claim p claims d)
    | ok h =>
      obtain ⟨haccept, -⟩ := claimed_of_outcomeOf hresult
      have hclaimed : claimedName d = some h.className := claimedName_of_accept haccept
      refine List.nodup_cons.2 ⟨fun hmem => ?_, ih (claim p claims d)⟩
      obtain ⟨other, hother, hname⟩ := List.mem_map.1 hmem
      obtain ⟨hfree, -⟩ := claimed_of_mem_outcomes (mem_values.1 hother)
      apply (lookup_claim_eq_none_iff.1 hfree).2
      rw [hclaimed]
      exact congrArg some hname.symm

variable (p registry runtime)

/-- The helpers of a program ascend strictly by sanitized name. -/
theorem pairwise_helpers :
    (ofProgram p registry runtime).helpers.Pairwise fun a b => a.sanitized < b.sanitized := by
  have hascending : (ofProgram p registry runtime).helpers.Pairwise fun a b => helperLe a b :=
    pairwise_sortBy helperLe_trans helperLe_total _
  have hnodup : ((ofProgram p registry runtime).helpers.map (·.className)).Nodup :=
    ((sortBy_perm helperLe _).map _).nodup_iff.2 (nodup_classNames_outcomes [] p.helpers)
  have hapart : (ofProgram p registry runtime).helpers.Pairwise fun a b =>
      a.className ≠ b.className := List.pairwise_map.1 hnodup
  refine (hascending.and hapart).imp fun {a b} h => ?_
  have hle : a.sanitized ≤ b.sanitized := of_decide_eq_true h.1
  have hne : a.sanitized ≠ b.sanitized := fun heq => h.2 (Naming.helperClass_inj.2 heq)
  exact Decidable.byContradiction fun hnot =>
    hne (String.le_antisymm hle (String.not_lt.1 hnot))

theorem nodup_sanitized :
    (ofProgram p registry runtime).helpers.Pairwise fun a b => a.sanitized ≠ b.sanitized := by
  refine (pairwise_helpers p registry runtime).imp fun {a b} hlt heq => ?_
  rw [heq] at hlt
  exact String.lt_irrefl _ hlt

end Validation

/-! ## The files of a pass -/

namespace Emit

variable {runtime : RuntimeNames} {outDir : Path}

/-- A text exports a class when one of its lines opens the exported declaration of it. -/
def Exports (content className : String) : Prop :=
  ∃ before parent after, content =
    before ++ "\n" ++ line 0 ("export class " ++ className ++ " extends " ++ parent ++ " \x7b") ++
      after

theorem exports_render (m : ModuleCode) : Exports m.render m.exported.name := by
  refine ⟨ModuleCode.header m.source ++ ImportBlock.render m.imports, m.exported.parent,
    Member.renderAll m.exported.members ++ line 0 "\x7d" ++
      (if m.trailer.isEmpty then "" else "\n" ++ Stmt.renderAll 0 m.trailer), ?_⟩
  simp only [ModuleCode.render, ClassCode.render, String.append_assoc]

/-- The classes that are made for a helper. -/
def classNamesOf (h : Helper) : List String :=
  h.className :: if h.writesConfig then [h.configName] else []

theorem mem_classNamesOf {name : String} {h : Helper} (hname : name ∈ classNamesOf h) :
    name = h.className ∨ name = h.configName := by
  unfold classNamesOf at hname
  split at hname <;> simp_all

theorem nodup_classNamesOf (h : Helper) : (classNamesOf h).Nodup := by
  have hne : h.className ≠ h.configName := (Naming.configClass_ne_helperClass _ _).symm
  unfold classNamesOf
  split <;> simp [hne]

/-- Helpers of different sanitized names have no class name in common. -/
theorem disjoint_classNamesOf {a b : Helper} (hne : a.sanitized ≠ b.sanitized) :
    (classNamesOf a).Disjoint (classNamesOf b) := by
  intro name ha hb
  rcases mem_classNamesOf ha with rfl | rfl
  · rcases mem_classNamesOf hb with heq | heq
    · exact hne (Naming.helperClass_inj.1 heq)
    · exact Naming.configClass_ne_helperClass _ _ heq.symm
  · rcases mem_classNamesOf hb with heq | heq
    · exact Naming.configClass_ne_helperClass _ _ heq
    · exact hne (Naming.configClass_inj.1 heq)

theorem map_className_filesOf (h : Helper) :
    (filesOf runtime outDir h).map (·.className) = classNamesOf h := by
  unfold filesOf modulesOf classNamesOf
  split <;> rfl

theorem nodup_classNames_generate {helpers : List Helper}
    (hapart : helpers.Pairwise fun a b => a.sanitized ≠ b.sanitized) :
    ((generate runtime outDir helpers).map (·.className)).Nodup := by
  have hnames : (generate runtime outDir helpers).map (·.className) =
      helpers.flatMap classNamesOf := by
    simp only [generate, List.map_flatMap, map_className_filesOf]
  rw [hnames, List.nodup_flatMap]
  refine ⟨fun h _ => nodup_classNamesOf h, hapart.imp fun hne => ?_⟩
  exact disjoint_classNamesOf hne

/-- A generated file is a module of an accepted helper, named after the class that it exports. -/
theorem exists_module_of_mem_generate {helpers : List Helper} {f : GeneratedFile}
    (hf : f ∈ generate runtime outDir helpers) :
    ∃ h ∈ helpers, ∃ m ∈ modulesOf runtime outDir h, f = fileOf h m := by
  obtain ⟨h, hh, hfile⟩ := List.mem_flatMap.1 hf
  obtain ⟨m, hm, rfl⟩ := List.mem_map.1 hfile
  exact ⟨h, hh, m, hm, rfl⟩

theorem fileName_eq_of_mem_generate {helpers : List Helper} {f : GeneratedFile}
    (hf : f ∈ generate runtime outDir helpers) : f.fileName = Naming.moduleFile f.className := by
  obtain ⟨h, -, m, -, rfl⟩ := exists_module_of_mem_generate hf
  rfl

theorem nodup_fileNames_generate {helpers : List Helper}
    (hapart : helpers.Pairwise fun a b => a.sanitized ≠ b.sanitized) :
    ((generate runtime outDir helpers).map (·.fileName)).Nodup := by
  have hnames : (generate runtime outDir helpers).map (·.fileName) =
      ((generate runtime outDir helpers).map (·.className)).map Naming.moduleFile := by
    rw [List.map_map]
    exact List.map_congr_left fun f hf => fileName_eq_of_mem_generate hf
  rw [hnames]
  exact (nodup_classNames_generate hapart).map Naming.moduleFile_injective

theorem slash_notMem_fileName {helpers : List Helper} {f : GeneratedFile}
    (hf : f ∈ generate runtime outDir helpers) : '/' ∉ f.fileName.toList := by
  obtain ⟨h, -, m, hm, rfl⟩ := exists_module_of_mem_generate hf
  have hname : m.exported.name ∈ classNamesOf h := by
    rw [← @map_className_filesOf runtime outDir h]
    exact List.mem_map_of_mem (List.mem_map_of_mem hm)
  have hsanitized := Naming.slash_notMem_sanitize h.name
  have hfile : (fileOf h m).fileName = m.exported.name ++ ".ts" := rfl
  rw [hfile]
  rcases mem_classNamesOf hname with heq | heq
  · simp [heq, Helper.className, Naming.helperClass, hsanitized]
  · simp [heq, Helper.configName, Naming.configClass, hsanitized]

end Emit

/-! ## Writing the files -/

/-- What stands between a path and a name below it. -/
def Path.separator (p : Path) : String :=
  if p.text.isEmpty || p.text.toList.getLast? = some '/' then "" else "/"

theorem Path.join_of_slash_notMem (p : Path) {name : String} (h : '/' ∉ name.toList) :
    p.join ⟨name⟩ = ⟨p.text ++ p.separator ++ name⟩ := by
  have hrelative : ¬ (⟨name⟩ : Path).isAbsolute = true := by
    intro habsolute
    exact h (List.mem_of_head? (of_decide_eq_true habsolute))
  unfold join separator
  rw [if_neg hrelative]
  split <;> simp

namespace Workspace

open DaoGen.Emit

variable {t : Tree} {outDir : Path} {files : List GeneratedFile}

/-- Each file is written or counted as a failure. -/
theorem length_written_writeFiles (t : Tree) (outDir : Path) (files : List GeneratedFile) :
    (writeFiles t outDir files).written.length + (writeFiles t outDir files).failures =
      files.length := by
  by_cases hne : files = []
  · subst hne
    rfl
  · cases hmade : (t.makeDirectories outDir).2 with
    | some o =>
      obtain ⟨-, hwritten, hfailures⟩ := writeFiles_of_obstacle hne hmade
      rw [hwritten, hfailures, List.length_nil, Nat.zero_add]
    | none =>
      rw [writeFiles_of_made hne hmade, written_foldl_writeFile, failures_foldl_writeFile,
        List.nil_append, Nat.zero_add, List.length_map, ← List.countP_eq_length_filter]
      simp only [List.length_eq_countP_add_countP (isFree outDir (t.makeDirectories outDir).1),
        Bool.not_eq_true, Bool.decide_eq_false]

/-- A location at which one file only is written holds that file in the end. -/
theorem contentAfter_of_unique {f : GeneratedFile} (hf : f ∈ files)
    (hunique : ∀ g ∈ files, targetOf outDir g = targetOf outDir f → g = f) (old : Option Entry) :
    contentAfter outDir (targetOf outDir f) files old = some (.file (.text f.content)) := by
  induction files generalizing old with
  | nil => cases hf
  | cons first rest ih =>
    have hrest : ∀ g ∈ rest, targetOf outDir g = targetOf outDir f → g = f :=
      fun g hg => hunique g (List.mem_cons_of_mem first hg)
    rcases List.mem_cons.1 hf with rfl | hmem
    · have hcons : contentAfter outDir (targetOf outDir f) (f :: rest) old =
          contentAfter outDir (targetOf outDir f) rest (some (.file (.text f.content))) := by
        rw [contentAfter, List.foldl_cons, if_pos rfl, ← contentAfter]
      rw [hcons]
      rcases contentAfter_cases rest (targetOf outDir f) _ with hsame | ⟨g, hg, htarget, hcontent⟩
      · exact hsame
      · rw [hcontent, hrest g hg htarget]
    · exact ih hmem hrest _

/-- Files of different names that are written are all found in the end. -/
theorem get?_of_mem_written {f : GeneratedFile} (hf : f ∈ files)
    (hnames : (files.map (·.fileName)).Nodup) (hplain : ∀ g ∈ files, '/' ∉ g.fileName.toList)
    (hwritten : outDir.join ⟨f.fileName⟩ ∈ (writeFiles t outDir files).written) :
    (writeFiles t outDir files).tree.get? (targetOf outDir f) =
      some (.file (.text f.content)) := by
  have hinj : ∀ g ∈ files, g.fileName = f.fileName → g = f :=
    fun g hg heq => List.inj_on_of_nodup_map hnames hg hf heq
  have hne : files ≠ [] := List.ne_nil_of_mem hf
  cases hmade : (t.makeDirectories outDir).2 with
  | some o =>
    rw [(writeFiles_of_obstacle hne hmade).2.1] at hwritten
    cases hwritten
  | none =>
    rw [writeFiles_of_made hne hmade, written_foldl_writeFile, List.nil_append] at hwritten
    obtain ⟨g, hfree, hpath⟩ := List.mem_map.1 hwritten
    have hg : g ∈ files := (List.mem_filter.1 hfree).1
    rw [Path.join_of_slash_notMem outDir (hplain g hg),
      Path.join_of_slash_notMem outDir (hplain f hf)] at hpath
    obtain rfl := hinj g hg (String.append_right_inj _ |>.1 (congrArg Path.text hpath))
    rw [writeFiles_of_made hne hmade, get?_foldl_writeFile]
    refine contentAfter_of_unique hfree (fun k hk htarget => ?_) _
    have hname : k.fileName.toList = g.fileName.toList :=
      (List.cons.inj (List.append_cancel_left htarget)).1
    exact hinj k (List.mem_filter.1 hk).1 (String.toList_inj.1 hname)

end Workspace

/-! ## The files of a program -/

namespace Emit

open Workspace

/-- The helpers of a program ascend strictly by sanitized name.  The files that are generated for
them have different names and export different classes, each the one that it is named after, and
every file that is written is there with its own content when all of them were written. -/
theorem generated_files_apart (p : Program) (registry : Registry) (runtime : RuntimeNames)
    (outDir : Path) :
    let helpers := (Validation.ofProgram p registry runtime).helpers
    let files := generate runtime outDir helpers
    (helpers.Pairwise fun a b => a.sanitized < b.sanitized) ∧
      (files.map (·.fileName)).Nodup ∧ (files.map (·.className)).Nodup ∧
      (∀ f ∈ files, f.fileName = Naming.moduleFile f.className ∧ Exports f.content f.className) ∧
      ∀ t : Tree,
        (writeFiles t outDir files).written.length + (writeFiles t outDir files).failures =
          files.length ∧
        ∀ f ∈ files, outDir.join ⟨f.fileName⟩ ∈ (writeFiles t outDir files).written →
          (writeFiles t outDir files).tree.get? (targetOf outDir f) =
            some (.file (.text f.content)) := by
  intro helpers files
  have hascending := Validation.pairwise_helpers p registry runtime
  have hclasses : (files.map (·.className)).Nodup :=
    nodup_classNames_generate (Validation.nodup_sanitized p registry runtime)
  have hnames : (files.map (·.fileName)).Nodup :=
    nodup_fileNames_generate (Validation.nodup_sanitized p registry runtime)
  refine ⟨hascending, hnames, hclasses, fun f hf => ⟨fileName_eq_of_mem_generate hf, ?_⟩,
    fun t => ⟨length_written_writeFiles t outDir files, fun f hf => ?_⟩⟩
  · obtain ⟨h, -, m, -, rfl⟩ := exists_module_of_mem_generate hf
    exact exports_render m
  · exact get?_of_mem_written hf hnames fun g hg => slash_notMem_fileName hg

/-- Two helpers whose names differ in capitals, one of them with a config writer. -/
theorem generated_files_apart_two :
    let options (name : String) (config : Bool) : Source.Expr :=
      .object default [("name", .string default name), ("withConfigUtil", .boolean default config)]
    let owner (name db : String) (config : Bool) : Source.SourceClass :=
      ⟨name, none, [⟨"Helper", none, [options db config], default⟩], [], [], false, true, default⟩
    let p := Program.ofSources ⟨"/src"⟩
      [⟨⟨"/src/tasks.ts"⟩, "", [], [owner "A" "tASKS" false, owner "B" "tasks" true,
        owner "C" "Tasks" false], []⟩]
    let files := generate {} ⟨"/out"⟩ (Validation.ofProgram p (Registry.ofProgram p) {}).helpers
    (files.map (·.fileName)) =
        ["TASKSDatabaseHelper.ts", "TasksDatabaseHelper.ts", "TasksDatabaseConfigUtil.ts"] ∧
      (files.map (·.className)).Nodup ∧
      ∀ f ∈ files, (writeFiles {} ⟨"/out"⟩ files).tree.get? (targetOf ⟨"/out"⟩ f) =
        some (.file (.text f.content)) := by
  intro options owner p files
  obtain ⟨-, -, hclasses, -, hwrite⟩ :=
    generated_files_apart p (Registry.ofProgram p) {} ⟨"/out"⟩
  have htexts : ∀ f ∈ files, ((⟨"/out"⟩ : Path).join ⟨f.fileName⟩).text ∈
      (writeFiles {} ⟨"/out"⟩ files).written.map (·.text) := by
    decide +kernel
  have hwritten : ∀ f ∈ files,
      (⟨"/out"⟩ : Path).join ⟨f.fileName⟩ ∈ (writeFiles {} ⟨"/out"⟩ files).written := by
    intro f hf
    obtain ⟨path, hpath, heq⟩ := List.mem_map.1 (htexts f hf)
    rwa [show path = _ from congrArg Path.mk heq] at hpath
  exact ⟨by decide +kernel, hclasses, fun f hf => (hwrite {}).2 f hf (hwritten f hf)⟩

end Emit

end DaoGen
