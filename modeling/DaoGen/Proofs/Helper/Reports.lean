import DaoGen.Proofs.Helper.Acceptance
import Mathlib.Data.List.Forall2
set_option autoImplicit false

/-!
# What a helper declaration is checked for

A declaration is checked for a list of requirements (`requirements`), each of which is met or not
(`isMet`).  There is one diagnostic for each requirement that is not met, in their order
(`forall₂_reports_diagnostics`), with one exception: nothing is said of the constructors of an
abstract class (`isMasked`).
-/

namespace DaoGen.HelperDeclaration

open DaoGen.Upgrade DaoGen.Schema

/-! ## Requirements -/

/-- What a helper declaration is checked for. -/
inductive Requirement where
  /-- no argument is without a usable value -/
  | argument (issue : ArgumentIssue)
  /-- the class is not abstract -/
  | concrete
  /-- the class can be made without arguments -/
  | constructible
  | name
  | version
  | table (entry : TableEntry)
  | routine (r : RoutineDeclaration)

/-- The requirements of a declaration and the routines of its class, in the order of the checks. -/
def requirements (d : HelperDeclaration) (routines : List RoutineDeclaration) :
    List Requirement :=
  d.issues.map .argument ++ [.concrete, .constructible] ++ [.name, .version] ++
    d.tables.map .table ++ routines.map .routine

section

variable (p : Program) (registry : Registry) (runtime : RuntimeNames) (d : HelperDeclaration)

/-- Whether a requirement is met.  An issue stands for an argument that has no usable value. -/
def isMet : Requirement → Bool
  | .argument _ => false
  | .concrete => !(p.classAt d.owner).isAbstract
  | .constructible => p.canMake d.owner
  | .name => d.name.any fun name => Naming.sanitize name.value ≠ ""
  | .version => d.version.all fun version => 1 ≤ version.value ∧ version.value < (Version.limit : Int)
  | .table entry =>
    match entry.resolution with
    | .found id => (registry.lookup id).isSome
    | _ => false
  | .routine r => (r.accept runtime).isOk

/-- The requirements that are not met. -/
def violated (routines : List RoutineDeclaration) : List Requirement :=
  (d.requirements routines).filter (!d.isMet p registry runtime ·)

/-- The diagnostics that say of a requirement that it is not met. -/
inductive Reports : Requirement → Diagnostic → Prop where
  | argument (issue : ArgumentIssue) : Reports (.argument issue) issue.diagnostic
  | concrete : Reports .concrete
      ⟨.abstractHelper (p.classAt d.owner).name, (p.classAt d.owner).place⟩
  | constructible : Reports .constructible
      ⟨.missingEmptyConstructor (p.classAt d.owner).name, (p.classAt d.owner).place⟩
  | missingName (h : d.name = none) : Reports .name
      ⟨.missingHelperName (p.classAt d.owner).name, d.place⟩
  | invalidName {name : Located String} (h : d.name = some name) : Reports .name
      ⟨.invalidHelperName name.value, name.place⟩
  | version {version : Located Int} (h : d.version = some version) : Reports .version
      ⟨.invalidHelperVersion version.value, version.place⟩
  | missingTable {entry : TableEntry} (h : ∀ count, entry.resolution ≠ .ambiguous count) :
      Reports (.table entry) ⟨.missingTableId entry.written, entry.place⟩
  | ambiguousTable {entry : TableEntry} {count : Nat} (h : entry.resolution = .ambiguous count) :
      Reports (.table entry) ⟨.ambiguousTable entry.written count, entry.place⟩
  | routine {r : RoutineDeclaration} {e : Diagnostic} (h : r.accept runtime = .error e) :
      Reports (.routine r) e

/-- Whether nothing is said of a requirement: of the constructors of an abstract class. -/
def isMasked : Requirement → Bool
  | .constructible => (p.classAt d.owner).isAbstract
  | _ => false

/-! ## One requirement -/

/-- What the check of a requirement alone complains about. -/
def report? : Requirement → Option Diagnostic
  | .argument issue => some issue.diagnostic
  | .concrete =>
    if (p.classAt d.owner).isAbstract then
      some ⟨.abstractHelper (p.classAt d.owner).name, (p.classAt d.owner).place⟩
    else none
  | .constructible =>
    if p.canMake d.owner then none
    else some ⟨.missingEmptyConstructor (p.classAt d.owner).name, (p.classAt d.owner).place⟩
  | .name => error? (d.acceptName p)
  | .version => error? d.acceptVersion
  | .table entry => error? (acceptTable registry entry)
  | .routine r => error? (r.accept runtime)

end

section

variable {p : Program} {registry : Registry} {runtime : RuntimeNames} {d : HelperDeclaration}

/-- A declared version is accepted as it is when it is in range. -/
theorem acceptVersion_of_some {version : Located Int} (h : d.version = some version) :
    d.acceptVersion =
      if 1 ≤ version.value ∧ version.value < Version.limit then .ok version.value.toNat
      else .error ⟨.invalidHelperVersion version.value, version.place⟩ := by
  unfold acceptVersion
  rw [h]
  dsimp only
  cases hof : Version.ofInt? version.value with
  | none =>
    have hout : ¬ (1 ≤ version.value ∧ version.value < Version.limit) := by
      rintro ⟨hpos, hmost⟩
      have hin : Version.ofInt? version.value = some version.value.toNat :=
        if_pos ⟨by omega, by omega⟩
      rw [hof] at hin
      cases hin
    rw [if_neg hout]
  | some v =>
    obtain ⟨hvalue, hbelow⟩ := Version.ofInt?_eq_some_iff.1 hof
    rcases v with _ | v
    · have hzero : version.value = 0 := hvalue
      rw [if_neg (by omega)]
    · rw [if_pos ⟨by omega, by omega⟩, hvalue]
      rfl

/-- A check complains exactly when its requirement is not met. -/
theorem report?_eq_none_iff {requirement : Requirement} :
    d.report? p registry runtime requirement = none ↔
      d.isMet p registry runtime requirement = true := by
  cases requirement with
  | argument issue => exact iff_of_false (Option.some_ne_none _) Bool.false_ne_true
  | concrete =>
    unfold report? isMet
    cases (p.classAt d.owner).isAbstract <;> simp
  | constructible =>
    unfold report? isMet
    cases p.canMake d.owner <;> simp
  | name =>
    unfold report? isMet
    rw [acceptName_def]
    cases d.name with
    | none => simp [error?]
    | some name =>
      by_cases hname : Naming.sanitize name.value = "" <;> simp [hname, error?]
  | version =>
    unfold report? isMet
    cases hversion : d.version with
    | none => simp [acceptVersion, hversion, error?]
    | some version =>
      dsimp only
      rw [acceptVersion_of_some hversion, Option.all_some, decide_eq_true_iff]
      split
      · rename_i hin
        exact iff_of_true rfl hin
      · rename_i hout
        exact iff_of_false (Option.some_ne_none _) hout
  | table entry =>
    unfold report? isMet acceptTable
    dsimp only
    cases entry.resolution with
    | found id =>
      dsimp only
      cases registry.lookup id <;> simp [error?]
    | notFound => simp [error?]
    | ambiguous count => simp [error?]
  | routine r =>
    unfold report? isMet
    dsimp only
    cases r.accept runtime <;> simp [error?, Except.isOk, Except.toBool]

/-- What a check complains about says that its requirement is not met. -/
theorem reports_of_report? {requirement : Requirement} {e : Diagnostic}
    (h : d.report? p registry runtime requirement = some e) :
    d.Reports p runtime requirement e := by
  cases requirement with
  | argument issue =>
    obtain rfl := Option.some.inj h
    exact .argument issue
  | concrete =>
    unfold report? at h
    dsimp only at h
    split at h
    · obtain rfl := Option.some.inj h
      exact .concrete
    · cases h
  | constructible =>
    unfold report? at h
    dsimp only at h
    split at h
    · cases h
    · obtain rfl := Option.some.inj h
      exact .constructible
  | name =>
    unfold report? at h
    rw [acceptName_def] at h
    dsimp only at h
    split at h
    · rename_i hnone
      obtain rfl := Option.some.inj h
      exact .missingName hnone
    · rename_i name hname
      split at h
      · obtain rfl := Option.some.inj h
        exact .invalidName hname
      · cases h
  | version =>
    unfold report? at h
    dsimp only at h
    cases hversion : d.version with
    | none =>
      simp [acceptVersion, hversion, error?] at h
    | some version =>
      rw [acceptVersion_of_some hversion] at h
      split at h
      · cases h
      · obtain rfl := Option.some.inj h
        exact .version hversion
  | table entry =>
    unfold report? acceptTable at h
    dsimp only at h
    split at h
    · rename_i id hfound
      split at h
      · cases h
      · obtain rfl := Option.some.inj h
        exact .missingTable (by simp [hfound])
    · rename_i hmissing
      obtain rfl := Option.some.inj h
      exact .missingTable (by simp [hmissing])
    · rename_i count hcount
      obtain rfl := Option.some.inj h
      exact .ambiguousTable hcount
  | routine r =>
    unfold report? at h
    dsimp only at h
    cases haccept : r.accept runtime with
    | ok step =>
      rw [haccept] at h
      cases h
    | error e' =>
      rw [haccept] at h
      obtain rfl := Option.some.inj h
      exact .routine haccept

/-! ## All requirements -/

/-- What checks complain about, one check after the other. -/
theorem forall₂_filterMap {α β : Type} {R : α → β → Prop} {f : α → Option β}
    (h : ∀ a b, f a = some b → R a b) (l : List α) :
    List.Forall₂ R (l.filter fun a => (f a).isSome) (l.filterMap f) := by
  induction l with
  | nil => exact .nil
  | cons a rest ih =>
    cases hf : f a with
    | none =>
      rw [List.filterMap_cons_none hf, List.filter_cons_of_neg (by simp [hf])]
      exact ih
    | some b =>
      rw [List.filterMap_cons_some hf, List.filter_cons_of_pos (by simp [hf])]
      exact .cons (h a b hf) ih

variable {routines : List RoutineDeclaration}

/-- The diagnostics of a declaration are the complaints of all checks but the masked one. -/
theorem diagnostics_eq_filterMap :
    d.diagnostics p registry runtime routines =
      ((d.requirements routines).filter (!d.isMasked p ·)).filterMap
        (d.report? p registry runtime) := by
  have hkept : ∀ {α : Type} (f : α → Requirement) (l : List α),
      (∀ a, d.isMasked p (f a) = false) →
        ((l.map f).filter (!d.isMasked p ·)).filterMap (d.report? p registry runtime) =
          l.filterMap fun a => d.report? p registry runtime (f a) := by
    intro α f l hf
    have hall : (l.map f).filter (!d.isMasked p ·) = l.map f := by
      refine List.filter_eq_self.2 fun requirement hmem => ?_
      obtain ⟨a, -, rfl⟩ := List.mem_map.1 hmem
      rw [hf a]
      rfl
    rw [hall, List.filterMap_map]
    rfl
  have hclass : ([.concrete, .constructible].filter (!d.isMasked p ·)).filterMap
      (d.report? p registry runtime) = ownerDiagnostics p d := by
    rw [ownerDiagnostics_def]
    cases habstract : (p.classAt d.owner).isAbstract <;> cases hmake : p.canMake d.owner <;>
      simp [isMasked, report?, habstract, hmake]
  have hdeclared : ([.name, .version].filter (!d.isMasked p ·)).filterMap
      (d.report? p registry runtime) =
        (error? (acceptName p d)).toList ++ (error? (acceptVersion d)).toList := by
    cases hname : error? (acceptName p d) <;> cases hversion : error? (acceptVersion d) <;>
      simp [isMasked, report?, hname, hversion]
  rw [diagnostics_def]
  unfold requirements errors
  simp only [List.filter_append, List.filterMap_append, hclass, hdeclared]
  rw [hkept _ _ fun _ => rfl, hkept _ _ fun _ => rfl, hkept _ _ fun _ => rfl, List.filterMap_map,
    List.filterMap_map, ← List.filterMap_eq_map]
  simp only [List.append_assoc]
  rfl

theorem isSome_report? (requirement : Requirement) :
    (d.report? p registry runtime requirement).isSome =
      !d.isMet p registry runtime requirement := by
  rw [Bool.eq_iff_iff, Option.isSome_iff_ne_none, Ne, report?_eq_none_iff]
  simp

/-- There is one diagnostic for each requirement that is not met, but for the masked one. -/
theorem forall₂_reports_diagnostics :
    List.Forall₂ (d.Reports p runtime)
      ((d.violated p registry runtime routines).filter (!d.isMasked p ·))
      (d.diagnostics p registry runtime routines) := by
  rw [violated, List.filter_comm,
    ← List.filter_congr fun requirement _ => isSome_report? requirement, diagnostics_eq_filterMap]
  exact forall₂_filterMap (fun _ _ => reports_of_report?) _

/-- Each diagnostic says of a requirement that it is not met. -/
theorem exists_reports_of_mem_diagnostics {e : Diagnostic}
    (h : e ∈ d.diagnostics p registry runtime routines) :
    ∃ requirement ∈ d.violated p registry runtime routines,
      d.Reports p runtime requirement e := by
  rw [diagnostics_eq_filterMap] at h
  obtain ⟨requirement, hmem, hreport⟩ := List.mem_filterMap.1 h
  refine ⟨requirement, List.mem_filter.2 ⟨(List.mem_filter.1 hmem).1, ?_⟩,
    reports_of_report? hreport⟩
  rw [← isSome_report?, hreport]
  rfl

end

end DaoGen.HelperDeclaration
