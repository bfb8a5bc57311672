import DaoGen.Emit.Generation
import DaoGen.Proofs.Emit.FileOrder
import DaoGen.Proofs.Helper.Tables
import DaoGen.Proofs.Program.Indices
set_option autoImplicit false

/-!
# Looking up nothing that is not there

Finding the id types of tables and checking helpers look up classes and files by their indices.
Over look-ups that find what there is, these steps come to what they come to in a program without
stray indices (`Lookup.Finds.registry`, `Lookup.Finds.validation`); so over look-ups that fail for
an index of nothing, none of them fails.  Generating looks nothing up: all that it needs is in the
accepted helpers.

With what is known about indices in the program of some source files this is
`Program.indices_consistent`.
-/

namespace DaoGen

open DaoGen.Source (SourceFile SourceClass)
open DaoGen.Schema DaoGen.HelperDeclaration

/-- The registry of a program, unless a class or a file is looked up that is not there. -/
def Schema.Registry.ofProgram? (p : Program) : Option Registry := p.lookup?.registry p.tables

/-- The validation of a program, unless a class or a file is looked up that is not there. -/
def Validation.ofProgram? (p : Program) (registry : Registry) (runtime : RuntimeNames) :
    Option Validation :=
  p.lookup?.validation p registry runtime

namespace HelperDeclaration

variable {p : Program} {registry : Registry} {h : HelperDeclaration}

/-- Entries of tables that were found to stand for classes of the program are accepted as tables of
such classes. -/
theorem id_lt_of_mem_values
    (hentries : ∀ e ∈ h.tables, ∀ id, e.resolution = .found id → id < p.classes.length)
    {t : Table} (ht : t ∈ values (h.tables.map (acceptTable registry))) :
    t.id < p.classes.length := by
  obtain ⟨e, he, haccept⟩ := List.mem_map.1 (mem_values.1 ht)
  obtain ⟨id, hfound, hlookup⟩ := acceptTable_eq_ok_iff.1 haccept
  have htest := List.find?_some hlookup
  have hid : t.id = id := of_decide_eq_true htest
  rw [hid]
  exact hentries e he id hfound

end HelperDeclaration

namespace Lookup.Finds

variable {m : Type → Type} [Monad m] [LawfulMonad m] {look : Lookup m} {p : Program}
  {id : ClassId}

/-! ## Id types -/

section

variable (h : look.Finds p) (hp : p.WellIndexed)

include h hp

theorem ownIdType (hid : id < p.classes.length) :
    look.ownIdType id = pure (Schema.ownIdType p id) := by
  rw [Lookup.ownIdType, h.classAt id hid, pure_bind, ownIdType_def]
  cases (p.classAt id).idField with
  | none => rfl
  | some field =>
    dsimp only
    rw [h.fileAt _ (hp.file_lt hid), pure_bind]
    rfl

/-- A question is answered as the program answers it. -/
theorem answer {w : Walk} (hid : id < p.classes.length) :
    look.answer w id = pure (w.resolve p id) := by
  induction w, id using Lookup.answer.induct p.lookup with
  | case1 w id answer hknown =>
    rw [Lookup.answer, hknown, Walk.resolve_of_known hknown]
  | case2 w id hknown hopen =>
    rw [Lookup.answer, hknown, Walk.resolve_of_open hknown hopen]
    exact dif_pos hopen
  | case3 w id hknown hnew ih =>
    rw [Lookup.answer, hknown, Walk.resolve_of_new hknown hnew]
    dsimp only
    rw [dif_neg hnew, h.ownIdType hp hid, pure_bind]
    cases Schema.ownIdType p id with
    | some found => exact pure_bind _ _
    | none =>
      dsimp only
      rw [h.parentOf hp hid, pure_bind]
      cases hparent : p.parentOf id with
      | none => exact pure_bind _ _
      | some parent =>
        have hcount : id < look.count := h.count ▸ hid
        dsimp only
        rw [dif_pos hcount, ih parent hid (hp.parents id parent hparent), pure_bind]

theorem answers {ids : List ClassId} (hids : ∀ id ∈ ids, id < p.classes.length) (w : Walk) :
    look.answers w ids = pure (w.resolveAll p ids) := by
  induction ids generalizing w with
  | nil => rfl
  | cons id rest ih =>
    have hrest := ih fun other hother => hids other (List.mem_cons_of_mem id hother)
    rw [Lookup.answers, h.answer hp (hids id List.mem_cons_self), pure_bind]
    dsimp only
    rw [hrest, pure_bind]
    rfl

/-- Looking up nothing but what is there gives the registry of the program. -/
theorem registry : look.registry p.tables = pure (Registry.ofProgram p) := by
  have htables : ∀ id ∈ (sortBy (fun a b => a ≤ b) p.tables).eraseReps, id < p.classes.length :=
    fun id hid => hp.lt_of_mem_tables (((Registry.tableIds_spec p).2 id).1 hid)
  rw [Lookup.registry, h.answers hp fun _ => hp.lt_of_mem_tables, pure_bind,
    Registry.ofProgram_def]
  dsimp only
  rw [filterMapM_eq_pure fun id hid => ?_, pure_bind]
  rw [h.classAt id (htables id hid), pure_bind]
  cases ((p.tables.zip (Walk.resolveAll p {} p.tables).1).lookup id).join with
  | none => rfl
  | some found =>
    dsimp only
    rw [Lookup.tableOf, h.homeOf hp (htables id hid), pure_bind, pure_bind]
    rfl

end

/-! ## Checks -/

section

variable {registry : Registry} {runtime : RuntimeNames} {d : HelperDeclaration}
  {routines : List RoutineDeclaration}

theorem acceptName (h : look.Finds p) (howner : d.owner < p.classes.length) :
    look.acceptName d = pure (d.acceptName p) := by
  rw [Lookup.acceptName, h.classAt _ howner, pure_bind, HelperDeclaration.acceptName_def]
  cases d.name with
  | none => rfl
  | some name =>
    dsimp only
    split <;> rfl

theorem tableWarning (h : look.Finds p) {t : Table} (ht : t.id < p.classes.length) :
    look.tableWarning t = pure (HelperDeclaration.tableWarning p t) := by
  rw [Lookup.tableWarning, h.classAt _ ht, pure_bind, HelperDeclaration.tableWarning_def]

theorem ownerWarning (h : look.Finds p) (howner : d.owner < p.classes.length) :
    look.ownerWarning d = pure (d.ownerWarning p) := by
  rw [Lookup.ownerWarning, h.classAt _ howner, pure_bind, HelperDeclaration.ownerWarning_def]

variable (h : look.Finds p) (hp : p.WellIndexed)

include h hp

theorem ownerDiagnostics (howner : d.owner < p.classes.length) :
    look.ownerDiagnostics d = pure (d.ownerDiagnostics p) := by
  rw [Lookup.ownerDiagnostics, h.classAt _ howner, pure_bind, h.canMake hp howner, pure_bind,
    HelperDeclaration.ownerDiagnostics_def]
  split
  · rfl
  · split <;> rfl

theorem diagnostics (howner : d.owner < p.classes.length) :
    look.diagnostics registry runtime d routines =
      pure (d.diagnostics p registry runtime routines) := by
  rw [Lookup.diagnostics, h.ownerDiagnostics hp howner, pure_bind, h.acceptName howner, pure_bind,
    HelperDeclaration.diagnostics_def]

/-- A helper declaration of the program is checked alike. -/
theorem accept (hd : d ∈ p.helpers) :
    look.accept registry runtime d routines = pure (d.accept p registry runtime routines) := by
  have howner := hp.owner_lt hd
  have hwarnings : (values (d.tables.map (acceptTable registry))).filterMapM look.tableWarning =
      pure ((values (d.tables.map (acceptTable registry))).filterMap
        (HelperDeclaration.tableWarning p)) :=
    filterMapM_eq_pure fun t ht =>
      h.tableWarning (HelperDeclaration.id_lt_of_mem_values (hp.entries d hd) ht)
  rw [Lookup.accept, h.classAt _ howner, pure_bind, h.homeOf hp howner, pure_bind,
    h.acceptName howner, pure_bind, h.diagnostics hp howner, pure_bind, hwarnings, pure_bind,
    h.ownerWarning howner, pure_bind, HelperDeclaration.accept_def]

theorem outcomes {ds : List HelperDeclaration} (hds : ∀ d ∈ ds, d ∈ p.helpers)
    (claims : Validation.Claims) :
    look.outcomes p registry runtime claims ds =
      pure (Validation.outcomes p registry runtime claims ds) := by
  induction ds generalizing claims with
  | nil => rfl
  | cons d rest ih =>
    have hd := hds d List.mem_cons_self
    have hrest := ih fun other hother => hds other (List.mem_cons_of_mem d hother)
    rw [Lookup.outcomes, h.classAt _ (hp.owner_lt hd), pure_bind, Validation.outcomes_cons]
    unfold Validation.outcomeOf Validation.duplicate?
    cases Validation.duplicateBy? (p.classAt d.owner).name claims d with
    | some e =>
      dsimp only
      rw [pure_bind, hrest, pure_bind]
      rfl
    | none =>
      dsimp only
      rw [h.accept hp hd, pure_bind, hrest, pure_bind]
      rfl

/-- Looking up nothing but what is there gives the validation of the program. -/
theorem validation :
    look.validation p registry runtime = pure (Validation.ofProgram p registry runtime) := by
  rw [Lookup.validation, h.outcomes hp fun _ hd => hd, pure_bind, Validation.ofProgram_def]

end

end Lookup.Finds

namespace Program

/-- Every index in the program of some source files is in range.  A declaration carries the index of
the very class that it was made on, which has the file, the name and the place of the class of the
source file, and all declarations of that index are made by the decorators of that class and its
methods.  So finding the id types of tables, checking helpers and generating their modules never
look up a class or a file that is not there. -/
theorem indices_consistent (sourceDir outDir : Path) (files : List SourceFile)
    (runtime : RuntimeNames) :
    let p := ofSources sourceDir files
    (∀ s ∈ p.classes, s.file < p.files.length) ∧
      (∀ d ∈ p.declarations, d.owner < p.classes.length ∧
        ∃ (file : FileId) (f : SourceFile) (k : Nat) (c : SourceClass) (s : ScannedClass),
          files[file]? = some f ∧ f.classes[k]? = some c ∧ d.owner = firstClass files file + k ∧
          p.classes[d.owner]? = some s ∧ s.IsOf file f c ∧
          d ∈ (ofClasses sourceDir files).declarationsOf d.owner file f c) ∧
      (∀ (file : FileId) (f : SourceFile) (k : Nat) (c : SourceClass), files[file]? = some f →
        f.classes[k]? = some c →
          (∃ s, p.classes[firstClass files file + k]? = some s ∧ s.IsOf file f c) ∧
          p.declarations.filter (·.owner = firstClass files file + k) =
            (ofClasses sourceDir files).declarationsOf (firstClass files file + k) file f c) ∧
      (∀ h ∈ p.helpers, ∀ e ∈ h.tables, ∀ id, e.resolution = .found id →
        id < p.classes.length) ∧
      (∀ id parent, p.parentOf id = some parent → parent < p.classes.length) ∧
      (do
        let registry ← Registry.ofProgram? p
        let checked ← Validation.ofProgram? p registry runtime
        return (registry, checked, Emit.generate runtime outDir checked.helpers)) =
        some (Registry.ofProgram p, Validation.ofSources runtime sourceDir files,
          Emit.generate runtime outDir (Validation.ofSources runtime sourceDir files).helpers) := by
  intro p
  have hp : p.WellIndexed := wellIndexed_ofSources sourceDir files
  refine ⟨hp.files, fun d hd => ⟨hp.owners d hd, ?_⟩, fun file f k c hfile hc => ?_, hp.entries,
    hp.parents, ?_⟩
  · obtain ⟨⟨⟨file, f, c⟩, owner⟩, hx, hdeclared⟩ := List.mem_flatMap.1 hd
    have hget := List.mem_zipIdx_iff_getElem?.1 hx
    obtain ⟨hfile, k, hc, hposition⟩ := getElem?_sourceClasses_iff.1 hget
    obtain ⟨s, hs, hclass⟩ := isOf_ofSources sourceDir hget
    obtain rfl := owner_of_mem_declarationsOf hdeclared
    exact ⟨file, f, k, c, s, hfile, hc, hposition, hs, hclass, hdeclared⟩
  · have hget := getElem?_sourceClasses_iff.2 ⟨hfile, k, hc, rfl⟩
    exact ⟨isOf_ofSources sourceDir hget, filter_owner_declarations sourceDir hget⟩
  · have hfinds := p.finds_lookup?
    rw [Registry.ofProgram?, hfinds.registry hp, pure_bind, Validation.ofProgram?,
      hfinds.validation hp, pure_bind]
    rfl

end Program

end DaoGen
