import DaoGen.Emit.Generation
import DaoGen.Proofs.Helper.Accounting
set_option autoImplicit false

/-!
# Helpers do not disturb each other

A program holds many helper declarations, but what one of them gives depends on little of
it: on the files and classes, the declared tables and the routines of its own class
(`AgreesOn`, `AgreesOn.accept`), and on whether an earlier declaration has claimed its class
name.  So a declaration shows the same in the results of all programs that agree about it
(`Shows`): the same helper and the same files, or the same complaints and no file.
-/

namespace DaoGen

open DaoGen.Schema DaoGen.HelperDeclaration DaoGen.Validation

/-! ## What a declaration depends on -/

/-- Two programs say the same about all that a helper declaration is checked with. -/
structure AgreesOn (d : HelperDeclaration) (p q : Program) : Prop where
  files : q.files = p.files
  classes : q.classes = p.classes
  tables : ∀ id, id ∈ q.tables ↔ id ∈ p.tables
  routines : routinesOf q d.owner = routinesOf p d.owner

namespace AgreesOn

variable {d : HelperDeclaration} {p q : Program}

theorem renames (h : AgreesOn d p q) : Renames id id p q := by
  have hclasses : (p.classes.map fun c => c.inFile (id c.file)) = q.classes := by
    rw [h.classes]
    exact List.map_id' _
  refine ⟨?_, ?_⟩
  · rw [h.files]
    exact ⟨Function.injective_id, fun _ => rfl, rfl⟩
  · rw [hclasses]
    exact ⟨Function.injective_id, fun _ => rfl, rfl⟩

theorem classAt (h : AgreesOn d p q) (id : ClassId) : q.classAt id = p.classAt id := by
  unfold Program.classAt
  rw [h.classes]

theorem homeOf (h : AgreesOn d p q) (id : ClassId) : q.homeOf id = p.homeOf id := by
  rw [Program.homeOf_def, Program.homeOf_def, Program.fileOf, Program.fileOf, h.classAt,
    Program.fileAt, h.files]
  rfl

/-- The registries hold the same tables. -/
theorem lookup (h : AgreesOn d p q) (id : ClassId) :
    (Registry.ofProgram q).lookup id = (Registry.ofProgram p).lookup id := by
  have htable : Registry.table? q id = Registry.table? p id :=
    (h.renames.table? id).trans Option.map_id'
  rw [Registry.lookup_ofProgram, Registry.lookup_ofProgram, htable]
  simp only [h.tables]

theorem acceptTable (h : AgreesOn d p q) :
    HelperDeclaration.acceptTable (Registry.ofProgram q) =
      HelperDeclaration.acceptTable (Registry.ofProgram p) := by
  funext entry
  unfold HelperDeclaration.acceptTable
  simp only [h.lookup]

theorem tableWarning (h : AgreesOn d p q) :
    HelperDeclaration.tableWarning q = HelperDeclaration.tableWarning p := by
  funext table
  rw [HelperDeclaration.tableWarning_def, HelperDeclaration.tableWarning_def, h.classAt]

theorem diagnostics (h : AgreesOn d p q) (runtime : RuntimeNames)
    (routines : List RoutineDeclaration) :
    d.diagnostics q (Registry.ofProgram q) runtime routines =
      d.diagnostics p (Registry.ofProgram p) runtime routines := by
  have hcanMake : q.canMake d.owner = p.canMake d.owner := h.renames.canMake d.owner
  have howner : d.ownerDiagnostics q = d.ownerDiagnostics p := by
    rw [ownerDiagnostics_def, ownerDiagnostics_def, h.classAt, hcanMake]
  have hname : d.acceptName q = d.acceptName p := by
    rw [acceptName_def, acceptName_def, h.classAt]
  rw [HelperDeclaration.diagnostics_def, HelperDeclaration.diagnostics_def, howner, hname,
    h.acceptTable]

/-- A declaration is accepted alike, with the same warnings. -/
theorem accept (h : AgreesOn d p q) (runtime : RuntimeNames) :
    d.accept q (Registry.ofProgram q) runtime (routinesOf q d.owner) =
      d.accept p (Registry.ofProgram p) runtime (routinesOf p d.owner) := by
  have hname : d.acceptName q = d.acceptName p := by
    rw [acceptName_def, acceptName_def, h.classAt]
  have howner : d.ownerWarning q = d.ownerWarning p := by
    rw [ownerWarning_def, ownerWarning_def, h.classAt]
  rw [HelperDeclaration.accept_def, HelperDeclaration.accept_def, h.routines, h.diagnostics,
    h.acceptTable, h.tableWarning, howner, hname, h.classAt, h.homeOf]

end AgreesOn

/-! ## The files of one name -/

namespace Emit

/-- The files of the helpers of some declared name are those that belong to it. -/
theorem filter_generate (runtime : RuntimeNames) (outDir : Path) (name : String)
    (helpers : List Helper) :
    (generate runtime outDir helpers).filter (·.helper = name) =
      generate runtime outDir (helpers.filter (·.name = name)) := by
  have hfiles : ∀ h : Helper, (filesOf runtime outDir h).filter (·.helper = name) =
      if h.name = name then filesOf runtime outDir h else [] := by
    intro h
    have hhelper : ∀ f ∈ filesOf runtime outDir h, f.helper = h.name := by
      intro f hf
      obtain ⟨m, -, rfl⟩ := List.mem_map.1 hf
      rfl
    split
    · rename_i heq
      exact List.filter_eq_self.2 fun f hf => decide_eq_true ((hhelper f hf).trans heq)
    · rename_i hne
      refine List.filter_eq_nil_iff.2 fun f hf heq => hne ?_
      exact (hhelper f hf).symm.trans (of_decide_eq_true heq)
  unfold generate
  induction helpers with
  | nil => rfl
  | cons h rest ih =>
    rw [List.flatMap_cons, List.filter_append, hfiles, ih]
    by_cases heq : h.name = name
    · rw [if_pos heq, List.filter_cons_of_pos (by simpa using heq), List.flatMap_cons]
    · rw [if_neg heq, List.filter_cons_of_neg (by simpa using heq), List.nil_append]

end Emit

/-! ## What a declaration shows -/

namespace Validation

/-- What a validation and the files generated from it show of a declaration with a result. -/
inductive Shows (runtime : RuntimeNames) (outDir : Path) (v : Validation)
    (d : HelperDeclaration) : Except (List Diagnostic) Helper → Prop
  /-- its helper, and its files as the only ones of its name -/
  | helper (h : Helper) (name : d.name.map (·.value) = some h.name) (held : h ∈ v.helpers)
      (files : (Emit.generate runtime outDir v.helpers).filter (·.helper = h.name) =
        Emit.filesOf runtime outDir h) :
      Shows runtime outDir v d (.ok h)
  /-- all its complaints in a row, and no file of its name -/
  | complaints (ds : List Diagnostic) (wrong : ds ≠ []) (held : ds <:+: v.diagnostics)
      (files : ∀ name, d.name = some name →
        (Emit.generate runtime outDir v.helpers).filter (·.helper = name.value) = []) :
      Shows runtime outDir v d (.error ds)

variable {p : Program} {registry : Registry} {runtime : RuntimeNames} {d : HelperDeclaration}

/-- An accepted helper has a declared name that a class name can be made of. -/
theorem sanitize_ne_of_accept {routines : List RoutineDeclaration} {h : Helper}
    (hresult : (d.accept p registry runtime routines).result = .ok h) :
    Naming.sanitize h.name ≠ "" := by
  obtain ⟨name, version, hname, -, rfl⟩ := exists_of_result_accept hresult
  rw [acceptName_def] at hname
  split at hname
  · cases hname
  · split at hname
    · cases hname
    · rename_i hsanitized
      rw [← Except.ok.inj hname]
      exact hsanitized

theorem sanitize_ne_of_mem_outcomes {claims : Claims} {ds : List HelperDeclaration} {h : Helper}
    (hmem : .ok h ∈ (outcomes p registry runtime claims ds).map (·.result)) :
    Naming.sanitize h.name ≠ "" := by
  obtain ⟨d, -, hresult⟩ := exists_declaration_of_mem_outcomes hmem
  exact sanitize_ne_of_accept hresult

theorem claimedName_of_name {name : Located String} (hname : d.name = some name)
    (hsanitized : Naming.sanitize name.value ≠ "") :
    claimedName d = some (Naming.helperClass name.value) := by
  unfold claimedName claimOf
  rw [hname, Option.bind_some, if_neg hsanitized, Option.map_some]

/-- A helper of a declared name has claimed the class name that the declaration generates. -/
theorem claimedName_of_mem_outcomes {claims : Claims} {ds : List HelperDeclaration} {k : Helper}
    {name : Located String} (hname : d.name = some name)
    (hk : .ok k ∈ (outcomes p registry runtime claims ds).map (·.result))
    (heq : k.name = name.value) : claimedName d = some (Naming.helperClass k.name) := by
  have hsanitized := sanitize_ne_of_mem_outcomes hk
  rw [heq] at hsanitized ⊢
  exact claimedName_of_name hname hsanitized

/-- Before a declaration that is the first to claim its class name, no helper of its declared
name is accepted, since none generates that class name. -/
theorem name_ne_before {before : List HelperDeclaration} {name : Located String}
    (hname : d.name = some name)
    (hfirst : ∀ c, claimedName d = some c → c ∉ before.filterMap claimedName) {k : Helper}
    (hk : .ok k ∈ (outcomes p registry runtime [] before).map (·.result)) :
    k.name ≠ name.value := by
  intro heq
  exact hfirst _ (claimedName_of_mem_outcomes hname hk heq) (claimed_of_mem_outcomes hk).2

/-- After a declaration no helper of its declared name is accepted, since its class name is
claimed. -/
theorem name_ne_after {claims : Claims} {after : List HelperDeclaration} {name : Located String}
    (hname : d.name = some name) {k : Helper}
    (hk : .ok k ∈ (outcomes p registry runtime (claim p claims d) after).map (·.result)) :
    k.name ≠ name.value := by
  intro heq
  have hfree := (claimed_of_mem_outcomes hk).1
  exact (lookup_claim_eq_none_iff.1 hfree).2 (claimedName_of_mem_outcomes hname hk heq)

/-- The helpers of a name are what one result makes when the results around it make none. -/
theorem filter_values_append {ls rs : List (Except (List Diagnostic) Helper)} {name : String}
    (hls : ∀ k, .ok k ∈ ls → k.name ≠ name) (hrs : ∀ k, .ok k ∈ rs → k.name ≠ name)
    (result : Except (List Diagnostic) Helper) :
    (values (ls ++ result :: rs)).filter (·.name = name) =
      (values [result]).filter (·.name = name) := by
  have hnone : ∀ results : List (Except (List Diagnostic) Helper),
      (∀ k, .ok k ∈ results → k.name ≠ name) →
        (values results).filter (·.name = name) = [] := by
    intro results hresults
    refine List.filter_eq_nil_iff.2 fun k hk heq => ?_
    exact hresults k (mem_values.1 hk) (of_decide_eq_true heq)
  have hsplit : values (ls ++ result :: rs) = values ls ++ (values [result] ++ values rs) := by
    unfold values
    rw [← List.filterMap_append, ← List.filterMap_append, List.singleton_append]
  rw [hsplit, List.filter_append, List.filter_append, hnone ls hls, hnone rs hrs,
    List.nil_append, List.append_nil]

/-- A declaration that is the first to claim its class name is checked on its own. -/
theorem outcomes_of_first {before after : List HelperDeclaration}
    (hhelpers : p.helpers = before ++ d :: after)
    (hfirst : ∀ c, claimedName d = some c → c ∉ before.filterMap claimedName) :
    outcomes p registry runtime [] p.helpers =
      outcomes p registry runtime [] before ++
        d.accept p registry runtime (routinesOf p d.owner) ::
          outcomes p registry runtime (claim p (before.foldl (claim p) []) d) after := by
  have hown : outcomeOf p registry runtime (before.foldl (claim p) []) d =
      d.accept p registry runtime (routinesOf p d.owner) := by
    refine outcomeOf_of_unclaimed fun c hc => ?_
    exact lookup_foldl_claim_eq_none_iff.2 ⟨rfl, hfirst c hc⟩
  rw [hhelpers, outcomes_append, outcomes_cons, hown]

theorem getElem?_outcomes_of_first {before after : List HelperDeclaration}
    (hhelpers : p.helpers = before ++ d :: after)
    (hfirst : ∀ c, claimedName d = some c → c ∉ before.filterMap claimedName) :
    (outcomes p registry runtime [] p.helpers)[before.length]? =
      some (d.accept p registry runtime (routinesOf p d.owner)) := by
  rw [outcomes_of_first hhelpers hfirst,
    List.getElem?_append_right (Nat.le_of_eq (length_outcomes [] before)), length_outcomes,
    Nat.sub_self, List.getElem?_cons_zero]

/-- Around the result of a declaration that is the first to claim its class name no other result
is a helper of its name. -/
theorem exists_results_of_first (registry : Registry) (runtime : RuntimeNames)
    {before after : List HelperDeclaration} (hhelpers : p.helpers = before ++ d :: after)
    (hfirst : ∀ c, claimedName d = some c → c ∉ before.filterMap claimedName) :
    ∃ ls rs, (outcomes p registry runtime [] p.helpers).map (·.result) =
        ls ++ (d.accept p registry runtime (routinesOf p d.owner)).result :: rs ∧
      ∀ name, d.name = some name → (∀ k, .ok k ∈ ls → k.name ≠ name.value) ∧
        ∀ k, .ok k ∈ rs → k.name ≠ name.value := by
  refine ⟨(outcomes p registry runtime [] before).map (·.result),
    (outcomes p registry runtime (claim p (before.foldl (claim p) []) d) after).map (·.result),
    ?_, fun name hname => ⟨fun k => name_ne_before hname hfirst, fun k => name_ne_after hname⟩⟩
  rw [outcomes_of_first hhelpers hfirst, List.map_append, List.map_cons]

theorem helpers_ofProgram_perm (p : Program) (registry : Registry) (runtime : RuntimeNames) :
    (ofProgram p registry runtime).helpers.Perm
      (values ((outcomes p registry runtime [] p.helpers).map (·.result))) :=
  sortBy_perm helperLe _

/-- All of the result of a declaration that is the first to claim its class name is shown. -/
theorem shows_of_first (registry : Registry) (runtime : RuntimeNames) (outDir : Path)
    {before after : List HelperDeclaration} (hhelpers : p.helpers = before ++ d :: after)
    (hfirst : ∀ c, claimedName d = some c → c ∉ before.filterMap claimedName) :
    Shows runtime outDir (ofProgram p registry runtime) d
      (d.accept p registry runtime (routinesOf p d.owner)).result := by
  obtain ⟨ls, rs, hresults, hothers⟩ := exists_results_of_first registry runtime hhelpers hfirst
  generalize hresult : (d.accept p registry runtime (routinesOf p d.owner)).result = result
    at hresults ⊢
  have hheld := helpers_ofProgram_perm p registry runtime
  rw [hresults] at hheld
  have hofName : ∀ name, d.name = some name →
      ((ofProgram p registry runtime).helpers.filter (·.name = name.value)).Perm
        ((values [result]).filter (·.name = name.value)) := by
    intro name hname
    have hperm := hheld.filter (·.name = name.value)
    rwa [filter_values_append (hothers name hname).1 (hothers name hname).2] at hperm
  cases result with
  | ok h =>
    obtain ⟨_, _, haccept, -, hmade⟩ := exists_of_result_accept hresult
    have hname : d.name.map (·.value) = some h.name := by
      rw [hmade]
      exact name_of_acceptName haccept
    have hmem : .ok h ∈ ls ++ .ok h :: rs := List.mem_append_right _ List.mem_cons_self
    refine .helper h hname (hheld.mem_iff.2 (mem_values.2 hmem)) ?_
    obtain ⟨name, hdeclared, hvalue⟩ := Option.map_eq_some_iff.1 hname
    have hone : [h].filter (·.name = name.value) = [h] := by simp [hvalue]
    have hheldOnce : (ofProgram p registry runtime).helpers.filter (·.name = name.value) = [h] :=
      List.perm_singleton.1 ((hofName name hdeclared).trans (.of_eq hone))
    rw [hvalue] at hheldOnce
    rw [Emit.filter_generate, hheldOnce, Emit.generate, List.flatMap_singleton]
  | error ds =>
    refine .complaints ds (of_result_accept_error hresult).2 ?_ fun name hname => ?_
    · have herrors : errors (ls ++ .error ds :: rs) = errors ls ++ ds :: errors rs :=
        List.filterMap_append
      refine ⟨strays p ++ (errors ls).flatten, (errors rs).flatten, ?_⟩
      show _ = strays p ++ (errors ((outcomes p registry runtime [] p.helpers).map
        (·.result))).flatten
      rw [hresults, herrors, List.flatten_append, List.flatten_cons]
      simp only [List.append_assoc]
    · rw [Emit.filter_generate, List.perm_nil.1 (hofName name hname)]
      rfl

/-- A helper declaration that is the first to claim its class name comes to the same in all
programs that agree about it, whatever else they declare: the same helper with the same
files, or the same complaints. -/
theorem helper_isolated (runtime : RuntimeNames) (outDir : Path) {q : Program}
    (hagrees : AgreesOn d p q) {before after before' after' : List HelperDeclaration}
    (hp : p.helpers = before ++ d :: after) (hq : q.helpers = before' ++ d :: after')
    (hfirst : ∀ c, claimedName d = some c →
      c ∉ before.filterMap claimedName ∧ c ∉ before'.filterMap claimedName) :
    ∃ outcome,
      (outcomes p (Registry.ofProgram p) runtime [] p.helpers)[before.length]? = some outcome ∧
      (outcomes q (Registry.ofProgram q) runtime [] q.helpers)[before'.length]? = some outcome ∧
      Shows runtime outDir (ofProgram p (Registry.ofProgram p) runtime) d outcome.result ∧
      Shows runtime outDir (ofProgram q (Registry.ofProgram q) runtime) d outcome.result := by
  have hfirstP := fun c hc => (hfirst c hc).1
  have hfirstQ := fun c hc => (hfirst c hc).2
  have hshowsQ := shows_of_first (Registry.ofProgram q) runtime outDir hq hfirstQ
  rw [hagrees.accept] at hshowsQ
  have hgetQ : (outcomes q (Registry.ofProgram q) runtime [] q.helpers)[before'.length]? = _ :=
    getElem?_outcomes_of_first hq hfirstQ
  rw [hagrees.accept] at hgetQ
  exact ⟨_, getElem?_outcomes_of_first hp hfirstP, hgetQ,
    shows_of_first (Registry.ofProgram p) runtime outDir hp hfirstP, hshowsQ⟩

/-- A helper declaration comes to the same with and without one before it that fails. -/
theorem helper_isolated_from_failing :
    let file : ScannedFile := ⟨⟨"db.ts"⟩, ⟨"db"⟩, "", {}, []⟩
    let scanned (name : String) : ScannedClass :=
      ⟨name, 0, none, false, true, none, .inherited, default⟩
    let declared (owner : ClassId) (name : Option String) : HelperDeclaration :=
      ⟨owner, name.map (⟨·, default⟩), none, [], false, false, [], default⟩
    let program (helpers : List HelperDeclaration) : Program :=
      ⟨⟨"src"⟩, [file], [scanned "Notes", scanned "Tasks"], helpers.map .helper⟩
    let notes := declared 0 (some "notes")
    let tasks := declared 1 none
    AgreesOn notes (program [tasks, notes]) (program [notes]) ∧
      (∀ c, claimedName notes = some c →
        c ∉ [tasks].filterMap claimedName ∧ c ∉ [].filterMap claimedName) ∧
      ∃ outcome,
        (outcomes (program [tasks, notes]) ⟨[]⟩ {} [] [tasks, notes])[1]? = some outcome ∧
        (outcomes (program [notes]) ⟨[]⟩ {} [] [notes])[0]? = some outcome ∧
        Shows {} ⟨"out"⟩ (ofProgram (program [tasks, notes]) ⟨[]⟩ {}) notes outcome.result ∧
        Shows {} ⟨"out"⟩ (ofProgram (program [notes]) ⟨[]⟩ {}) notes outcome.result := by
  intro file scanned declared program notes tasks
  have hagrees : AgreesOn notes (program [tasks, notes]) (program [notes]) :=
    ⟨rfl, rfl, fun _ => Iff.rfl, rfl⟩
  have hfirst : ∀ c, claimedName notes = some c →
      c ∉ [tasks].filterMap claimedName ∧ c ∉ [].filterMap claimedName := by
    intro c _
    exact ⟨List.not_mem_nil, List.not_mem_nil⟩
  have hp : (program [tasks, notes]).helpers = [tasks] ++ notes :: [] := rfl
  have hq : (program [notes]).helpers = [] ++ notes :: [] := rfl
  exact ⟨hagrees, hfirst, helper_isolated {} ⟨"out"⟩ hagrees hp hq hfirst⟩

end Validation

end DaoGen
