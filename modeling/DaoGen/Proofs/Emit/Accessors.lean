import DaoGen.Emit.HelperModule
import DaoGen.Helper.Validation
import DaoGen.Program.OfSources
import DaoGen.Proofs.Helper.Tables
set_option autoImplicit false

/-!
# The accessors of a generated class

The class of a helper has a field and a getter for each of its tables, and both are named
after the table's class alone (`fieldNames_members`, `getters_members`).  The names tell two
tables apart just when their classes have different names, so the accessors of a class are
pairwise distinct exactly when the entries of its declaration name classes of pairwise
different names (`accessors_distinct_iff`): a class that is listed twice, or two classes of one
name from different modules, get the same accessor twice.
-/

namespace DaoGen

open DaoGen.Schema

/-! ## Names of accessors -/

namespace Naming

theorem accessorField_injective : Function.Injective accessorField := by
  intro s t h
  have hlist := congrArg String.toList h
  simp only [accessorField, String.toList_append, List.append_assoc] at hlist
  exact String.toList_inj.1 (List.append_cancel_right (List.append_cancel_left hlist))

theorem accessorGetter_injective : Function.Injective accessorGetter := by
  intro s t h
  have hlist := congrArg String.toList h
  simp only [accessorGetter, String.toList_append, List.append_assoc] at hlist
  exact String.toList_inj.1 (List.append_cancel_right (List.append_cancel_left hlist))

theorem head?_accessorField (t : String) : (accessorField t).toList.head? = some 'm' := by
  simp [accessorField]

theorem head?_accessorGetter (t : String) : (accessorGetter t).toList.head? = some 'g' := by
  simp [accessorGetter]

end Naming

namespace Emit

/-! ## Reading accessors off a class -/

/-- The name of an instance field. -/
def Member.field? : Member → Option String
  | .field name .. => some name
  | _ => none

/-- A method without parameters that ends by returning a field of its object, with the field. -/
def Member.getter? : Member → Option (String × String)
  | .method _ name [] _ body =>
    match body.getLast? with
    | some (.return (.member .this stored)) => some (name, stored)
    | _ => none
  | _ => none

namespace ClassCode

/-- The instance fields of a class. -/
def fieldNames (c : ClassCode) : List String := c.members.filterMap (·.field?)

/-- The getters of a class, each with the field that it returns. -/
def getters (c : ClassCode) : List (String × String) := c.members.filterMap (·.getter?)

/-- The names of the fields and getters of a class. -/
def accessorNames (c : ClassCode) : List String := c.fieldNames ++ c.getters.map (·.1)

/-- The names of all members of a class. -/
def memberNames (c : ClassCode) : List String := c.members.filterMap (·.name?)

end ClassCode

/-! ## The accessors of a helper -/

namespace HelperModule

variable (runtime : RuntimeNames) (outDir : Path) (h : Helper)

theorem getter?_close : (close h).getter? = none := by
  have hlast : ∀ stmts : List Stmt, (∀ stmt ∈ stmts, ∀ value, stmt ≠ .return value) →
      (Member.method ["override"] "close" [] (.name "void") stmts).getter? = none := by
    intro stmts hstmts
    unfold Member.getter?
    dsimp only
    split
    · rename_i field hreturn
      exact absurd rfl (hstmts _ (List.mem_of_getLast? hreturn) _)
    · rfl
  apply hlast
  intro stmt hstmt value heq
  rcases List.mem_cons.1 hstmt with rfl | hstmt
  · cases heq
  · obtain ⟨t, -, rfl⟩ := List.mem_map.1 hstmt
    cases heq

theorem getter?_dropTables : ∀ m ∈ dropTables runtime h, m.getter? = none := by
  intro m hm
  unfold dropTables at hm
  split at hm
  · cases hm
  · rw [List.mem_singleton.1 hm]
    rfl

theorem field?_dropTables : ∀ m ∈ dropTables runtime h, m.field? = none := by
  intro m hm
  unfold dropTables at hm
  split at hm
  · cases hm
  · rw [List.mem_singleton.1 hm]
    rfl

/-- The fields of a helper's class are those of its tables. -/
theorem fieldNames_members :
    (helperModule runtime outDir h).exported.fieldNames =
      h.tables.map fun t => Naming.accessorField t.name := by
  have hfields : (h.tables.map (accessorField runtime)).filterMap (·.field?) =
      h.tables.map fun t => Naming.accessorField t.name := by
    rw [List.filterMap_map, ← List.filterMap_eq_map]
    rfl
  have hothers : [constructor runtime h, onCreate runtime h, onUpgrade runtime h,
      clearTables runtime h].filterMap (·.field?) = [] := rfl
  have hdrop : (dropTables runtime h).filterMap (·.field?) = [] :=
    List.filterMap_eq_nil_iff.2 (field?_dropTables runtime h)
  have hclose : [close h].filterMap (·.field?) = [] := rfl
  have hgetters : (h.tables.map (accessorGetter runtime)).filterMap (·.field?) = [] := by
    apply List.filterMap_eq_nil_iff.2
    intro m hm
    obtain ⟨t, -, rfl⟩ := List.mem_map.1 hm
    rfl
  simp only [ClassCode.fieldNames, helperModule, members, List.filterMap_append, hfields, hothers,
    hdrop, hclose, hgetters, List.append_nil]

/-- The getters of a helper's class are those of its tables; each returns its table's field. -/
theorem getters_members :
    (helperModule runtime outDir h).exported.getters =
      h.tables.map fun t => (Naming.accessorGetter t.name, Naming.accessorField t.name) := by
  have hfields : (h.tables.map (accessorField runtime)).filterMap (·.getter?) = [] := by
    apply List.filterMap_eq_nil_iff.2
    intro m hm
    obtain ⟨t, -, rfl⟩ := List.mem_map.1 hm
    rfl
  have hothers : [constructor runtime h, onCreate runtime h, onUpgrade runtime h,
      clearTables runtime h].filterMap (·.getter?) = [] := rfl
  have hdrop : (dropTables runtime h).filterMap (·.getter?) = [] :=
    List.filterMap_eq_nil_iff.2 (getter?_dropTables runtime h)
  have hclose : [close h].filterMap (·.getter?) = [] := by
    rw [List.filterMap_cons, getter?_close]
    rfl
  have hgetters : (h.tables.map (accessorGetter runtime)).filterMap (·.getter?) =
      h.tables.map fun t => (Naming.accessorGetter t.name, Naming.accessorField t.name) := by
    rw [List.filterMap_map, ← List.filterMap_eq_map]
    rfl
  simp only [ClassCode.getters, helperModule, members, List.filterMap_append, hfields, hothers,
    hdrop, hclose, hgetters, List.nil_append]

theorem accessorNames_members :
    (helperModule runtime outDir h).exported.accessorNames =
      (h.tables.map (·.name)).map Naming.accessorField ++
        (h.tables.map (·.name)).map Naming.accessorGetter := by
  simp only [ClassCode.accessorNames, fieldNames_members, getters_members, List.map_map,
    Function.comp_def]

/-- The names of a helper's members that belong to no table. -/
def plainNames : List String :=
  ["onCreate", "onUpgrade", "clearTables"] ++ (dropTables runtime h).filterMap (·.name?) ++
    ["close"]

theorem memberNames_members :
    (helperModule runtime outDir h).exported.memberNames =
      (h.tables.map (·.name)).map Naming.accessorField ++ plainNames runtime h ++
        (h.tables.map (·.name)).map Naming.accessorGetter := by
  have hfields : (h.tables.map (accessorField runtime)).filterMap (·.name?) =
      (h.tables.map (·.name)).map Naming.accessorField := by
    rw [List.filterMap_map, List.map_map, ← List.filterMap_eq_map]
    rfl
  have hgetters : (h.tables.map (accessorGetter runtime)).filterMap (·.name?) =
      (h.tables.map (·.name)).map Naming.accessorGetter := by
    rw [List.filterMap_map, List.map_map, ← List.filterMap_eq_map]
    rfl
  simp only [ClassCode.memberNames, helperModule, members, List.filterMap_append, hfields,
    hgetters, plainNames, List.append_assoc]
  rfl

theorem plainNames_eq :
    plainNames runtime h = ["onCreate", "onUpgrade", "clearTables", "close"] ∨
      plainNames runtime h = ["onCreate", "onUpgrade", "clearTables", "dropTables", "close"] := by
  unfold plainNames dropTables
  cases h.migration with
  | upgrade plan => exact .inl rfl
  | recreate => exact .inr rfl

/-- The names of members that belong to no table are distinct, and no accessor has one. -/
theorem plainNames_spec :
    (plainNames runtime h).Nodup ∧
      ∀ name ∈ plainNames runtime h,
        name.toList.head? ≠ some 'm' ∧ name.toList.head? ≠ some 'g' := by
  rcases plainNames_eq runtime h with heq | heq <;> rw [heq] <;> decide

end HelperModule

/-! ## Distinct accessors -/

theorem nodup_accessorNames_iff (names : List String) :
    (names.map Naming.accessorField ++ names.map Naming.accessorGetter).Nodup ↔ names.Nodup := by
  have hdisjoint : ∀ a ∈ names.map Naming.accessorField,
      ∀ b ∈ names.map Naming.accessorGetter, a ≠ b := by
    intro a ha b hb heq
    obtain ⟨s, -, rfl⟩ := List.mem_map.1 ha
    obtain ⟨t, -, rfl⟩ := List.mem_map.1 hb
    have hhead := Naming.head?_accessorField s
    rw [heq, Naming.head?_accessorGetter] at hhead
    cases hhead
  rw [List.nodup_append, List.nodup_map_iff Naming.accessorField_injective,
    List.nodup_map_iff Naming.accessorGetter_injective]
  constructor
  · intro hnodup
    exact hnodup.1
  · intro hnodup
    exact ⟨hnodup, hnodup, hdisjoint⟩

/-- With distinct accessors all members of the class are distinct. -/
theorem nodup_memberNames (runtime : RuntimeNames) (outDir : Path) (h : Helper)
    (hnames : (h.tables.map (·.name)).Nodup) :
    (helperModule runtime outDir h).exported.memberNames.Nodup := by
  obtain ⟨hplain, hheads⟩ := HelperModule.plainNames_spec runtime h
  have haccessors := (nodup_accessorNames_iff (h.tables.map (·.name))).2 hnames
  rw [List.nodup_append] at haccessors
  obtain ⟨hfields, hgetters, hapart⟩ := haccessors
  have hfieldHead : ∀ a ∈ (h.tables.map (·.name)).map Naming.accessorField,
      a.toList.head? = some 'm' := by
    intro a ha
    obtain ⟨t, -, rfl⟩ := List.mem_map.1 ha
    exact Naming.head?_accessorField t
  have hgetterHead : ∀ a ∈ (h.tables.map (·.name)).map Naming.accessorGetter,
      a.toList.head? = some 'g' := by
    intro a ha
    obtain ⟨t, -, rfl⟩ := List.mem_map.1 ha
    exact Naming.head?_accessorGetter t
  rw [HelperModule.memberNames_members, List.nodup_append, List.nodup_append]
  refine ⟨⟨hfields, hplain, ?_⟩, hgetters, ?_⟩
  · intro a ha b hb heq
    apply (hheads b hb).1
    rw [← heq]
    exact hfieldHead a ha
  · intro a ha b hb heq
    rcases List.mem_append.1 ha with ha | ha
    · exact hapart a ha b hb heq
    · apply (hheads a ha).2
      rw [heq]
      exact hgetterHead b hb

/-- The name of the class that an entry of a list of tables was found to stand for. -/
def className? (p : Program) (entry : TableEntry) : Option String :=
  match entry.resolution with
  | .found id => some (p.classAt id).name
  | _ => none

/-- The tables of an accepted helper are called by the classes of its entries. -/
theorem filterMap_className? {p : Program} {entries : List TableEntry} {tables : List Table}
    (h : List.Forall₂ (fun entry t => t.Represents p entry) entries tables) :
    entries.filterMap (className? p) = tables.map (·.name) := by
  induction h with
  | nil => rfl
  | @cons entry t entries tables hrepresents _ ih =>
    have hname : className? p entry = some t.name := by
      rw [className?, hrepresents.found, hrepresents.name]
    rw [List.filterMap_cons_some hname, ih, List.map_cons]

/-- The class of a helper has one field and one getter for each entry of its declaration's list
of tables, and these accessors are pairwise distinct exactly when the entries stand for classes
of pairwise different names.  Then all members of the class are. -/
theorem accessors_distinct_iff (p : Program) (runtime : RuntimeNames) (outDir : Path) {h : Helper}
    (hmem : h ∈ (Validation.ofProgram p (Registry.ofProgram p) runtime).helpers) :
    let c := (helperModule runtime outDir h).exported
    ∃ d ∈ p.helpers,
      (d.accept p (Registry.ofProgram p) runtime (Validation.routinesOf p d.owner)).result =
        .ok h ∧
      c.getters.map (·.2) = c.fieldNames ∧
      c.accessorNames = (d.tables.filterMap (className? p)).map Naming.accessorField ++
        (d.tables.filterMap (className? p)).map Naming.accessorGetter ∧
      d.tables.length = (d.tables.filterMap (className? p)).length ∧
      (c.accessorNames.Nodup ↔ (d.tables.filterMap (className? p)).Nodup) ∧
      ((d.tables.filterMap (className? p)).Nodup → c.memberNames.Nodup) := by
  intro c
  obtain ⟨d, hd, hresult⟩ := Validation.exists_declaration_of_mem_helpers hmem
  have hrepresents := HelperDeclaration.represents_of_accept hresult
  have hnames := filterMap_className? hrepresents
  have haccessors : c.accessorNames =
      (d.tables.filterMap (className? p)).map Naming.accessorField ++
        (d.tables.filterMap (className? p)).map Naming.accessorGetter := by
    rw [hnames]
    exact HelperModule.accessorNames_members runtime outDir h
  refine ⟨d, hd, hresult, ?_, haccessors, ?_, ?_, ?_⟩
  · simp only [c, HelperModule.getters_members, HelperModule.fieldNames_members, List.map_map,
      Function.comp_def]
  · rw [hnames, List.length_map, hrepresents.length_eq]
  · rw [haccessors]
    exact nodup_accessorNames_iff _
  · rw [hnames]
    exact nodup_memberNames runtime outDir h

/-- Two tables of different classes get four accessors. -/
theorem accessors_distinct_of_two_classes :
    let field : Source.Field :=
      ⟨"id", some ⟨"number", .primitive "number"⟩, false,
        [⟨"DatabaseField", none, [.object default [("id", .boolean default true)]], default⟩],
        default⟩
    let table (name : String) : Source.SourceClass :=
      ⟨name, none, [⟨"DatabaseTable", none, [], default⟩], [field], [], false, true, default⟩
    let options : Source.Expr :=
      .object default [("name", .string default "db"),
        ("tables", .array default [.name default "Row", .name default "Cell"])]
    let owner : Source.SourceClass :=
      ⟨"Db", none, [⟨"Helper", none, [options], default⟩], [], [], false, true, default⟩
    let p := Program.ofSources ⟨"/src"⟩
      [⟨⟨"/src/db.ts"⟩, "", [], [table "Row", table "Cell", owner], []⟩]
    ∃ h ∈ (Validation.ofProgram p (Registry.ofProgram p) {}).helpers,
      let c := (helperModule {} ⟨"/out"⟩ h).exported
      c.accessorNames = ["mRowDao", "mCellDao", "getRowDao", "getCellDao"] ∧
      c.accessorNames.Nodup ∧ c.memberNames.Nodup := by
  intro field table options owner p
  have hlength : (Validation.ofProgram p (Registry.ofProgram p) {}).helpers.length = 1 := by
    decide +kernel
  have hnames : ∀ d ∈ p.helpers, d.tables.filterMap (className? p) = ["Row", "Cell"] := by
    decide +kernel
  obtain ⟨h, hhelpers⟩ := List.length_eq_one_iff.1 hlength
  have hmem : h ∈ (Validation.ofProgram p (Registry.ofProgram p) {}).helpers := by
    rw [hhelpers]
    exact List.mem_singleton_self h
  obtain ⟨d, hd, -, -, haccessors, -, hnodup, hmembers⟩ :=
    accessors_distinct_iff p {} ⟨"/out"⟩ hmem
  rw [hnames d hd] at haccessors hnodup hmembers
  exact ⟨h, hmem, haccessors, hnodup.2 (by decide), hmembers (by decide)⟩

/-- A class that is listed twice gets its field and its getter twice. -/
theorem accessors_repeated_for_repeated_class :
    let field : Source.Field :=
      ⟨"id", some ⟨"number", .primitive "number"⟩, false,
        [⟨"DatabaseField", none, [.object default [("id", .boolean default true)]], default⟩],
        default⟩
    let table : Source.SourceClass :=
      ⟨"Row", none, [⟨"DatabaseTable", none, [], default⟩], [field], [], false, true, default⟩
    let options : Source.Expr :=
      .object default [("name", .string default "db"),
        ("tables", .array default [.name default "Row", .name default "Row"])]
    let owner : Source.SourceClass :=
      ⟨"Db", none, [⟨"Helper", none, [options], default⟩], [], [], false, true, default⟩
    let p := Program.ofSources ⟨"/src"⟩ [⟨⟨"/src/db.ts"⟩, "", [], [table, owner], []⟩]
    ∃ h ∈ (Validation.ofProgram p (Registry.ofProgram p) {}).helpers,
      let c := (helperModule {} ⟨"/out"⟩ h).exported
      c.accessorNames = ["mRowDao", "mRowDao", "getRowDao", "getRowDao"] ∧
      ¬ c.accessorNames.Nodup := by
  intro field table options owner p
  have hrepeated : ∃ h ∈ (Validation.ofProgram p (Registry.ofProgram p) {}).helpers,
      (helperModule {} ⟨"/out"⟩ h).exported.accessorNames =
        ["mRowDao", "mRowDao", "getRowDao", "getRowDao"] := by decide +kernel
  obtain ⟨h, hmem, haccessors⟩ := hrepeated
  refine ⟨h, hmem, haccessors, ?_⟩
  rw [haccessors]
  decide

end Emit

end DaoGen
