import DaoGen.Proofs.Schema.Answers
import DaoGen.Proofs.Schema.Imports
import DaoGen.Proofs.Source.TypeNames
set_option autoImplicit false

/-!
# What the id type of a table refers to

The id type of a table that is rendered as it was written comes from the type clause of a field in
the tree of some source file.  It refers to the names at the open places of that clause's type,
and the requests for imports are those for its references (`idType_references`).  A name at any
other place is rendered with the type and not imported.
-/

namespace DaoGen

open DaoGen.Syntax (Node Kind Role)

/-! ## Fields of a tree -/

namespace Source

/-- A node is the type of some field in a tree. -/
def IsFieldType (n tree : Node) : Prop :=
  ∃ member : Node, member.Within tree ∧ member.kind = .field ∧ typeNode? member.children = some n

/-- A field that is read off a node has its annotation from there. -/
def ReadFrom (field : Field) (member : Node) : Prop :=
  member.kind = .field ∧ field.type = annotationIn member.children

theorem readFrom_of_mem_fields_add {m : Members} {n : Node} {field : Field}
    (h : field ∈ (m.add n).fields) : field ∈ m.fields ∨ ReadFrom field n := by
  unfold Members.add at h
  split at h
  · exact .inl h
  · rename_i hkind
    rcases List.mem_append.1 h with h | h
    · exact .inl h
    · obtain ⟨name, -, rfl⟩ := Option.map_eq_some_iff.1 (Option.mem_toList.1 h)
      exact .inr ⟨hkind, rfl⟩
  · exact .inl h
  · exact .inl h
  · exact .inl h
  · exact .inl h

theorem exists_readFrom_of_mem_foldl {nodes : List Node} {m : Members} {field : Field}
    (h : field ∈ (nodes.foldl Members.add m).fields) :
    field ∈ m.fields ∨ ∃ member ∈ nodes, ReadFrom field member := by
  induction nodes generalizing m with
  | nil => exact .inl h
  | cons n rest ih =>
    rcases ih h with h | ⟨member, hmember, hread⟩
    · rcases readFrom_of_mem_fields_add h with h | hread
      · exact .inl h
      · exact .inr ⟨n, List.mem_cons_self, hread⟩
    · exact .inr ⟨member, List.mem_cons_of_mem n hmember, hread⟩

/-- The fields of a class are read off nodes of its tree. -/
theorem exists_readFrom_of_readClass {exported : Bool} {pending : List Decorator} {n : Node}
    {c : SourceClass} (hc : readClass exported pending n = some c) {field : Field}
    (hfield : field ∈ c.fields) : ∃ member, member.Within n ∧ ReadFrom field member := by
  obtain ⟨name, -, rfl⟩ := Option.map_eq_some_iff.1 hc
  dsimp only at hfield
  cases hbody : (n.children.filter (·.kind = .classBody)).getLast? with
  | none =>
    rw [hbody] at hfield
    cases hfield
  | some body =>
    rw [hbody] at hfield
    have hmem := (List.mem_filter.1 (List.mem_of_getLast? hbody)).1
    rcases exists_readFrom_of_mem_foldl hfield with hfield | ⟨member, hmember, hread⟩
    · cases hfield
    · have hwithin : member.Within body := .of_mem_children .self hmember
      exact ⟨member, hwithin.of_mem_children hmem, hread⟩

/-- The fields of the classes of a file are read off nodes of the file's tree. -/
theorem exists_readFrom_of_mem_classes {path : Path} {text : String} {tree : Node}
    {c : SourceClass} (hc : c ∈ (ofTree path text tree).classes) {field : Field}
    (hfield : field ∈ c.fields) : ∃ member, member.Within tree ∧ ReadFrom field member := by
  obtain ⟨statement, hstatement, hc⟩ := List.mem_flatMap.1 hc
  unfold classesOf at hc
  split at hc
  · obtain ⟨member, hwithin, hread⟩ :=
      exists_readFrom_of_readClass (Option.mem_toList.1 hc) hfield
    exact ⟨member, hwithin.of_mem_children hstatement, hread⟩
  · split at hc
    · obtain ⟨child, hchild, hc⟩ := List.mem_filterMap.1 hc
      obtain ⟨member, hwithin, hread⟩ := exists_readFrom_of_readClass hc hfield
      have hstands := hwithin.of_mem_children (List.mem_filter.1 hchild).1
      exact ⟨member, hstands.of_mem_children hstatement, hread⟩
    · cases hc

end Source

/-! ## Id fields of a program -/

namespace Program

variable {dir : Path} {files : List Source.SourceFile}

/-- The identifying field of a class is a field of a class of the file that it is found in. -/
theorem exists_field_of_idField {id : ClassId} {field : IdField}
    (h : ((ofSources dir files).classAt id).idField = some field) :
    ∃ f ∈ files,
      (ofSources dir files).fileAt ((ofSources dir files).classAt id).file = .ofSource f ∧
      ∃ c ∈ f.classes, ∃ written ∈ c.fields, field.type = written.type.map .ofWritten := by
  rcases classAt_ofSources_cases dir files id with ⟨f, hf, file, c, hc, hfile, hclass⟩ | hclass
  · rw [hclass] at h ⊢
    obtain ⟨written, hwritten, rfl⟩ := Option.map_eq_some_iff.1 h
    exact ⟨f, hf, hfile, c, hc, written, List.mem_of_find?_eq_some hwritten, rfl⟩
  · rw [hclass] at h
    cases h

end Program

namespace Schema

theorem idTypeOf_of_mem_tables {p : Program} {t : Table}
    (h : t ∈ (Registry.ofProgram p).tables) : idTypeOf p t.id = some ⟨t.declaredOn, t.idType⟩ := by
  rw [Registry.tables_ofProgram] at h
  obtain ⟨id, -, ht⟩ := List.mem_filterMap.1 h
  obtain ⟨found, hfound, rfl⟩ := Option.map_eq_some_iff.1 ht
  exact hfound

/-- The id type of a table is the one that the class makes on which it is declared. -/
theorem ownIdType_of_mem_tables {p : Program} {t : Table}
    (h : t ∈ (Registry.ofProgram p).tables) :
    ownIdType p t.declaredOn = some ⟨t.declaredOn, t.idType⟩ := by
  obtain ⟨id, -, hown⟩ := List.exists_of_findSome?_eq_some (idTypeOf_of_mem_tables h)
  obtain ⟨field, hfield, heq⟩ := Option.map_eq_some_iff.1 ((ownIdType_def p id).symm.trans hown)
  obtain rfl : id = t.declaredOn := congrArg Found.declaredOn heq
  exact hown

theorem text_of_ofField {f : ScannedFile} {type : DeclaredType} {text : String}
    {imports : List ImportRequest} (h : IdType.ofField f (some type) = .declared text imports) :
    text = type.text := by
  unfold IdType.ofField at h
  dsimp only at h
  split at h
  · cases h
  · exact (IdType.declared.inj h).1.symm

/-- The type of the identifying field of a class stands in the tree of some file. -/
theorem exists_fieldType_of_idField {dir : Path} {sources : List (Path × String × Node)}
    {id : ClassId} {type : DeclaredType} :
    let p := Program.ofSources dir (sources.map fun s => Source.ofTree s.1 s.2.1 s.2.2)
    (p.classAt id).idField.bind (·.type) = some type →
      ∃ s ∈ sources,
        p.fileAt (p.classAt id).file = .ofSource (Source.ofTree s.1 s.2.1 s.2.2) ∧
        ∃ n, Source.IsFieldType n s.2.2 ∧ type.text = n.string ∧
          type.references = (Source.shapeOf n).references := by
  intro p htype
  obtain ⟨field, hfield, htype⟩ := Option.bind_eq_some_iff.1 htype
  obtain ⟨f, hf, hfile, c, hc, written, hwritten, hwrittenType⟩ :=
    Program.exists_field_of_idField hfield
  obtain ⟨s, hs, rfl⟩ := List.mem_map.1 hf
  obtain ⟨member, hwithin, hkind, hread⟩ := Source.exists_readFrom_of_mem_classes hc hwritten
  rw [hwrittenType, hread, Source.annotationIn_eq_map] at htype
  obtain ⟨typed, htyped, rfl⟩ := Option.map_eq_some_iff.1 htype
  obtain ⟨n, hn, rfl⟩ := Option.map_eq_some_iff.1 htyped
  exact ⟨s, hs, hfile, n, ⟨member, hwithin, hkind, hn⟩, rfl, rfl⟩

/-- An id type that is rendered as it was written is the text of a field's type, refers to the
names at the open places of that type, and has what it refers to imported.  These are all names
in the type when it is made of opened forms, and none when it is kept as text. -/
theorem idType_references (dir : Path) (sources : List (Path × String × Node)) :
    let p := Program.ofSources dir (sources.map fun s => Source.ofTree s.1 s.2.1 s.2.2)
    ∀ t ∈ (Registry.ofProgram p).tables,
    ∀ (text : String) (imports : List ImportRequest) (type : DeclaredType),
      t.idType = .declared text imports →
      (p.classAt t.declaredOn).idField.bind (·.type) = some type →
      let file := (p.classAt t.declaredOn).file
      imports = IdType.requestsOf (p.fileAt file) type.references ∧
      ((p.fileAt file).WellNamed → ∀ name ∈ type.references, (p.identityOf file name).isSome →
        ∃ r ∈ imports, r.localName = Program.scopeOf name) ∧
      ∃ s ∈ sources, p.fileAt file = .ofSource (Source.ofTree s.1 s.2.1 s.2.2) ∧
        ∃ n, Source.IsFieldType n s.2.2 ∧ text = n.string ∧
          (∀ name, name ∈ type.references ↔ Source.Open n name) ∧
          (Source.Plain n → ∀ name, n.Mentions name → name ∉ Source.primitiveNames →
            name ∈ type.references) ∧
          (n.kind ∉ Source.referringKinds → imports = []) := by
  intro p t ht text imports type htext htype file
  obtain ⟨s, hs, hfile, n, hn, hstring, hreferences⟩ := exists_fieldType_of_idField htype
  have hopen : ∀ name, name ∈ type.references ↔ Source.Open n name := by
    intro name
    rw [hreferences]
    exact Source.mem_references_iff n name
  have hfield : IdType.ofField (p.fileAt file) (some type) = .declared text imports := by
    obtain ⟨field, hfield, htype⟩ := Option.bind_eq_some_iff.1 htype
    have hown := ownIdType_of_mem_tables ht
    rw [ownIdType_def, hfield, Option.map_some, htype, htext] at hown
    exact congrArg Found.idType (Option.some.inj hown)
  have himports := imports_of_ofField hfield
  refine ⟨himports, ?_, s, hs, hfile, n, hn, ?_, hopen, ?_, ?_⟩
  · intro hwell name hname hknown
    obtain ⟨identity, hidentity⟩ := Option.isSome_iff_exists.1 hknown
    obtain ⟨r, hr, hscope⟩ := Program.exists_importRequest_of_identityOf hwell hidentity
    rw [himports]
    exact ⟨r, (mem_requestsOf hwell).2 ⟨name, hname, hr⟩, hscope⟩
  · rw [text_of_ofField hfield, hstring]
  · intro hplain name hmentions hprimitive
    apply (hopen name).2
    exact hplain.open_of_mentions hmentions hprimitive
  · intro hkind
    rw [himports, hreferences, Source.references_eq_nil_of_kind hkind]
    rfl

/-! ## A table with an imported id type -/

/-- A token on the first line of a text. -/
def token (role : Role) (kind : Kind) (before : String) (column : Nat) (text : String) : Node :=
  .leaf role kind before.toList ⟨0, column, column⟩ text.toList

/-- The tree of a table whose id has a type of six characters. -/
def sessionTree (type : Node) : Node :=
  let mark := token .plain .mark
  let specifier : Node := .branch .plain .importSpecifier [token .name .name " " 9 "Uuid"]
  let clause : Node := .branch .plain .importClause
    [.branch .plain .namedImports [mark " " 7 "\x7b", specifier, mark " " 14 "\x7d"]]
  let home : Node := .branch .plain .string
    [mark " " 21 "\"", token .plain .fragment "" 22 "./ids", mark "" 27 "\""]
  let table : Node := .branch .plain .decorator
    [mark " " 30 "@",
      .branch .plain .call
        [token .function .name "" 31 "DatabaseTable",
          .branch .arguments .arguments [mark "" 44 "(", mark "" 45 ")"]]]
  let option : Node := .branch .plain .pair
    [token .key .propertyName " " 80 "id", mark "" 82 ":", token .value .true " " 84 "true"]
  let identifier : Node := .branch .plain .decorator
    [mark " " 63 "@",
      .branch .plain .call
        [token .function .name "" 64 "DatabaseField",
          .branch .arguments .arguments
            [mark "" 77 "(",
              .branch .plain .object [mark "" 78 "\x7b", option, mark " " 89 "\x7d"],
              mark "" 90 ")"]]]
  let field : Node := .branch .plain .field
    [identifier, token .plain .propertyName " " 92 "id",
      .branch .type .typeClause [mark "" 94 ":", type]]
  .branch .plain .program
    [.branch .plain .importStatement
      [mark "" 0 "import", clause, mark " " 16 "from", home, mark "" 28 ";"],
      .branch .plain .classDeclaration
        [table, mark " " 47 "class", token .name .typeName " " 53 "Session",
          .branch .plain .classBody
            [mark " " 61 "\x7b", field, mark "" 102 ";", mark " " 104 "\x7d"]]]

/-- The text of that table, for an id type as it is written. -/
def sessionText (type : String) : String :=
  "import \x7b Uuid \x7d from \"./ids\"; @DatabaseTable() class Session \x7b " ++
    "@DatabaseField(\x7b id: true \x7d) id: " ++ type ++ "; \x7d"

/-- An array of an imported type needs that type. -/
theorem idType_references_array :
    let type : Node := .branch .plain .arrayType
      [token .plain .typeName " " 96 "Uuid", token .plain .mark "" 100 "[",
        token .plain .mark "" 101 "]"]
    let text := sessionText "Uuid[]"
    let p := Program.ofSources ⟨"/src"⟩
      [Source.ofTree ⟨"/src/session.ts"⟩ text (sessionTree type)]
    String.ofList (sessionTree type).fullText = text ∧
      ∃ t ∈ (Registry.ofProgram p).tables, ∃ imports,
        t.idType = .declared "Uuid[]" imports ∧
        (imports.map fun r => (r.exported, r.localName)) = [("Uuid", "Uuid")] ∧
        ∃ n, Source.IsFieldType n (sessionTree type) ∧ n.string = "Uuid[]" ∧
          Source.Open n "Uuid" := by
  intro type text p
  have htable : ∃ t ∈ (Registry.ofProgram p).tables, t.declaredOn = 0 ∧
      t.idType.render = "Uuid[]" ∧
      (t.idType.imports.map fun r => (r.exported, r.localName)) = [("Uuid", "Uuid")] := by
    decide +kernel
  obtain ⟨t, ht, hon, hrender, himports⟩ := htable
  have hfield : (p.classAt t.declaredOn).idField.bind (·.type) =
      some ⟨"Uuid[]", none, ["Uuid"]⟩ := by
    rw [hon]
    decide +kernel
  cases hid : t.idType with
  | wrapped primitive wrapper =>
    rw [hid] at himports
    cases himports
  | declared text imports =>
    rw [hid] at hrender himports
    obtain rfl : text = "Uuid[]" := hrender
    obtain ⟨-, -, s, hs, -, n, hn, hstring, hopen, -⟩ :=
      idType_references ⟨"/src"⟩ [(⟨"/src/session.ts"⟩, sessionText "Uuid[]", sessionTree type)]
        t ht "Uuid[]" imports _ hid hfield
    obtain rfl := List.mem_singleton.1 hs
    refine ⟨by decide +kernel, t, ht, imports, hid, himports, n, hn, hstring.symm, ?_⟩
    exact (hopen "Uuid").1 List.mem_cons_self

/-- A tuple of an imported type is rendered as it is, and nothing is imported for it. -/
theorem idType_tuple_not_imported :
    let type : Node := .branch .plain .tupleType
      [token .plain .mark " " 96 "[", token .plain .typeName "" 97 "Uuid",
        token .plain .mark "" 101 "]"]
    let text := sessionText "[Uuid]"
    let p := Program.ofSources ⟨"/src"⟩
      [Source.ofTree ⟨"/src/session.ts"⟩ text (sessionTree type)]
    String.ofList (sessionTree type).fullText = text ∧
      Source.IsFieldType type (sessionTree type) ∧ type.Mentions "Uuid" ∧
      (p.identityOf (p.classAt 0).file "Uuid").isSome ∧
      (p.classAt 0).idField.bind (·.type) = some ⟨"[Uuid]", some "[Uuid]", []⟩ ∧
      ∃ t ∈ (Registry.ofProgram p).tables, t.declaredOn = 0 ∧
        t.idType.render = "[Uuid]" ∧ t.idType.imports.length = 0 := by
  intro type text p
  have hfield : Source.IsFieldType type (sessionTree type) := by
    refine ⟨_, .inside (List.mem_cons_of_mem _ List.mem_cons_self)
      (.inside (List.mem_cons_of_mem _ (List.mem_cons_of_mem _ (List.mem_cons_of_mem _
        List.mem_cons_self))) (.inside (List.mem_cons_of_mem _ List.mem_cons_self) .self)), ?_, ?_⟩
    · rfl
    · rfl
  have hmentions : type.Mentions "Uuid" :=
    .inside (by decide) (List.mem_cons_of_mem _ List.mem_cons_self) (.name _ _ _ _)
  exact ⟨by decide +kernel, hfield, hmentions, by decide +kernel, by decide +kernel,
    by decide +kernel⟩

end Schema

end DaoGen
