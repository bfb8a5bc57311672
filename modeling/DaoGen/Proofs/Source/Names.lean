import DaoGen.ImportBlock
import DaoGen.Proofs.Syntax.Tree
import DaoGen.Source.File
set_option autoImplicit false

/-!
# Names in source files

A file binds a name to a module as a whole only where its text has a name for it, and what it
declares is called by the text of a name too.  So no binding of a whole module is dotted, and
nothing that a file declares has the name that stands for whole modules
(`SourceFile.wellNamed_of_read`).
-/

namespace DaoGen.Source

open DaoGen.Syntax

/-- Names that do not get in the way of dots and stars: a module as a whole is bound to a name
without a dot, and no class or type is called by a star. -/
structure SourceFile.WellNamed (f : SourceFile) : Prop where
  imported : ∀ i ∈ f.imports, ∀ n ∈ i.names, n.name = wholeModule → '.' ∉ n.localName.toList
  declared : ∀ name, name ∈ f.classes.map (·.name) ++ f.typeNames → name ≠ wholeModule

section Nodes

variable {n : Node}

theorem mem_and_role_of_child? {role : Role} {child : Node} (h : n.child? role = some child) :
    child ∈ n.children ∧ child.role = role :=
  ⟨List.mem_of_find?_eq_some h, by simpa using List.find?_some h⟩

theorem not_mem_dot_string (h : IsNameText n.text) : '.' ∉ n.string.toList := by
  rw [Node.string, String.toList_ofList]
  exact h.not_mem_dot

theorem string_ne_wholeModule (h : IsNameText n.text) : n.string ≠ wholeModule := by
  intro heq
  refine h.ne_star ?_
  rw [← String.toList_ofList (l := n.text)]
  exact congrArg String.toList heq

/-- A name that a file gives to a whole module has no dot. -/
theorem not_mem_dot_localName {imported : ImportedName} (h : imported.name = wholeModule)
    (hrenamed : ∀ name, imported.renamed = some name → '.' ∉ name.toList) :
    '.' ∉ imported.localName.toList := by
  unfold ImportedName.localName
  cases hname : imported.renamed with
  | none =>
    rw [Option.getD_none, h]
    decide
  | some name => exact hrenamed name hname

theorem not_mem_dot_of_readClausePart (h : n.Named) {imported : ImportedName}
    (himported : imported ∈ readClausePart n) (hwhole : imported.name = wholeModule) :
    '.' ∉ imported.localName.toList := by
  refine not_mem_dot_localName hwhole fun name hname => ?_
  unfold readClausePart at himported
  split at himported
  · rw [List.mem_singleton.1 himported] at hwhole
    have hdefault : "default" = wholeModule := hwhole
    exact absurd hdefault (by decide)
  · rename_i hkind
    rw [List.mem_singleton.1 himported] at hname
    obtain ⟨child, hchild, rfl⟩ := Option.map_eq_some_iff.1 hname
    refine not_mem_dot_string (h.isNameText_of_asksForName (List.mem_of_find?_eq_some hchild) ?_)
    have hchildKind : child.kind = .name := by simpa using List.find?_some hchild
    simp [asksForName, hkind, hchildKind]
  · obtain ⟨specifier, hspecifier, rfl⟩ := List.mem_map.1 himported
    obtain ⟨hmem, hkind⟩ := List.mem_filter.1 hspecifier
    obtain ⟨child, hchild, rfl⟩ := Option.map_eq_some_iff.1 hname
    obtain ⟨hchild, hrole⟩ := mem_and_role_of_child? hchild
    refine not_mem_dot_string ((h.child hmem).isNameText_of_asksForName hchild ?_)
    simp [asksForName, of_decide_eq_true hkind, hrole, nameRole?]
  · cases himported

theorem not_mem_dot_of_readImport (h : n.Named) {imported : ImportedName}
    (himported : imported ∈ (readImport n).names) (hwhole : imported.name = wholeModule) :
    '.' ∉ imported.localName.toList := by
  unfold readImport at himported
  dsimp only at himported
  cases hclause : (n.children.filter (·.kind = .importClause)).getLast? with
  | none =>
    rw [hclause] at himported
    cases himported
  | some clause =>
    rw [hclause] at himported
    obtain ⟨part, hpart, himported⟩ := List.mem_flatMap.1 himported
    have hclause := (List.mem_filter.1 (List.mem_of_getLast? hclause)).1
    exact not_mem_dot_of_readClausePart ((h.child hclause).child hpart) himported hwhole

theorem isNameText_of_readClass (h : n.Named) {exported : Bool} {pending : List Decorator}
    {c : SourceClass} (hc : readClass exported pending n = some c) :
    ∃ name : Node, IsNameText name.text ∧ c.name = name.string := by
  obtain ⟨name, hname, rfl⟩ := Option.map_eq_some_iff.1 hc
  obtain ⟨hmem, hkind⟩ := List.mem_filter.1 (List.mem_of_getLast? hname)
  exact ⟨name, (h.child hmem).isNameText_of_typeName (of_decide_eq_true hkind), rfl⟩

theorem isNameText_of_mem_classesOf (h : n.Named) {c : SourceClass} (hc : c ∈ classesOf n) :
    ∃ name : Node, IsNameText name.text ∧ c.name = name.string := by
  unfold classesOf at hc
  split at hc
  · exact isNameText_of_readClass h (Option.mem_toList.1 hc)
  · split at hc
    · obtain ⟨child, hchild, hc⟩ := List.mem_filterMap.1 hc
      exact isNameText_of_readClass (h.child (List.mem_filter.1 hchild).1) hc
    · cases hc

theorem ne_of_mem_typeNamesOf (h : n.Named) {name : String} (hname : name ∈ typeNamesOf n) :
    name ≠ wholeModule := by
  unfold typeNamesOf at hname
  obtain ⟨type, htype, hname⟩ := List.mem_filterMap.1 hname
  obtain ⟨hmem, hkind⟩ := List.mem_filter.1 htype
  have htype : type.Named := by
    split at hmem
    · exact h.child hmem
    · rw [List.mem_singleton.1 hmem]
      exact h
  obtain ⟨child, hchild, rfl⟩ := Option.map_eq_some_iff.1 hname
  obtain ⟨hchild, hrole⟩ := mem_and_role_of_child? hchild
  refine string_ne_wholeModule (htype.isNameText_of_asksForName hchild ?_)
  unfold isTypeDeclaration at hkind
  simp only [Bool.or_eq_true, decide_eq_true_eq] at hkind
  rcases hkind with (hkind | hkind) | hkind <;> simp [asksForName, hkind, hrole, nameRole?]

end Nodes

/-- A file that can be read is well named. -/
theorem SourceFile.wellNamed_of_read {path : Path} {text : String} {f : SourceFile}
    (h : read path text = .ok f) : f.WellNamed := by
  unfold read at h
  split at h
  · rename_i tree htree
    obtain rfl := Except.ok.inj h
    have hnamed := named_of_parse? htree
    refine ⟨fun i hi n hn hwhole => ?_, fun name hname => ?_⟩
    · obtain ⟨statement, hstatement, rfl⟩ := List.mem_map.1 hi
      have hchild := hnamed.child (List.mem_filter.1 hstatement).1
      exact not_mem_dot_of_readImport hchild hn hwhole
    · rcases List.mem_append.1 hname with hname | hname
      · obtain ⟨c, hc, rfl⟩ := List.mem_map.1 hname
        obtain ⟨statement, hstatement, hc⟩ := List.mem_flatMap.1 hc
        obtain ⟨node, htext, hnode⟩ := isNameText_of_mem_classesOf (hnamed.child hstatement) hc
        rw [hnode]
        exact string_ne_wholeModule htext
      · obtain ⟨statement, hstatement, hname⟩ := List.mem_flatMap.1 hname
        exact ne_of_mem_typeNamesOf (hnamed.child hstatement) hname
  · cases h

/-- The classes of a file that can be read have names without dots. -/
theorem SourceFile.not_mem_dot_of_read {path : Path} {text : String} {f : SourceFile}
    (h : read path text = .ok f) {c : SourceClass} (hc : c ∈ f.classes) : '.' ∉ c.name.toList := by
  unfold read at h
  split at h
  · rename_i tree htree
    obtain rfl := Except.ok.inj h
    obtain ⟨statement, hstatement, hc⟩ := List.mem_flatMap.1 hc
    obtain ⟨node, htext, hnode⟩ :=
      isNameText_of_mem_classesOf ((named_of_parse? htree).child hstatement) hc
    rw [hnode]
    exact not_mem_dot_string htext
  · cases h

end DaoGen.Source
