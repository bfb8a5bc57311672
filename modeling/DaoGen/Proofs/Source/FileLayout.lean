import DaoGen.Proofs.Source.MemberLayout
set_option autoImplicit false

/-!
# Layout in source files

A settled tree has no positions, and none of the layout in decorators, in the types of fields and
in front of what classes extend that reading passes over.  Where nothing is read it has no layout at
all; what is read elsewhere keeps its layout.  A settled tree says the same as the tree that it
comes from, up to places and the wording of the types of fields (`Source.settles_ofTree`).
-/

namespace DaoGen

open DaoGen.Syntax (Node Kind Role)

namespace Source

/-! ## Class bodies -/

/-- A member of a class without the layout that its reading passes over. -/
def settledMember (n : Node) : Node :=
  match n.kind with
  | .decorator => settledDecorator n
  | .field => settledField n
  | .methodDefinition | .methodSignature | .abstractSignature => settledMethod n
  | _ => n.spelled

theorem kind_settledMember (n : Node) : (settledMember n).kind = n.kind := by
  unfold settledMember
  split <;> simp [settledField, settledMethod]

/-- Members of a tree are read as the same when the tree is settled. -/
structure Members.Settles (tree : Node) (m k : Members) : Prop where
  fields : List.Forall₂ (Field.Settles tree) m.fields k.fields
  methods : m.methods.map (·.outline) = k.methods.map (·.outline)
  pending : m.pending.map (·.outline) = k.pending.map (·.outline)

theorem Members.Settles.add {tree n : Node} {m k : Members} (h : m.Settles tree k)
    (hn : n.Within tree) : (m.add n).Settles tree (k.add (settledMember n)) := by
  have hmethods : (m.methods ++ (readMethod m.pending n).toList).map (·.outline) =
      (k.methods ++ (readMethod k.pending (settledMethod n)).toList).map (·.outline) := by
    have hmethod := congrArg Option.toList (outline_readMethod (n := n) h.pending)
    rw [Option.toList_map, Option.toList_map] at hmethod
    rw [List.map_append, List.map_append, h.methods, hmethod]
  unfold Members.add
  rw [kind_settledMember]
  split
  case h_1 hkind =>
    have hsettled : settledMember n = settledDecorator n := by
      unfold settledMember
      rw [hkind]
    refine ⟨h.fields, h.methods, ?_⟩
    dsimp only
    rw [List.map_append, List.map_append, h.pending, hsettled]
    exact congrArg (fun d => k.pending.map (·.outline) ++ [d])
      (outline_readDecorator_settledDecorator n).symm
  case h_2 hkind =>
    have hsettled : settledMember n = settledField n := by
      unfold settledMember
      rw [hkind]
    rw [hsettled]
    exact ⟨List.rel_append h.fields (settles_readField hn h.pending), h.methods, rfl⟩
  case h_3 hkind | h_4 hkind | h_5 hkind =>
    have hsettled : settledMember n = settledMethod n := by
      unfold settledMember
      rw [hkind]
    rw [hsettled]
    exact ⟨h.fields, hmethods, rfl⟩
  case h_6 => exact h

/-- A class body is read as the same when it is settled. -/
theorem settles_readBody {tree n : Node} (hn : n.Within tree) :
    (readBody n).Settles tree (readBody (n.mapChildren settledMember)) := by
  have hfold : ∀ (nodes : List Node) (m k : Members), (∀ child ∈ nodes, child.Within tree) →
      m.Settles tree k →
      (nodes.foldl .add m).Settles tree ((nodes.map settledMember).foldl .add k) := by
    intro nodes
    induction nodes with
    | nil => exact fun _ _ _ h => h
    | cons child rest ih =>
      intro m k hnodes h
      rw [List.map_cons, List.foldl_cons, List.foldl_cons]
      refine ih _ _ (fun other hother => hnodes other (List.mem_cons_of_mem child hother)) ?_
      exact h.add (hnodes child List.mem_cons_self)
  unfold readBody
  rw [Node.children_mapChildren]
  refine hfold n.children {} {} (fun child hchild => ?_) ⟨.nil, rfl, rfl⟩
  exact (Node.Within.of_mem_children .self hchild).trans hn

/-! ## Parents -/

/-- An extends clause without the layout around the class that it names. -/
def settledExtends : Node → Node
  | .leaf role kind _ _ text => .leaf role kind [] .start text
  | .branch role kind children =>
    if children.any (·.role = .value) then
      .branch role kind ((children.filter (!·.isLoose)).map fun n =>
        if n.role = .value then n.whole else n.spelled)
    else .branch role kind (children.map (·.whole))

/-- A part of a heritage. -/
def settledHeritagePart (n : Node) : Node :=
  if n.kind = .extendsClause then settledExtends n else n.spelled

theorem kind_settledHeritagePart (n : Node) : (settledHeritagePart n).kind = n.kind := by
  unfold settledHeritagePart settledExtends
  split
  · split
    · rfl
    · split <;> rfl
  · exact Node.kind_spelled n

/-- What an extends clause names. -/
def extended (clause : Node) : Option String :=
  ((clause.child? .value) <|> clause.namedChildren.head?).map (·.string)

theorem extended_settledExtends (n : Node) : extended (settledExtends n) = extended n := by
  cases n with
  | leaf => rfl
  | branch role kind children =>
    rw [settledExtends]
    split
    · rename_i hvalue
      obtain ⟨value, hmem, hrole⟩ := List.any_eq_true.1 hvalue
      have hsome : (children.find? (·.role = .value)).isSome :=
        List.find?_isSome.2 ⟨value, hmem, hrole⟩
      obtain ⟨found, hfound⟩ := Option.isSome_iff_exists.1 hsome
      have hvalue : found.role = .value := by simpa using List.find?_some hfound
      have hsettled : ((children.filter (!·.isLoose)).map fun n =>
          if n.role = .value then n.whole else n.spelled).find? (·.role = .value) =
          some found.whole := by
        have htest (n : Node) : decide ((if n.role = .value then n.whole else n.spelled).role =
            .value) = decide (n.role = .value) := by
          split <;> simp
        have hloose (n : Node) : decide ((!n.isLoose) = true ∧ decide (n.role = .value) = true) =
            decide (n.role = .value) := by
          cases hloose : n.isLoose with
          | true => simp [Node.role_of_isLoose hloose]
          | false => simp
        rw [Node.find?_map htest, List.find?_filter, funext hloose, hfound, Option.map_some,
          if_pos hvalue]
      unfold extended Node.child? Node.children
      rw [hsettled, hfound]
      simp
    · rename_i hvalue
      have hwhole : ((children.map (·.whole)).find? (·.role = .value)) = none := by
        rw [List.find?_eq_none]
        intro n hn
        obtain ⟨m, hm, rfl⟩ := List.mem_map.1 hn
        rw [Node.role_whole]
        exact fun hrole => hvalue (List.any_eq_true.2 ⟨m, hm, hrole⟩)
      have hnone : (children.find? (·.role = .value)) = none := by
        rw [List.find?_eq_none]
        exact fun m hm hrole => hvalue (List.any_eq_true.2 ⟨m, hm, hrole⟩)
      have hnamed : (children.map (·.whole)).filter (·.isNamed) =
          (children.filter (·.isNamed)).map (·.whole) :=
        Node.filter_map (fun m => by rw [Node.isNamed, Node.isNamed, Node.kind_whole]) _
      unfold extended Node.child? Node.namedChildren Node.children
      rw [hwhole, hnone, hnamed, List.head?_map]
      cases (children.filter (·.isNamed)).head? <;> simp

theorem readHeritage_mapChildren (n : Node) :
    readHeritage (n.mapChildren settledHeritagePart) = readHeritage n := by
  have htest (m : Node) : decide ((settledHeritagePart m).kind = .extendsClause) =
      decide (m.kind = .extendsClause) := by
    rw [kind_settledHeritagePart]
  unfold readHeritage
  rw [Node.children_mapChildren, Node.find?_map htest]
  cases hfind : n.children.find? (·.kind = .extendsClause) with
  | none => rfl
  | some clause =>
    have hclause : clause.kind = .extendsClause := by simpa using List.find?_some hfind
    have hsettled : settledHeritagePart clause = settledExtends clause := if_pos hclause
    show extended (settledHeritagePart clause) = extended clause
    rw [hsettled, extended_settledExtends]

/-! ## Classes -/

/-- A part of a class. -/
def settledClassPart (n : Node) : Node :=
  match n.kind with
  | .decorator => settledDecorator n
  | .heritage => n.mapChildren settledHeritagePart
  | .classBody => n.mapChildren settledMember
  | .typeName => n.whole
  | _ => n.spelled

/-- A class without the layout that its reading passes over. -/
def settledClass (n : Node) : Node := n.mapChildren settledClassPart

/-- A class of a tree is read as the same when the tree is settled, up to the wording of the types
of its fields. -/
structure SourceClass.Settles (tree : Node) (c d : SourceClass) : Prop where
  outline : c.outline = d.outline
  fields : List.Forall₂ (Field.Settles tree) c.fields d.fields

theorem kind_settledClassPart (n : Node) : (settledClassPart n).kind = n.kind := by
  unfold settledClassPart
  split <;> simp

theorem settles_readClass {tree n : Node} (hn : n.Within tree) (exported : Bool)
    {pending settled : List Decorator}
    (hpending : pending.map (·.outline) = settled.map (·.outline)) :
    List.Forall₂ (SourceClass.Settles tree) (readClass exported pending n).toList
      (readClass exported settled (settledClass n)).toList := by
  have hdecorators := outlines_decoratorsIn_map kind_settledClassPart
    (fun m hm => by unfold settledClassPart; rw [hm]) n.children
  have hbody : (((n.children.filter (·.kind = .classBody)).getLast?.map readBody).getD {}).Settles
      tree ((((n.children.map settledClassPart).filter (·.kind = .classBody)).getLast?.map
        readBody).getD {}) := by
    rw [Node.getLast?_filter_kind kind_settledClassPart]
    cases hlast : (n.children.filter (·.kind = .classBody)).getLast? with
    | none => exact ⟨.nil, rfl, rfl⟩
    | some body =>
      have hsettled : settledClassPart body = body.mapChildren settledMember := by
        unfold settledClassPart
        rw [Node.kind_of_getLast?_filter hlast]
      have hmem := (List.mem_filter.1 (List.mem_of_getLast? hlast)).1
      rw [Option.map_some, Option.map_some, Option.map_some, hsettled]
      exact settles_readBody ((Node.Within.of_mem_children .self hmem).trans hn)
  have hparent : ((n.children.map settledClassPart).filter (·.kind = .heritage)).getLast?.bind
      readHeritage = (n.children.filter (·.kind = .heritage)).getLast?.bind readHeritage := by
    rw [Node.getLast?_filter_kind kind_settledClassPart]
    cases hlast : (n.children.filter (·.kind = .heritage)).getLast? with
    | none => rfl
    | some heritage =>
      have hsettled : settledClassPart heritage = heritage.mapChildren settledHeritagePart := by
        unfold settledClassPart
        rw [Node.kind_of_getLast?_filter hlast]
      show readHeritage (settledClassPart heritage) = readHeritage heritage
      rw [hsettled, readHeritage_mapChildren]
  unfold readClass settledClass
  rw [Node.children_mapChildren, Node.kind_mapChildren]
  dsimp only
  rw [hparent, Node.getLast?_filter_kind kind_settledClassPart .typeName]
  cases hlast : (n.children.filter (·.kind = .typeName)).getLast? with
  | none => exact .nil
  | some name =>
    have hstring : (settledClassPart name).string = name.string := by
      unfold settledClassPart
      rw [Node.kind_of_getLast?_filter hlast]
      exact Node.string_whole name
    refine .cons ⟨?_, hbody.fields⟩ .nil
    unfold SourceClass.outline
    dsimp only
    rw [hstring, List.map_append, List.map_append, hpending, hdecorators, hbody.methods,
      map_eq_of_forall₂ (fun _ _ h => h.outline) hbody.fields]

/-! ## Statements -/

/-- A part of an export statement. -/
def settledExported (n : Node) : Node :=
  if isClass n then settledClass n
  else if isTypeDeclaration n then n.fixed
  else if n.kind = .decorator then settledDecorator n
  else n.spelled

/-- A statement without the layout that its reading passes over. -/
def settledStatement (n : Node) : Node :=
  if isClass n then settledClass n
  else if isTypeDeclaration n then n.fixed
  else if n.kind = .exportStatement then n.mapChildren settledExported
  else if n.kind = .importStatement then n.fixed
  else n.spelled

/-- The tree of a file without the layout that its reading passes over. -/
def settledFile (tree : Node) : Node := tree.mapChildren settledStatement

theorem kind_settledExported (n : Node) : (settledExported n).kind = n.kind := by
  unfold settledExported
  split
  · exact Node.kind_mapChildren _ n
  · split
    · exact Node.kind_fixed n
    · split
      · exact kind_settledDecorator n
      · exact Node.kind_spelled n

theorem kind_settledStatement (n : Node) : (settledStatement n).kind = n.kind := by
  unfold settledStatement
  split
  · exact Node.kind_mapChildren _ n
  · split
    · exact Node.kind_fixed n
    · split
      · exact Node.kind_mapChildren _ n
      · split
        · exact Node.kind_fixed n
        · exact Node.kind_spelled n

theorem isClass_congr {m n : Node} (h : m.kind = n.kind) : isClass m = isClass n := by
  rw [isClass, isClass, h]

theorem isTypeDeclaration_congr {m n : Node} (h : m.kind = n.kind) :
    isTypeDeclaration m = isTypeDeclaration n := by
  rw [isTypeDeclaration, isTypeDeclaration, h]

theorem settledExported_of_isClass {n : Node} (h : isClass n = true) :
    settledExported n = settledClass n :=
  if_pos h

theorem settledExported_of_decorator {n : Node} (h : n.kind = .decorator) :
    settledExported n = settledDecorator n := by
  have hclass : isClass n = false := by simp [isClass, h]
  have htype : isTypeDeclaration n = false := by simp [isTypeDeclaration, h]
  rw [settledExported, hclass, htype]
  exact if_pos h

theorem settles_exported {tree : Node} {pending settled : List Decorator}
    (hpending : pending.map (·.outline) = settled.map (·.outline)) {nodes : List Node}
    (hnodes : ∀ n ∈ nodes, n.Within tree) (hclass : ∀ n ∈ nodes, isClass n = true) :
    List.Forall₂ (SourceClass.Settles tree) (nodes.filterMap (readClass true pending))
      ((nodes.map settledExported).filterMap (readClass true settled)) := by
  rw [List.filterMap_map, List.filterMap_eq_flatMap_toList, List.filterMap_eq_flatMap_toList]
  refine forall₂_flatMap fun n hn => ?_
  rw [Function.comp, settledExported_of_isClass (hclass n hn)]
  exact settles_readClass (hnodes n hn) true hpending

theorem settles_classesOf {tree n : Node} (hn : n.Within tree) :
    List.Forall₂ (SourceClass.Settles tree) (classesOf n) (classesOf (settledStatement n)) := by
  unfold classesOf
  rw [isClass_congr (kind_settledStatement n), kind_settledStatement]
  split
  · rename_i hclass
    have hsettled : settledStatement n = settledClass n := if_pos hclass
    rw [hsettled]
    exact settles_readClass hn false rfl
  · split
    · rename_i hclass hexport
      have htype : isTypeDeclaration n = false := by simp [isTypeDeclaration, hexport]
      have hsettled : settledStatement n = n.mapChildren settledExported := by
        rw [settledStatement, if_neg hclass, htype, if_pos hexport]
        rfl
      have hdecorators := outlines_decoratorsIn_map kind_settledExported
        (fun m hm => settledExported_of_decorator hm) n.children
      have hfilter : (n.children.map settledExported).filter isClass =
          (n.children.filter isClass).map settledExported :=
        Node.filter_map (fun m => isClass_congr (kind_settledExported m)) _
      rw [hsettled, Node.children_mapChildren, hfilter]
      refine settles_exported hdecorators.symm (fun m hm => ?_) fun m hm => (List.mem_filter.1 hm).2
      exact (Node.Within.of_mem_children .self (List.mem_filter.1 hm).1).trans hn
    · exact .nil

theorem child?_fixed (role : Role) (n : Node) :
    (n.fixed.child? role).map (·.string) = (n.child? role).map (·.string) := by
  rw [Node.child?, Node.children_fixed, ← Node.fixedAll_eq_map]
  exact child?_fixedAll role n.children

/-- The names that the type declarations among some nodes declare. -/
theorem typeNames_map {f : Node → Node} (hkind : ∀ n, (f n).kind = n.kind)
    (hfixed : ∀ n, isTypeDeclaration n = true → f n = n.fixed) (nodes : List Node) :
    ((nodes.map f).filter isTypeDeclaration).filterMap
        (fun t => (t.child? .name).map (·.string)) =
      (nodes.filter isTypeDeclaration).filterMap fun t => (t.child? .name).map (·.string) := by
  rw [Node.filter_map (fun n => isTypeDeclaration_congr (hkind n)), List.filterMap_map]
  refine List.filterMap_congr fun n hn => ?_
  rw [Function.comp, hfixed n (List.mem_filter.1 hn).2, child?_fixed]

theorem not_isClass_of_isTypeDeclaration {n : Node} (h : isTypeDeclaration n = true) :
    isClass n = false := by
  simp only [isTypeDeclaration, Bool.or_eq_true, decide_eq_true_eq] at h
  rcases h with (h | h) | h <;> simp [isClass, h]

theorem typeNamesOf_settledStatement (n : Node) :
    typeNamesOf (settledStatement n) = typeNamesOf n := by
  have hexported (m : Node) (h : isTypeDeclaration m = true) : settledExported m = m.fixed := by
    rw [settledExported, not_isClass_of_isTypeDeclaration h]
    exact if_pos h
  have hstatement (m : Node) (h : isTypeDeclaration m = true) : settledStatement m = m.fixed := by
    rw [settledStatement, not_isClass_of_isTypeDeclaration h]
    exact if_pos h
  unfold typeNamesOf
  rw [kind_settledStatement]
  split
  · rename_i hexport
    have hclass : isClass n = false := by simp [isClass, hexport]
    have htype : isTypeDeclaration n = false := by simp [isTypeDeclaration, hexport]
    have hsettled : settledStatement n = n.mapChildren settledExported := by
      rw [settledStatement, hclass, htype, if_pos hexport]
      rfl
    rw [hsettled, Node.children_mapChildren]
    exact typeNames_map kind_settledExported hexported n.children
  · exact typeNames_map kind_settledStatement hstatement [n]

theorem settledStatement_of_import {n : Node} (h : n.kind = .importStatement) :
    settledStatement n = n.fixed := by
  have hclass : isClass n = false := by simp [isClass, h]
  have htype : isTypeDeclaration n = false := by simp [isTypeDeclaration, h]
  have hexport : n.kind ≠ .exportStatement := by simp [h]
  rw [settledStatement, hclass, htype, if_neg hexport, if_pos h]
  rfl

/-- An import binds the same names without positions. -/
theorem readClausePart_fixed (n : Node) : readClausePart n.fixed = readClausePart n := by
  have hname (m : Node) : decide (m.fixed.kind = .name) = decide (m.kind = .name) := by
    rw [Node.kind_fixed]
  have hspecifier (m : Node) : decide (m.fixed.kind = .importSpecifier) =
      decide (m.kind = .importSpecifier) := by
    rw [Node.kind_fixed]
  unfold readClausePart
  rw [Node.kind_fixed, Node.string_fixed, Node.children_fixed, Node.find?_map hname,
    Node.filter_map hspecifier, List.map_map, Option.map_map]
  simp only [Function.comp_def, child?_fixed, Node.string_fixed]

theorem outline_readImport_fixed (n : Node) :
    (readImport n.fixed).outline = (readImport n).outline := by
  unfold readImport Import.outline
  rw [Node.children_fixed, Node.getLast?_filter_kind Node.kind_fixed .importClause,
    Node.getLast?_filter_kind Node.kind_fixed .string]
  dsimp only
  rw [Option.map_map, Option.map_map]
  simp only [Function.comp_def, Node.children_fixed, List.flatMap_map, readClausePart_fixed,
    Node.text_fixed]

/-! ## Files -/

/-- A tree is read as the same when it is settled. -/
structure SourceFile.Settles (tree : Node) (f g : SourceFile) : Prop where
  outline : f.outline = g.outline
  classes : List.Forall₂ (SourceClass.Settles tree) f.classes g.classes

/-- A settled tree says the same as the tree that it comes from. -/
theorem settles_ofTree (path : Path) (text other : String) (tree : Node) :
    SourceFile.Settles tree (ofTree path text tree) (ofTree path other (settledFile tree)) := by
  have hclasses : List.Forall₂ (SourceClass.Settles tree) (tree.children.flatMap classesOf)
      ((tree.children.map settledStatement).flatMap classesOf) := by
    rw [List.flatMap_map]
    exact forall₂_flatMap fun n hn => settles_classesOf (.of_mem_children .self hn)
  have htypes : (tree.children.map settledStatement).flatMap typeNamesOf =
      tree.children.flatMap typeNamesOf := by
    rw [List.flatMap_map]
    exact congrArg (fun names => tree.children.flatMap names) (funext typeNamesOf_settledStatement)
  have himports : (((tree.children.map settledStatement).filter
      (·.kind = .importStatement)).map readImport).map (·.outline) =
      ((tree.children.filter (·.kind = .importStatement)).map readImport).map (·.outline) := by
    have htest (n : Node) : decide ((settledStatement n).kind = .importStatement) =
        decide (n.kind = .importStatement) := by
      rw [kind_settledStatement]
    rw [Node.filter_map htest, List.map_map, List.map_map, List.map_map]
    refine List.map_congr_left fun n hn => ?_
    have hkind : n.kind = .importStatement := by simpa using (List.mem_filter.1 hn).2
    show (readImport (settledStatement n)).outline = (readImport n).outline
    rw [settledStatement_of_import hkind, outline_readImport_fixed]
  have houtlines := map_eq_of_forall₂ (fun _ _ h => h.outline) hclasses
  unfold ofTree settledFile
  rw [Node.children_mapChildren]
  refine ⟨?_, hclasses⟩
  unfold SourceFile.outline
  dsimp only
  rw [himports, htypes, houtlines]

end Source

end DaoGen
