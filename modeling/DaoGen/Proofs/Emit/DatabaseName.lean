import DaoGen.Proofs.Emit.FileOrder
import DaoGen.Proofs.Helper.Tables
import DaoGen.Proofs.Schema.References
import DaoGen.Proofs.Source.Literals
import DaoGen.Proofs.Text.Literal
import DaoGen.Proofs.Upgrade.Dispatch
set_option autoImplicit false

/-!
# The name of a database from its literal to the generated code

The name of a helper is what stands between the quotes of a string literal in the tree of some
source file (`Program.exists_literal_of_name`).  The constructor of the helper's module opens a
database of that name with an extension, and the config module makes a file of that name with
another ending, both written as string literals.  Their values extend the value of the literal in
the source exactly when that literal is taken as it stands (`database_name_value_iff`).
-/

namespace DaoGen

open DaoGen.Source (SourceFile Decorator Expr formOf unquoted ofTree)
open DaoGen.Syntax (Node Kind Role)
open DaoGen.Text.Literal (value? IsVerbatim)
open DaoGen.Schema (token)

/-! ## Declared names -/

namespace HelperDeclaration

variable {p : Program} {file : FileId} {f : SourceFile} {d : HelperDeclaration}

/-- A name comes from an option that says it. -/
theorem name_addOption {member : String × Expr} {name : Located String}
    (h : (d.addOption p file f member).name = some name) :
    d.name = some name ∨ ∃ span, member = ("name", .string span name.value) ∧
      name.place = placeIn f span := by
  obtain ⟨key, value⟩ := member
  have hspec : Holds p file f (d.addOption p file f (key, value)) (key, value) ∧
        Keeps [key] d (d.addOption p file f (key, value)) ∨
      Complains f (d.addOption p file f (key, value)) (key, value) ∧
        Keeps [] d (d.addOption p file f (key, value)) := addOption_spec d (key, value)
  rcases hspec with ⟨hholds, hkeeps⟩ | ⟨-, hkeeps⟩
  · by_cases hkey : key = "name"
    · subst hkey
      generalize hoption : ("name", value) = member at hholds
      cases hholds with
      | name span text held =>
        cases hoption
        rw [h] at held
        cases held
        exact .inr ⟨span, rfl, rfl⟩
      | version => simp at hoption
      | tables => simp at hoption
      | dropOnUpgrade => simp at hoption
      | withConfigUtil => simp at hoption
    · rw [hkeeps.name (by simpa using Ne.symm hkey)] at h
      exact .inl h
  · rw [hkeeps.name List.not_mem_nil] at h
    exact .inl h

theorem name_foldl_addOption {members : List (String × Expr)} {name : Located String}
    (h : (members.foldl (addOption p file f) d).name = some name) :
    d.name = some name ∨ ∃ span, ("name", Expr.string span name.value) ∈ members ∧
      name.place = placeIn f span := by
  induction members generalizing d with
  | nil => exact .inl h
  | cons member rest ih =>
    rcases ih h with h | ⟨span, hmem, hplace⟩
    · rcases name_addOption h with h | ⟨span, rfl, hplace⟩
      · exact .inl h
      · exact .inr ⟨span, List.mem_cons_self, hplace⟩
    · exact .inr ⟨span, List.mem_cons_of_mem member hmem, hplace⟩

/-- The name of a helper comes from a member of the object that it is declared with. -/
theorem exists_member_of_name {owner : ClassId} {decorator : Decorator} {name : Located String}
    (h : (ofDecorator p file f owner decorator).name = some name) :
    ∃ objectSpan members span, Expr.object objectSpan members ∈ decorator.arguments ∧
      ("name", Expr.string span name.value) ∈ members ∧ name.place = placeIn f span := by
  unfold ofDecorator optionMembers at h
  dsimp only at h
  cases harguments : decorator.arguments with
  | nil =>
    rw [harguments] at h
    cases h
  | cons argument rest =>
    rw [harguments] at h
    cases argument with
    | object objectSpan members =>
      rcases name_foldl_addOption h with h | ⟨span, hmem, hplace⟩
      · cases h
      · exact ⟨objectSpan, members, span, List.mem_cons_self, hmem, hplace⟩
    | _ => cases h

end HelperDeclaration

namespace Program

variable {dir : Path} {files : List SourceFile}

/-- A helper is declared by a decorator on a class of a source file. -/
theorem exists_decorator_of_mem_helpers {d : HelperDeclaration}
    (hd : d ∈ (ofSources dir files).helpers) :
    ∃ f ∈ files, ∃ c ∈ f.classes, ∃ decorator ∈ c.decorators, ∃ p file owner,
      d = HelperDeclaration.ofDecorator p file f owner decorator := by
  obtain ⟨declaration, hmem, hhelper⟩ := List.mem_filterMap.1 hd
  obtain ⟨owner, -, file, f, c, hclass, hdeclared⟩ := exists_of_mem_declarations hmem
  obtain ⟨hfile, hc⟩ := mem_sourceClasses hclass
  rcases mem_declarationsOf hdeclared with rfl | ⟨decorator, hon, rfl⟩ | ⟨m, -, decorator, -, rfl⟩
  · cases hhelper
  · obtain rfl := Option.some.inj hhelper
    exact ⟨f, List.mem_of_getElem? hfile, c, hc, decorator, hon, _, _, _, rfl⟩
  · cases hhelper

/-- The declared name of a helper is what stands between the quotes of a literal in the tree of a
source file, at the place of that literal. -/
theorem exists_literal_of_name {sources : List (Path × String × Node)} {d : HelperDeclaration}
    {name : Located String}
    (hd : d ∈ (ofSources dir (sources.map fun s => ofTree s.1 s.2.1 s.2.2)).helpers)
    (hname : d.name = some name) :
    ∃ s ∈ sources, ∃ literal : Node, literal.Within s.2.2 ∧ literal.IsLiteral ∧
      name.value = String.ofList (unquoted literal.text) ∧
      name.place = placeIn (ofTree s.1 s.2.1 s.2.2) literal.span := by
  obtain ⟨f, hf, c, hc, decorator, hdecorator, p, file, owner, rfl⟩ :=
    exists_decorator_of_mem_helpers hd
  obtain ⟨s, hs, rfl⟩ := List.mem_map.1 hf
  obtain ⟨n, hn, rfl⟩ := Source.exists_readDecorator_of_mem_classes hc hdecorator
  obtain ⟨objectSpan, members, span, hobject, hmember, hplace⟩ :=
    HelperDeclaration.exists_member_of_name hname
  obtain ⟨argument, hargument, hform⟩ := Source.exists_formOf_of_mem_arguments hobject
  obtain ⟨role, children, hliteral, rfl⟩ := Source.exists_object_of_formOf hform.symm
  obtain ⟨child, hchild, hmemberOf⟩ := List.mem_filterMap.1 hmember
  rcases Source.exists_formOf_of_memberOf? hmemberOf with ⟨_, hother⟩ | ⟨value, hvalue, hstring⟩
  · cases hother
  obtain ⟨literal, hwithin, hkind, rfl, htext⟩ := Source.exists_literal_of_formOf hstring.symm
  refine ⟨s, hs, literal, ?_, hkind, htext, hplace⟩
  have hobjectWithin := (hliteral.trans hargument).trans hn
  exact (hwithin.trans (.inside hchild hvalue)).trans hobjectWithin

end Program

/-! ## Written names -/

namespace Emit

/-- The text of a module holds the text of each member of its class. -/
theorem exists_render_module (m : ModuleCode) {member : Member} (h : member ∈ m.exported.members) :
    ∃ before after, m.render = before ++ member.render ++ after := by
  obtain ⟨before, after, hsplit⟩ := Upgrade.exists_renderAll_eq h
  refine ⟨ModuleCode.header m.source ++ ImportBlock.render m.imports ++ "\n" ++
    line 0 ("export class " ++ m.exported.name ++ " extends " ++ m.exported.parent ++ " \x7b") ++
    before, after ++ line 0 "\x7d" ++
      (if m.trailer.isEmpty then "" else "\n" ++ Stmt.renderAll 0 m.trailer), ?_⟩
  simp [ModuleCode.render, ClassCode.render, hsplit, String.append_assoc]

/-- The constructor of a helper opens the database under its name. -/
theorem exists_render_constructor (runtime : RuntimeNames) (h : Helper) :
    ∃ before after, (HelperModule.constructor runtime h).render =
      before ++ ("super(context, " ++ Text.quote (Naming.databaseFile h.name) ++ ", null, ") ++
        after := by
  unfold HelperModule.constructor
  dsimp only
  generalize (if h.writesConfig then
    [Expr.call (.member (.name h.configName) "getDatabaseConfigFile") []] else []) = config
  refine ⟨line 1 ("constructor(" ++ renderParameters [⟨"context", .name runtime.context⟩] ++
      ") \x7b") ++ indent 2,
    Expr.renderAll (.number h.version :: config) ++ ");\n" ++ line 1 "\x7d", ?_⟩
  refine String.toList_inj.1 ?_
  simp [Member.render, Stmt.renderAll, Stmt.render, Expr.render, Expr.renderAll, line]

theorem exists_renderAll_stmts {level : Nat} {stmt : Stmt} {stmts : List Stmt}
    (h : stmt ∈ stmts) :
    ∃ before after, Stmt.renderAll level stmts = before ++ stmt.render level ++ after := by
  induction stmts with
  | nil => cases h
  | cons first rest ih =>
    rcases List.mem_cons.1 h with rfl | h
    · exact ⟨"", Stmt.renderAll level rest, by rw [Stmt.renderAll, String.empty_append]⟩
    · obtain ⟨before, after, hsplit⟩ := ih h
      refine ⟨first.render level ++ before, after, ?_⟩
      rw [Stmt.renderAll, hsplit]
      simp only [String.append_assoc]

/-- The text of a method holds the text of each of its statements. -/
theorem exists_render_method (modifiers : List String) (name : String)
    (parameters : List Parameter) (result : TypeExpr) {stmt : Stmt} {body : List Stmt}
    (h : stmt ∈ body) :
    ∃ before after, (Member.method modifiers name parameters result body).render =
      before ++ stmt.render 2 ++ after := by
  obtain ⟨before, after, hsplit⟩ : ∃ before after, Stmt.renderAll 2 body =
      before ++ stmt.render 2 ++ after := exists_renderAll_stmts h
  rw [Member.render, hsplit]
  generalize line 1 (String.join (modifiers.map (· ++ " ")) ++ name ++ "(" ++
    renderParameters parameters ++ "): " ++ result.render ++ " \x7b") = signature
  exact ⟨signature ++ before, after ++ line 1 "\x7d", by simp only [String.append_assoc]⟩

/-- The statement that names the config file. -/
def fileStmt (h : Helper) : Stmt :=
  .const "file" (ConfigModule.callOf "join" [.name "dir", .string (Naming.configFile h.name)])

theorem render_fileStmt (h : Helper) : (fileStmt h).render 2 =
    indent 2 ++ ("const file = join(dir, " ++ Text.quote (Naming.configFile h.name) ++ ");") ++
      "\n" := by
  refine String.toList_inj.1 ?_
  simp [fileStmt, ConfigModule.callOf, Stmt.render, Expr.render, Expr.renderAll, line]

/-- The config module of a helper makes a file under the name of the database. -/
theorem exists_render_configFileMember (h : Helper) :
    ∃ before after, (ConfigModule.configFileMember h).render =
      before ++ ("const file = join(dir, " ++ Text.quote (Naming.configFile h.name) ++ ");") ++
        after := by
  obtain ⟨before, after, hsplit⟩ : ∃ before after, (ConfigModule.configFileMember h).render =
      before ++ (fileStmt h).render 2 ++ after :=
    exists_render_method _ _ _ _ (List.mem_cons_of_mem _ List.mem_cons_self)
  refine ⟨before ++ indent 2, "\n" ++ after, ?_⟩
  rw [hsplit, render_fileStmt]
  simp only [String.append_assoc]

/-- A file holds what the text of a member of its class holds. -/
theorem exists_content_of_member {runtime : RuntimeNames} {outDir : Path} {h : Helper}
    {m : ModuleCode} (hm : m ∈ modulesOf runtime outDir h) {member : Member}
    (hmember : member ∈ m.exported.members) {text : String}
    (htext : ∃ before after, member.render = before ++ text ++ after) :
    ∃ f ∈ filesOf runtime outDir h, ∃ before after, f.content = before ++ text ++ after := by
  obtain ⟨before, after, hsplit⟩ := exists_render_module m hmember
  obtain ⟨inner, outer, hinner⟩ := htext
  refine ⟨fileOf h m, List.mem_map_of_mem hm, before ++ inner, outer ++ after, ?_⟩
  show m.render = _
  rw [hsplit, hinner]
  simp only [String.append_assoc]

theorem exists_file_of_databaseFile (runtime : RuntimeNames) (outDir : Path) (h : Helper) :
    ∃ f ∈ filesOf runtime outDir h, ∃ before after, f.content =
      before ++ ("super(context, " ++ Text.quote (Naming.databaseFile h.name) ++ ", null, ") ++
        after := by
  have hm : helperModule runtime outDir h ∈ modulesOf runtime outDir h := List.mem_cons_self
  have hmember : HelperModule.constructor runtime h ∈ HelperModule.members runtime h := by
    simp [HelperModule.members]
  exact exists_content_of_member hm hmember (exists_render_constructor runtime h)

theorem exists_file_of_configFile (runtime : RuntimeNames) (outDir : Path) {h : Helper}
    (hwrites : h.writesConfig = true) :
    ∃ f ∈ filesOf runtime outDir h, ∃ before after, f.content =
      before ++ ("const file = join(dir, " ++ Text.quote (Naming.configFile h.name) ++ ");") ++
        after := by
  have hm : configModule runtime outDir h ∈ modulesOf runtime outDir h := by
    simp [modulesOf, hwrites]
  have hmember : ConfigModule.configFileMember h ∈
      (configModule runtime outDir h).exported.members :=
    List.mem_cons_of_mem _ List.mem_cons_self
  exact exists_content_of_member hm hmember (exists_render_configFileMember h)

end Emit

/-! ## Values of names -/

namespace Text.Literal

/-- The written form of what stands between the quotes of a literal, with an ending, has the value
of the literal with that ending exactly when the literal is taken as it stands. -/
theorem value?_quote_append_iff {text : List Char} {v : List Nat} (h : value? text = some v)
    (ending : String) :
    value? (quote (String.ofList (unquoted text) ++ ending)).toList =
        some (v ++ units ending.toList) ↔ IsVerbatim text := by
  rw [toList_quote, value?_quoteChars, ← value?_eq_units_unquoted_iff h, String.toList_append,
    String.toList_ofList, units_append, Option.some_inj, List.append_left_inj]
  exact eq_comm

end Text.Literal

/-- The name of every helper is what stands between the quotes of a literal in a source.  The value
of the literal that opens the database, and of the one that names the config file, is the value of
that literal with an ending exactly when that literal is taken as it stands. -/
theorem database_name_value_iff (runtime : RuntimeNames) (dir outDir : Path)
    (sources : List (Path × String × Node)) (h : Helper) :
    let files := sources.map fun s => ofTree s.1 s.2.1 s.2.2
    h ∈ (Validation.ofSources runtime dir files).helpers →
    ∃ s ∈ sources, ∃ literal : Node, literal.Within s.2.2 ∧ literal.IsLiteral ∧
      (∃ d ∈ (Program.ofSources dir files).helpers, d.owner = h.owner ∧
        d.name = some ⟨h.name, placeIn (ofTree s.1 s.2.1 s.2.2) literal.span⟩) ∧
      (∃ f ∈ Emit.filesOf runtime outDir h, ∃ before after, f.content =
        before ++ ("super(context, " ++ Text.quote (Naming.databaseFile h.name) ++ ", null, ") ++
          after) ∧
      (h.writesConfig = true → ∃ f ∈ Emit.filesOf runtime outDir h, ∃ before after, f.content =
        before ++ ("const file = join(dir, " ++ Text.quote (Naming.configFile h.name) ++ ");") ++
          after) ∧
      ∀ v, value? literal.text = some v →
        (value? (Text.quote (Naming.databaseFile h.name)).toList =
            some (v ++ Text.units ".db".toList) ↔ IsVerbatim literal.text) ∧
          (value? (Text.quote (Naming.configFile h.name)).toList =
            some (v ++ Text.units "_config.txt".toList) ↔ IsVerbatim literal.text) := by
  intro files hmem
  obtain ⟨d, hd, hresult⟩ := Validation.exists_declaration_of_mem_helpers hmem
  obtain ⟨name, version, haccept, -, rfl⟩ := HelperDeclaration.exists_of_result_accept hresult
  obtain ⟨declared, hdeclared, rfl⟩ :=
    Option.map_eq_some_iff.1 (HelperDeclaration.name_of_acceptName haccept)
  obtain ⟨s, hs, literal, hwithin, hliteral, hname, hplace⟩ :=
    Program.exists_literal_of_name hd hdeclared
  refine ⟨s, hs, literal, hwithin, hliteral, ⟨d, hd, rfl, ?_⟩,
    Emit.exists_file_of_databaseFile runtime outDir _,
    Emit.exists_file_of_configFile runtime outDir, fun v hv => ?_⟩
  · rw [hdeclared, ← hplace]
    rfl
  · have hiff := Text.Literal.value?_quote_append_iff hv
    rw [← hname] at hiff
    exact ⟨hiff ".db", hiff "_config.txt"⟩

/-- The tree of a class that is declared a helper under the name of a literal of seven
characters. -/
def helperTree (literal : Node) : Node :=
  let mark := token .plain .mark
  let name : Node := .branch .plain .pair
    [token .key .propertyName " " 10 "name", mark "" 14 ":", literal]
  let decorator : Node := .branch .plain .decorator
    [mark "" 0 "@",
      .branch .plain .call
        [token .function .name "" 1 "Helper",
          .branch .arguments .arguments
            [mark "" 7 "(", .branch .plain .object [mark "" 8 "\x7b", name, mark " " 24 "\x7d"],
              mark "" 25 ")"]]]
  .branch .plain .program
    [.branch .plain .classDeclaration
      [decorator, mark " " 27 "class", token .name .typeName " " 33 "Notes",
        .branch .plain .classBody [mark " " 39 "\x7b", mark "" 40 "\x7d"]]]

/-- The text of that class. -/
def helperText (literal : String) : String :=
  "@Helper(\x7b name: " ++ literal ++ " \x7d) class Notes \x7b\x7d"

/-- A plain name opens the database of that name. -/
theorem database_name_value_plain :
    let literal : Node := .branch .value .string
      [token .plain .mark " " 16 "\"", token .plain .fragment "" 17 "notes",
        token .plain .mark "" 22 "\""]
    let sources := [(⟨"/src/notes.ts"⟩, helperText "\"notes\"", helperTree literal)]
    let files := sources.map fun s => ofTree s.1 s.2.1 s.2.2
    String.ofList (helperTree literal).fullText = helperText "\"notes\"" ∧
      ∃ h ∈ (Validation.ofSources {} ⟨"/src"⟩ files).helpers, h.name = "notes" ∧
        (∃ f ∈ Emit.filesOf {} ⟨"/out"⟩ h, ∃ before after, f.content =
          before ++ "super(context, \"notes.db\", null, " ++ after) ∧
        ∃ name : Node, name.Within (helperTree literal) ∧ name.IsLiteral ∧
          ∀ v, value? name.text = some v →
            (some (Text.units "notes.db".toList) = some (v ++ Text.units ".db".toList) ↔
              IsVerbatim name.text) := by
  intro literal sources files
  obtain ⟨h, hmem, hname⟩ : ∃ h ∈ (Validation.ofSources {} ⟨"/src"⟩ files).helpers,
      h.name = "notes" := by
    decide +kernel
  obtain ⟨s, hs, name, hwithin, hliteral, -, hfile, -, hvalue⟩ :=
    database_name_value_iff {} ⟨"/src"⟩ ⟨"/out"⟩ sources h hmem
  obtain rfl := List.mem_singleton.1 hs
  rw [hname] at hfile
  refine ⟨by decide +kernel, h, hmem, hname, hfile, name, hwithin, hliteral, fun v hv => ?_⟩
  have hiff := (hvalue v hv).1
  rw [hname, Text.toList_quote, Text.Literal.value?_quoteChars] at hiff
  exact hiff

/-- A name with an escaped quote opens a database with a backslash in its name. -/
theorem database_name_value_escaped :
    let literal : Node := .branch .value .string
      [token .plain .mark " " 16 "'", token .plain .fragment "" 17 "it",
        token .plain .escape "" 19 "\\'", token .plain .fragment "" 21 "s",
        token .plain .mark "" 22 "'"]
    let files := [ofTree ⟨"/src/notes.ts"⟩ (helperText "'it\\'s'") (helperTree literal)]
    let helpers := (Validation.ofSources {} ⟨"/src"⟩ files).helpers
    String.ofList (helperTree literal).fullText = helperText "'it\\'s'" ∧
      value? literal.text = some (Text.units "it's".toList) ∧
      (helpers.map fun h => value? (Text.quote (Naming.databaseFile h.name)).toList) =
        [some (Text.units "it\\'s.db".toList)] ∧
      Text.units "it\\'s.db".toList ≠ Text.units "it's".toList ++ Text.units ".db".toList := by
  decide +kernel

end DaoGen
