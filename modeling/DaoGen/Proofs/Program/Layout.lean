import DaoGen.Proofs.Program.Outline
import DaoGen.Proofs.Source.FileLayout
set_option autoImplicit false

/-!
# Programs and the layout of their files

Files that differ in layout only make the same program, up to places and the wording of the types of
fields, as long as the layout is not among that which reading does not pass over
(`Program.layout_insignificant`).
-/

namespace DaoGen

open DaoGen.Schema (Registry)
open DaoGen.Source (SourceFile SourceClass Field settledFile settledType shapeOf)
open DaoGen.Syntax (Node Kind Role)

namespace Program

/-- A file by its path and its tree without the layout that reading passes over. -/
def settledSource (s : Path × String × Node) : Path × Node := (s.1, settledFile s.2.2)

/-- The files of some sources. -/
def filesOf (sources : List (Path × String × Node)) : List SourceFile :=
  sources.map fun s => Source.ofTree s.1 s.2.1 s.2.2

/-- The files of some settled sources. -/
def settledFilesOf (sources : List (Path × String × Node)) : List SourceFile :=
  (sources.map settledSource).map fun s => Source.ofTree s.1 "" s.2

variable {dir : Path} {sources : List (Path × String × Node)}

theorem outlines_settledFilesOf (sources : List (Path × String × Node)) :
    (settledFilesOf sources).map (·.outline) = (filesOf sources).map (·.outline) := by
  unfold settledFilesOf filesOf
  rw [List.map_map, List.map_map, List.map_map]
  exact List.map_congr_left fun s _ => (Source.settles_ofTree s.1 s.2.1 "" s.2.2).outline.symm

/-- Settling the files of a program does not change its outline. -/
theorem outline_settled (dir : Path) (sources : List (Path × String × Node)) :
    (ofSources dir (settledFilesOf sources)).outline =
      (ofSources dir (filesOf sources)).outline := by
  rw [outline_ofSources, outline_ofSources, outlines_settledFilesOf]

/-! ## The wording of types -/

/-- The type that the identifying field of a class is written with. -/
def writtenType (p : Program) (id : ClassId) : Option DeclaredType :=
  (p.classAt id).idField.bind (·.type)

theorem writtenType_outline (p : Program) (id : ClassId) :
    p.outline.writtenType id = (p.writtenType id).map (·.outline) := by
  unfold writtenType
  rw [classAt_outline, ScannedClass.outline]
  cases (p.classAt id).idField <;> rfl

/-- The type is that of the first identifying field of a class of a file. -/
theorem writtenType_ofSources (dir : Path) (files : List SourceFile) (id : ClassId) :
    (ofSources dir files).writtenType id = ((sourceClasses files)[id]?).bind fun x =>
      (x.2.2.fields.find? (isIdentifier (ofFiles dir files) x.1)).bind fun field =>
        field.type.map .ofWritten := by
  have hclasses : (ofSources dir files).classes = (sourceClasses files).map fun x =>
      ScannedClass.ofSource (ofFiles dir files) x.1 x.2.1 x.2.2 := rfl
  unfold writtenType classAt
  rw [hclasses, List.getElem?_map]
  cases (sourceClasses files)[id]? with
  | none => rfl
  | some x =>
    show (idFieldOf (ofFiles dir files) x.1 x.2.1 x.2.2).bind (·.type) = _
    rw [Option.bind_some, idFieldOf]
    cases x.2.2.fields.find? (isIdentifier (ofFiles dir files) x.1) <;> rfl

/-- Two classes with their files come from the same class of a tree. -/
structure ClassSettles (sources : List (Path × String × Node))
    (x y : FileId × SourceFile × SourceClass) : Prop where
  file : x.1 = y.1
  settles : ∃ s ∈ sources, SourceClass.Settles s.2.2 x.2.2 y.2.2

theorem settles_sourceClasses (sources : List (Path × String × Node)) :
    List.Forall₂ (ClassSettles sources) (sourceClasses (filesOf sources))
      (sourceClasses (settledFilesOf sources)) := by
  have hfile : ∀ s ∈ sources, ∀ file : FileId, List.Forall₂ (ClassSettles sources)
      ((Source.ofTree s.1 s.2.1 s.2.2).classes.map fun c =>
        (file, Source.ofTree s.1 s.2.1 s.2.2, c))
      ((Source.ofTree s.1 "" (settledFile s.2.2)).classes.map fun c =>
        (file, Source.ofTree s.1 "" (settledFile s.2.2), c)) := by
    intro s hs file
    rw [List.forall₂_map_left_iff, List.forall₂_map_right_iff]
    refine (Source.settles_ofTree s.1 s.2.1 "" s.2.2).classes.imp fun c d hclass => ?_
    exact ⟨rfl, s, hs, hclass⟩
  have hflat := Source.forall₂_flatMap fun (x : (Path × String × Node) × FileId) hx =>
    hfile x.1 ((List.mem_zipIdx' hx).2 ▸ List.getElem_mem _) x.2
  unfold sourceClasses filesOf settledFilesOf
  rw [List.map_map, List.zipIdx_map, List.zipIdx_map, List.flatMap_map, List.flatMap_map]
  exact hflat

/-- Related lists have related entries at every index. -/
theorem exists_getElem?_of_forall₂ {α β : Type} {R : α → β → Prop} {l : List α} {k : List β}
    (h : List.Forall₂ R l k) {i : Nat} {a : α} (ha : l[i]? = some a) :
    ∃ b, k[i]? = some b ∧ R a b := by
  induction h generalizing i with
  | nil => cases ha
  | cons hab _ ih =>
    cases i with
    | zero => exact ⟨_, rfl, Option.some.inj ha ▸ hab⟩
    | succ i => exact ih ha

/-- In related lists the first entries that pass related tests are related. -/
theorem exists_find?_of_forall₂ {α β : Type} {R : α → β → Prop} {test : α → Bool} {other : β → Bool}
    (htest : ∀ a b, R a b → test a = other b) {l : List α} {k : List β} (h : List.Forall₂ R l k)
    {a : α} (ha : l.find? test = some a) : ∃ b, k.find? other = some b ∧ R a b := by
  induction h with
  | nil => cases ha
  | @cons x y _ _ hxy _ ih =>
    rw [List.find?_cons] at ha ⊢
    rw [← htest x y hxy]
    cases hx : test x with
    | true =>
      rw [hx] at ha
      exact ⟨y, rfl, Option.some.inj ha ▸ hxy⟩
    | false =>
      rw [hx] at ha
      exact ih ha

/-- The type of an identifying field has the text of a type of its file. -/
theorem exists_type_of_settled {id : ClassId} {t u : DeclaredType}
    (ht : (ofSources dir (filesOf sources)).writtenType id = some t)
    (hu : (ofSources dir (settledFilesOf sources)).writtenType id = some u) :
    ∃ s ∈ sources, ∃ n, n.Within s.2.2 ∧ t = .ofWritten ⟨n.string, shapeOf n⟩ ∧
      u.text = (settledType n).string := by
  rw [writtenType_ofSources] at ht hu
  obtain ⟨x, hx, ht⟩ := Option.bind_eq_some_iff.1 ht
  obtain ⟨field, hfield, ht⟩ := Option.bind_eq_some_iff.1 ht
  obtain ⟨a, ha, rfl⟩ := Option.map_eq_some_iff.1 ht
  obtain ⟨y, hy, hfile, s, hs, hclass⟩ :=
    exists_getElem?_of_forall₂ (settles_sourceClasses sources) hx
  rw [hy, Option.bind_some] at hu
  have hscanned : (ofFiles dir (settledFilesOf sources)).outline =
      (ofFiles dir (filesOf sources)).outline := by
    rw [outline_ofFiles, outline_ofFiles, outlines_settledFilesOf]
  have htest : ∀ f g : Field, f.Settles s.2.2 g →
      isIdentifier (ofFiles dir (filesOf sources)) x.1 f =
        isIdentifier (ofFiles dir (settledFilesOf sources)) y.1 g := by
    intro f g hsettles
    rw [← isIdentifier_outline, ← isIdentifier_outline _ y.1, hsettles.outline, hscanned, hfile]
  obtain ⟨other, hother, hsettles⟩ := exists_find?_of_forall₂ htest hclass.fields hfield
  rw [hother, Option.bind_some] at hu
  obtain ⟨b, hb, rfl⟩ := Option.map_eq_some_iff.1 hu
  obtain ⟨n, hn, rfl, htext⟩ := hsettles.type a ha
  exact ⟨s, hs, n, hn, rfl, htext b hb⟩

/-- Sources that are the same once they are settled read the same and make programs that are the
same up to places and the wording of types: they have the same files, classes and declarations,
with the same arguments, the same class extends the same class, and the same tables have the same id
types.  The text of the type of an identifying field is that of a type in either source, and the two
types are the same once they are settled. -/
theorem layout_insignificant (dir : Path) (sources others : List (Path × String × Node))
    (hsame : sources.map settledSource = others.map settledSource) :
    let p := ofSources dir (filesOf sources)
    let q := ofSources dir (filesOf others)
    (filesOf sources).map (·.outline) = (filesOf others).map (·.outline) ∧
      p.outline = q.outline ∧ (∀ id, p.parentOf id = q.parentOf id) ∧
      (Registry.ofProgram p).tables.map (·.outline) =
        (Registry.ofProgram q).tables.map (·.outline) ∧
      ∀ id t u, p.writtenType id = some t → q.writtenType id = some u →
        ∃ s ∈ sources, ∃ s' ∈ others, ∃ m n : Node, m.Within s.2.2 ∧ n.Within s'.2.2 ∧
          t = .ofWritten ⟨m.string, shapeOf m⟩ ∧ u = .ofWritten ⟨n.string, shapeOf n⟩ ∧
          (settledType m).string = (settledType n).string := by
  intro p q
  have hfiles : (filesOf sources).map (·.outline) = (filesOf others).map (·.outline) := by
    rw [← outlines_settledFilesOf, ← outlines_settledFilesOf, settledFilesOf, settledFilesOf, hsame]
  have houtline : p.outline = q.outline := by
    have hp := outline_settled dir sources
    have hq := outline_settled dir others
    unfold settledFilesOf at hp hq
    rw [hsame] at hp
    exact hp.symm.trans hq
  refine ⟨hfiles, houtline, fun id => ?_, ?_, fun id t u ht hu => ?_⟩
  · rw [← p.parentOf_outline, houtline, q.parentOf_outline]
  · rw [← Schema.Registry.outlines_ofProgram p, houtline, Schema.Registry.outlines_ofProgram]
  · have hsettled : ∃ v, (ofSources dir (settledFilesOf sources)).writtenType id = some v := by
      have hwritten := congrArg (fun p => (p.writtenType id).isSome) (outline_settled dir sources)
      rw [writtenType_outline, writtenType_outline, Option.isSome_map, Option.isSome_map]
        at hwritten
      exact Option.isSome_iff_exists.1 (hwritten.trans (Option.isSome_of_eq_some ht))
    obtain ⟨v, hv⟩ := hsettled
    have hother : (ofSources dir (settledFilesOf others)).writtenType id = some v := by
      unfold settledFilesOf at hv ⊢
      rw [← hsame]
      exact hv
    obtain ⟨s, hs, m, hm, rfl, hmtext⟩ := exists_type_of_settled ht hv
    obtain ⟨s', hs', n, hn, rfl, hntext⟩ := exists_type_of_settled hu hother
    exact ⟨s, hs, s', hs', m, n, hm, hn, rfl, rfl, hmtext.symm.trans hntext⟩

/-! ## A table with comments -/

mutual

/-- Whether two trees are the same. -/
def decEqNode : (m n : Node) → Decidable (m = n)
  | .leaf role kind before start text, .leaf role' kind' before' start' text' =>
    decidable_of_iff
      (role = role' ∧ kind = kind' ∧ before = before' ∧ start = start' ∧ text = text') (by simp)
  | .branch role kind children, .branch role' kind' children' =>
    match decEqNodes children children' with
    | isTrue h => decidable_of_iff (role = role' ∧ kind = kind') (by simp [h])
    | isFalse h => isFalse fun heq => h (Node.branch.inj heq).2.2
  | .leaf .., .branch .. => isFalse nofun
  | .branch .., .leaf .. => isFalse nofun

/-- Whether two lists of trees are the same. -/
def decEqNodes : (ms ns : List Node) → Decidable (ms = ns)
  | [], [] => isTrue rfl
  | m :: ms, n :: ns =>
    match decEqNode m n, decEqNodes ms ns with
    | isTrue h, isTrue hrest => isTrue (h ▸ hrest ▸ rfl)
    | isFalse h, _ => isFalse fun heq => h (List.cons.inj heq).1
    | _, isFalse h => isFalse fun heq => h (List.cons.inj heq).2
  | [], _ :: _ => isFalse nofun
  | _ :: _, [] => isFalse nofun

end

instance : DecidableEq Node := decEqNode

mutual

/-- A node with the positions that follow from its text. -/
def placed (start : Text.Position) : Node → Node
  | .leaf role kind before _ text => .leaf role kind before (start.advance before) text
  | .branch role kind children => .branch role kind (placedAll start children)

/-- Some nodes with the positions that follow from their text. -/
def placedAll (start : Text.Position) : List Node → List Node
  | [] => []
  | n :: rest => placed start n :: placedAll (start.advance n.fullText) rest

end

/-- A token by its blanks and its text. -/
def tokenOf (role : Role) (kind : Kind) (before text : String) : Node :=
  .leaf role kind before.toList .start text.toList

/-- The tree of a table that extends another class.  Some nodes stand in the name of its decorator
and in the arguments, in front of the parent and in the options of its id, and others behind the
colon of the type. -/
def entryTree (gap type : List Node) : Node :=
  let mark := tokenOf .plain .mark
  let base : Node := .branch .plain .classDeclaration
    [mark "" "class", tokenOf .name .typeName " " "Base",
      .branch .plain .classBody [mark " " "\x7b", mark "" "\x7d"]]
  let name : Node := .branch .function .member
    ([tokenOf .object .name "" "orm"] ++ gap ++
      [mark "" ".", tokenOf .property .propertyName "" "DatabaseTable"])
  let decorator : Node := .branch .plain .decorator
    [mark " " "@", .branch .plain .call
      [name, .branch .arguments .arguments ([mark "" "("] ++ gap ++ [mark "" ")"])]]
  let parent : Node := .branch .plain .heritage
    [.branch .plain .extendsClause
      ([mark " " "extends"] ++ gap ++ [tokenOf .value .name " " "Base"])]
  let options : Node := .branch .plain .object
    ([mark "" "\x7b"] ++ gap ++
      [.branch .plain .pair [tokenOf .key .propertyName " " "id", mark "" ":",
        tokenOf .value .true " " "true"], mark " " "\x7d"])
  let identifier : Node := .branch .plain .decorator
    [mark " " "@", .branch .plain .call
      [tokenOf .function .name "" "DatabaseField",
        .branch .arguments .arguments [mark "" "(", options, mark "" ")"]]]
  let field : Node := .branch .plain .field
    [identifier, tokenOf .plain .propertyName " " "id",
      .branch .type .typeClause (mark "" ":" :: type)]
  let table : Node := .branch .plain .classDeclaration
    [decorator, mark " " "class", tokenOf .name .typeName " " "Row", parent,
      .branch .plain .classBody [mark " " "\x7b", field, mark "" ";", mark " " "\x7d"]]
  placed .start (.branch .plain .program [base, table])

/-- The text of that table. -/
def entryText (gap type : String) : String :=
  "class Base \x7b\x7d @orm" ++ gap ++ ".DatabaseTable(" ++ gap ++ ") class Row extends" ++ gap ++
    " Base \x7b @DatabaseField(\x7b" ++ gap ++ " id: true \x7d) id:" ++ type ++ "; \x7d"

/-- A comment. -/
def comment : Node := tokenOf .plain .comment " " "/* key */"

/-- Comments in the places that are passed over do not change the tables of a program. -/
theorem layout_insignificant_comments :
    let array (gap : List Node) : Node := .branch .plain .arrayType
      ([tokenOf .plain .typeName " " "Uuid"] ++ gap ++
        [tokenOf .plain .mark "" "[", tokenOf .plain .mark "" "]"])
    let sources := [(⟨"/src/row.ts"⟩, entryText "" " Uuid[]", entryTree [] [array []])]
    let others := [(⟨"/src/row.ts"⟩, entryText " /* key */" " Uuid /* key */[]",
      entryTree [comment] [array [comment]])]
    let p := ofSources ⟨"/src"⟩ (filesOf sources)
    let q := ofSources ⟨"/src"⟩ (filesOf others)
    (∀ s ∈ sources ++ others, String.ofList s.2.2.fullText = s.2.1) ∧
      sources.map settledSource = others.map settledSource ∧
      (Registry.ofProgram p).tables.map (·.name) = ["Row"] ∧ p.parentOf 1 = some 0 ∧
      p.outline = q.outline ∧ q.parentOf 1 = some 0 := by
  intro array sources others p q
  have htree : settledFile (entryTree [] [array []]) =
      settledFile (entryTree [comment] [array [comment]]) := by
    decide +kernel
  have hsame : sources.map settledSource = others.map settledSource :=
    congrArg (fun tree : Node => [((⟨"/src/row.ts"⟩ : Path), tree)]) htree
  have hparent : p.parentOf 1 = some 0 := by decide +kernel
  obtain ⟨-, houtline, hparents, -⟩ := layout_insignificant ⟨"/src"⟩ sources others hsame
  exact ⟨by decide +kernel, hsame, by decide +kernel, hparent, houtline,
    (hparents 1).symm.trans hparent⟩

/-- A comment between the colon and the type of an id changes the id type of the table. -/
theorem layout_insignificant_before_type :
    let number : Node := .branch .plain .predefinedType [tokenOf .plain .mark " " "number"]
    let sources := [(⟨"/src/row.ts"⟩, entryText "" " number", entryTree [] [number])]
    let others := [(⟨"/src/row.ts"⟩, entryText "" " /* key */ number",
      entryTree [] [comment, number])]
    let p := ofSources ⟨"/src"⟩ (filesOf sources)
    let q := ofSources ⟨"/src"⟩ (filesOf others)
    (∀ s ∈ sources ++ others, String.ofList s.2.2.fullText = s.2.1) ∧
      (entryTree [] [number]).spelling = (entryTree [] [comment, number]).spelling ∧
      (Registry.ofProgram p).tables.map (·.idType.render) = ["Number"] ∧
      (Registry.ofProgram q).tables.map (·.idType.render) = ["/* key */"] := by
  decide +kernel

end Program

end DaoGen
