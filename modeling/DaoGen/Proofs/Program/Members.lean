import DaoGen.Program.Classes
import DaoGen.Program.OfSources
import DaoGen.Proofs.Source.Members
set_option autoImplicit false

/-!
# Members and the identifying field

A class that is read has one method for each method of its body and one field for each field that
is named by no key (`Source.forall₂_classes`).  So its identifying field is the first marked one of
these, which is the first marked one of all when no key names it (`class_members_read`).
-/

namespace DaoGen

open DaoGen.Source
open DaoGen.Syntax (Node Kind Role)

namespace Source.MemberNode

/-- Whether a field is marked as the identifier of a table in a file. -/
def isMarked (p : Program) (file : FileId) (m : MemberNode) : Bool :=
  !hasWord "static" m.node.children &&
    (m.decorators.map readDecorator).any fun d => p.isMarked file .field d && marksIdentifier d

/-- A field as the identifier of a table. -/
def idField (f : SourceFile) (m : MemberNode) : DaoGen.IdField :=
  ⟨(m.name?.map (·.string)).getD "", (annotationIn m.node.children).map .ofWritten,
    placeIn f m.node.span⟩

variable {m : MemberNode} {field : Field}

theorem IsField.isIdentifier (h : m.IsField field) (p : Program) (file : FileId) :
    isIdentifier p file field = m.isMarked p file := by
  rw [DaoGen.isIdentifier, isMarked, h.isStatic, h.decorators]

theorem IsField.idField (h : m.IsField field) (f : SourceFile) :
    ⟨field.name, field.type.map .ofWritten, placeIn f field.span⟩ = m.idField f := by
  rw [MemberNode.idField, h.name, h.type, h.span, Option.getD_some]

end Source.MemberNode

/-- The first entries of related lists that pass related tests have the same value. -/
theorem map_find?_eq_of_forall₂ {α β γ : Type} {R : α → β → Prop} {test : α → Bool}
    {other : β → Bool} {f : α → γ} {g : β → γ} (htest : ∀ a b, R a b → other b = test a)
    (hvalue : ∀ a b, R a b → g b = f a) {l : List α} {k : List β} (h : List.Forall₂ R l k) :
    (k.find? other).map g = (l.find? test).map f := by
  induction h with
  | nil => rfl
  | @cons a b _ _ hab _ ih =>
    rw [List.find?_cons, List.find?_cons, htest a b hab]
    cases test a with
    | true => exact congrArg some (hvalue a b hab)
    | false => exact ih

section

variable {n body : Node} {c : SourceClass}

/-- The identifying field is the first marked one that is named by no key. -/
theorem Source.ClassReading.idFieldOf_eq (h : ClassReading n body c) (p : Program) (file : FileId)
    (f : SourceFile) : idFieldOf p file f c =
      (((fieldNodes body).filter (·.isPlain)).find? (·.isMarked p file)).map (·.idField f) :=
  map_find?_eq_of_forall₂ (fun _ _ hread => hread.isIdentifier p file)
    (fun _ _ hread => hread.idField f) h.fields

/-- No field is lost exactly when no key names one. -/
theorem Source.ClassReading.length_fields_eq_iff (h : ClassReading n body c) :
    c.fields.length = (fieldNodes body).length ↔ ∀ m ∈ fieldNodes body, m.isPlain := by
  rw [← h.fields.length_eq, List.length_filter_eq_length_iff]

end

/-- What passes a filter and is the first to pass a test is the first in the filtered list. -/
theorem find?_filter_of_find? {α : Type} {keep test : α → Bool} {l : List α}
    (h : ∀ a, l.find? test = some a → keep a) : (l.filter keep).find? test = l.find? test := by
  induction l with
  | nil => rfl
  | cons a rest ih =>
    cases htest : test a with
    | true =>
      have hfirst : (a :: rest).find? test = some a := List.find?_cons_of_pos htest
      rw [List.filter_cons_of_pos (h a hfirst), List.find?_cons_of_pos htest, hfirst]
    | false =>
      rw [List.find?_cons_of_neg (by simp [htest])] at h ⊢
      rw [← ih h, List.filter_cons]
      split
      · exact List.find?_cons_of_neg (by simp [htest])
      · rfl

/-- A text is read exactly when it follows the grammar.  Then there is a class for each class at
the top level, in order, with a method for each method, accessor, constructor and signature of its
body and a field for each field that is named by no key, in order and each with its own decorators.
The identifying field is the first marked one of these. -/
theorem class_members_read (path : Path) (text : String) :
    match SourceFile.read path text with
    | .error failure => failure = .unparsed path ∧ Syntax.parse? text.toList = none
    | .ok f => ∃ tree, Syntax.parse? text.toList = some tree ∧
        List.Forall₂ (fun n c => ∃ body, ClassReading n body c ∧
          (c.fields.length = (fieldNodes body).length ↔ ∀ m ∈ fieldNodes body, m.isPlain) ∧
          ∀ (p : Program) (file : FileId),
            idFieldOf p file f c = (((fieldNodes body).filter (·.isPlain)).find?
              (·.isMarked p file)).map (·.idField f) ∧
            ((∀ m, (fieldNodes body).find? (·.isMarked p file) = some m → m.isPlain) →
              idFieldOf p file f c =
                ((fieldNodes body).find? (·.isMarked p file)).map (·.idField f)))
          (classNodes tree) f.classes := by
  unfold SourceFile.read
  cases htree : Syntax.parse? text.toList with
  | none => exact ⟨rfl, rfl⟩
  | some tree =>
    refine ⟨tree, rfl, (forall₂_classes path htree).imp fun n c ⟨body, hread⟩ => ?_⟩
    refine ⟨body, hread, hread.length_fields_eq_iff, fun p file => ?_⟩
    refine ⟨hread.idFieldOf_eq p file _, fun hplain => ?_⟩
    rw [hread.idFieldOf_eq, find?_filter_of_find? hplain]

/-- A field that is named by a string is lost with its decorator, and the next marked one becomes
the identifier. -/
theorem string_named_field_lost :
    let leaf (role : Role) (kind : Kind) (before : String) (column : Nat) (text : String) : Node :=
      .leaf role kind before.toList ⟨0, column, column⟩ text.toList
    let mark (before : String) (column : Nat) (text : String) : Node :=
      leaf .plain .mark before column text
    let identifier (column : Nat) (option : String) : Node := .branch .plain .decorator
      [mark " " column "@",
        .branch .plain .call
          [leaf .function .name "" (column + 1) "DatabaseField",
            .branch .arguments .arguments
              [mark "" (column + 14) "(",
                .branch .plain .object
                  [mark "" (column + 15) "\x7b",
                    .branch .plain .pair
                      [leaf .key .propertyName " " (column + 17) option,
                        mark "" (column + 17 + option.length) ":",
                        leaf .value .true " " (column + 19 + option.length) "true"],
                    mark " " (column + 24 + option.length) "\x7d"],
                mark "" (column + 25 + option.length) ")"]]]
    let typed (column : Nat) (type : String) : Node := .branch .type .typeClause
      [mark "" column ":", .branch .plain .predefinedType [mark " " (column + 2) type]]
    let key : Node := .branch .plain .string
      [mark " " 41 "\"", leaf .plain .fragment "" 42 "key", mark "" 45 "\""]
    let body : Node := .branch .plain .classBody
      [mark " " 10 "\x7b",
        .branch .plain .field [identifier 12 "id", key, typed 46 "number"], mark "" 54 ";",
        .branch .plain .field
          [identifier 56 "generatedId", leaf .plain .propertyName " " 94 "id", typed 96 "string"],
        mark "" 104 ";", mark " " 106 "\x7d"]
    let tree : Node := .branch .plain .program
      [.branch .plain .classDeclaration
        [mark "" 0 "class", leaf .name .typeName " " 6 "Row", body]]
    let text := "class Row \x7b @DatabaseField(\x7b id: true \x7d) \"key\": number; " ++
      "@DatabaseField(\x7b generatedId: true \x7d) id: string; \x7d"
    let f := Source.ofTree ⟨"/src/row.ts"⟩ text tree
    let p := Program.ofSources ⟨"/src"⟩ [f]
    let names := List.map fun m : MemberNode => m.name?.map (·.string)
    String.ofList tree.fullText = text ∧
      names (fieldNodes body) = [some "\"key\"", some "id"] ∧
      names ((fieldNodes body).find? (·.isMarked p 0)).toList = [some "\"key\""] ∧
      f.classes.map (fun c => c.fields.map (·.name)) = [["id"]] ∧
      p.classes.map (fun c => c.idField.map fun field => (field.name, field.type.map (·.text))) =
        [some ("id", some "string")] := by
  decide +kernel

end DaoGen
