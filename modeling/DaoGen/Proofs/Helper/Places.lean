import DaoGen.Proofs.Helper.Accounting
import DaoGen.Proofs.Program.Places
import DaoGen.Proofs.Schema.References
set_option autoImplicit false

/-!
# Where diagnostics stand

Each diagnostic of a program is about one of its declarations (`Validation.Concerns`): it says that
a routine is astray or refused, that a class name is claimed, or what is wrong with a helper
declaration.  It stands at a place of that declaration or of the class that the declaration is
made on, so it carries the text of the file in which both stand, and a span of that file.
-/

namespace DaoGen

open DaoGen.Schema DaoGen.Upgrade
open DaoGen.Syntax (Node Kind Role)

/-- A span lies in a text and cuts no character of it. -/
structure Text.Span.LiesIn (span : Text.Span) (text : String) : Prop where
  ordered : span.start.offset ≤ span.stop.offset
  start : (⟨span.start.offset⟩ : String.Pos.Raw).IsValid text
  stop : (⟨span.stop.offset⟩ : String.Pos.Raw).IsValid text

instance (span : Text.Span) (text : String) : Decidable (span.LiesIn text) :=
  decidable_of_iff (span.start.offset ≤ span.stop.offset ∧
      (⟨span.start.offset⟩ : String.Pos.Raw).IsValid text ∧
      (⟨span.stop.offset⟩ : String.Pos.Raw).IsValid text)
    ⟨fun ⟨ordered, start, stop⟩ => ⟨ordered, start, stop⟩, fun h => ⟨h.ordered, h.start, h.stop⟩⟩

/-! ## Diagnostics of declarations -/

namespace RoutineDeclaration

variable {P : Place → Prop} {runtime : RuntimeNames} {r : RoutineDeclaration} {e : Diagnostic}

theorem Placed.of_refusal (hr : r.Placed P) (h : r.Refusal runtime e) : P e.place := by
  cases h with
  | modifiers | parameterCount => exact hr.place
  | firstParameter h | secondParameter h => exact hr.parameters _ h
  | argument h => exact hr.issues _ h
  | missingTarget => exact hr.decoratorPlace
  | invalidTarget h => exact hr.toVersion _ h
  | invalidOrigin h => exact hr.fromVersion _ h

end RoutineDeclaration

namespace HelperDeclaration

variable {P : Place → Prop} {p : Program} {runtime : RuntimeNames} {d : HelperDeclaration}
  {e : Diagnostic}

theorem Placed.of_reports (hd : d.Placed P) (howner : P (p.classAt d.owner).place)
    {requirement : Requirement} (hmem : requirement ∈ d.requirements [])
    (h : d.Reports p runtime requirement e) : P e.place := by
  cases h with
  | argument issue => exact hd.issues issue (by simpa [requirements] using hmem)
  | concrete | constructible => exact howner
  | missingName => exact hd.place
  | invalidName h => exact hd.name _ h
  | version h => exact hd.version _ h
  | missingTable | ambiguousTable => exact hd.tables _ (by simpa [requirements] using hmem)
  | routine => simp [requirements] at hmem

end HelperDeclaration

namespace Validation

open HelperDeclaration

/-- What a diagnostic of a program says of one of its declarations. -/
inductive Concerns (p : Program) (registry : Registry) (runtime : RuntimeNames) :
    Declaration → Diagnostic → Prop where
  /-- that a routine is on a class without helper declaration -/
  | stray {r : RoutineDeclaration} (h : isHelperClass p r.owner = false) :
      Concerns p registry runtime (.routine r) (strayDiagnostic r)
  /-- that a routine is refused -/
  | refused {r : RoutineDeclaration} {e : Diagnostic} (h : r.accept runtime = .error e) :
      Concerns p registry runtime (.routine r) e
  /-- that the class name of a helper is claimed -/
  | claimed {d : HelperDeclaration} {generated : Located String} {first : String}
      (h : claimOf d = some generated) : Concerns p registry runtime (.helper d)
        ⟨.duplicateHelper (p.classAt d.owner).name first generated.value, generated.place⟩
  /-- that a helper does not meet a requirement of its own -/
  | unmet {d : HelperDeclaration} {requirement : Requirement} {e : Diagnostic}
      (hmem : requirement ∈ d.violated p registry runtime [])
      (h : d.Reports p runtime requirement e) : Concerns p registry runtime (.helper d) e

variable {P : Place → Prop} {p : Program} {registry : Registry} {runtime : RuntimeNames}
  {e : Diagnostic}

theorem Concerns.placed {declaration : Declaration} (h : Concerns p registry runtime declaration e)
    (hplaced : declaration.Placed P) (howner : P (p.classAt declaration.owner).place) :
    P e.place := by
  cases h with
  | stray => exact hplaced.place
  | refused h => exact hplaced.of_refusal (RoutineDeclaration.refusal_of_accept h)
  | @claimed d generated first h =>
    obtain ⟨name, hname, hclaim⟩ := Option.bind_eq_some_iff.1 h
    split at hclaim
    · cases hclaim
    · cases hclaim
      exact hplaced.name name hname
  | unmet hmem h => exact hplaced.of_reports howner (List.mem_filter.1 hmem).1 h

theorem helper_mem_declarations {d : HelperDeclaration} (h : d ∈ p.helpers) :
    .helper d ∈ p.declarations := by
  obtain ⟨declaration, hmem, heq⟩ := List.mem_filterMap.1 h
  cases declaration <;> cases heq
  exact hmem

theorem routine_mem_declarations {r : RoutineDeclaration} (h : r ∈ p.routines) :
    .routine r ∈ p.declarations := by
  obtain ⟨declaration, hmem, heq⟩ := List.mem_filterMap.1 h
  cases declaration <;> cases heq
  exact hmem

theorem exists_settled_of_mem_outcomes {claims : Claims} {ds : List HelperDeclaration}
    {result : Except (List Diagnostic) Helper}
    (h : result ∈ (outcomes p registry runtime claims ds).map (·.result)) :
    ∃ d ∈ ds, Settled p registry runtime d result := by
  obtain ⟨outcome, houtcome, rfl⟩ := List.mem_map.1 h
  obtain ⟨claimed, d, hd, rfl⟩ := exists_outcomeOf_of_mem_outcomes houtcome
  exact ⟨d, hd, settled_outcomeOf claimed d⟩

/-- What is wrong with a helper declaration is about it or about a routine of its class. -/
theorem exists_concerns_of_mem_diagnostics {d : HelperDeclaration} (hd : d ∈ p.helpers)
    (h : e ∈ d.diagnostics p registry runtime (routinesOf p d.owner)) :
    ∃ declaration ∈ p.declarations, Concerns p registry runtime declaration e := by
  obtain ⟨requirement, hmem, hreports⟩ := exists_reports_of_mem_diagnostics h
  obtain ⟨hrequired, hviolated⟩ := List.mem_filter.1 hmem
  rcases List.mem_append.1 hrequired with hown | hroutine
  · have hown : requirement ∈ d.violated p registry runtime [] :=
      List.mem_filter.2 ⟨List.mem_append_left _ hown, hviolated⟩
    exact ⟨.helper d, helper_mem_declarations hd, .unmet hown hreports⟩
  · obtain ⟨r, hr, rfl⟩ := List.mem_map.1 hroutine
    cases hreports with
    | routine hrefused =>
      exact ⟨.routine r, routine_mem_declarations (List.mem_filter.1 hr).1, .refused hrefused⟩

/-- Every diagnostic of a program is about one of its declarations. -/
theorem exists_concerns (h : e ∈ (ofProgram p registry runtime).diagnostics) :
    ∃ declaration ∈ p.declarations, Concerns p registry runtime declaration e := by
  rcases List.mem_append.1 h with hstray | hhelper
  · obtain ⟨r, hr, rfl⟩ := List.mem_map.1 ((strays_perm p).mem_iff.1 hstray)
    obtain ⟨hmem, hastray⟩ := List.mem_filter.1 hr
    exact ⟨.routine r, routine_mem_declarations hmem, .stray (by simpa using hastray)⟩
  · obtain ⟨es, hes, he⟩ := List.mem_flatten.1 hhelper
    obtain ⟨result, hresult, herror⟩ := List.mem_filterMap.1 hes
    obtain ⟨d, hd, hsettled⟩ := exists_settled_of_mem_outcomes hresult
    cases hsettled with
    | accepted => cases herror
    | rejected wrong =>
      obtain rfl := Option.some.inj herror
      exact exists_concerns_of_mem_diagnostics hd he
    | duplicate generated first hclaim =>
      obtain rfl := Option.some.inj herror
      rw [List.mem_singleton.1 he]
      exact ⟨.helper d, helper_mem_declarations hd, .claimed hclaim⟩

/-! ## Places in source files -/

/-- Every diagnostic of a program is about one of its declarations.  It carries the path and the
text of the file that this declaration was read from, and the span of a node of that file.  When
nodes lie in the texts of their files, what it marks is a stretch of that text, from one character
to another. -/
theorem diagnostics_stand_in_their_file (dir : Path) (sources : List (Path × String × Node))
    (hnodes : ∀ s ∈ sources, ∀ n : Node, n.Within s.2.2 → n.span.LiesIn s.2.1)
    (registry : Registry) (runtime : RuntimeNames) :
    let files := sources.map fun s => Source.ofTree s.1 s.2.1 s.2.2
    let p := Program.ofSources dir files
    ∀ e ∈ (ofProgram p registry runtime).diagnostics,
      ∃ declaration ∈ p.declarations, Concerns p registry runtime declaration e ∧
        ∃ file s, sources[file]? = some s ∧ (p.classAt declaration.owner).file = file ∧
          (∃ c ∈ (Source.ofTree s.1 s.2.1 s.2.2).classes,
            declaration ∈ (Program.ofClasses dir files).declarationsOf declaration.owner file
              (Source.ofTree s.1 s.2.1 s.2.2) c) ∧
          e.place.path = s.1 ∧ e.place.text = s.2.1 ∧ s.2.2.Spans e.place.span ∧
          (⟨e.place.span.start.offset⟩ : String.Pos.Raw).IsValid s.2.1 ∧
          (⟨e.place.span.start.offset + e.place.span.length⟩ : String.Pos.Raw).IsValid s.2.1 ∧
          e.place.span.start.offset + e.place.span.length ≤ s.2.1.utf8ByteSize := by
  intro files p e he
  obtain ⟨declaration, hdeclaration, hconcerns⟩ := exists_concerns he
  obtain ⟨file, f, c, hfile, hc, hdeclared, hclass⟩ :=
    Program.exists_source_of_mem_declarations hdeclaration
  rw [List.getElem?_map] at hfile
  obtain ⟨s, hs, rfl⟩ := Option.map_eq_some_iff.1 hfile
  have hspanned := Source.spanned_of_mem_classes hc
  have hplace : e.place.path = s.1 ∧ e.place.text = s.2.1 ∧ s.2.2.Spans e.place.span := by
    let P : Place → Prop := fun place =>
      place.path = s.1 ∧ place.text = s.2.1 ∧ s.2.2.Spans place.span
    have hP : ∀ span, s.2.2.Spans span → P (placeIn (Source.ofTree s.1 s.2.1 s.2.2) span) :=
      fun span hspan => ⟨rfl, rfl, hspan⟩
    have howner : P (p.classAt declaration.owner).place := by
      rw [hclass]
      exact hP _ hspanned.span
    exact hconcerns.placed (placed_of_mem_declarationsOf hP hspanned hdeclared) howner
  obtain ⟨n, hn, hspan⟩ := hplace.2.2
  have hlies := hnodes s (List.mem_of_getElem? hs) n hn
  rw [hspan] at hlies
  have hstop : e.place.span.start.offset + e.place.span.length = e.place.span.stop.offset :=
    Nat.add_sub_cancel' hlies.ordered
  have hindex : (p.classAt declaration.owner).file = file := by
    rw [hclass]
    rfl
  refine ⟨declaration, hdeclaration, hconcerns, file, s, hs, hindex, ⟨c, hc, hdeclared⟩,
    hplace.1, hplace.2.1, hplace.2.2, hlies.start, ?_⟩
  rw [hstop]
  exact ⟨hlies.stop, hlies.stop.le_rawEndPos⟩

theorem forall_within_leaf {Q : Node → Prop} {role : Role} {kind : Kind} {before : List Char}
    {start : Text.Position} {text : List Char} :
    (∀ n : Node, n.Within (.leaf role kind before start text) → Q n) ↔
      Q (.leaf role kind before start text) := by
  refine ⟨fun h => h _ .self, fun h n hn => ?_⟩
  cases hn
  exact h

theorem forall_within_branch {Q : Node → Prop} {role : Role} {kind : Kind}
    {children : List Node} :
    (∀ n : Node, n.Within (.branch role kind children) → Q n) ↔
      Q (.branch role kind children) ∧ ∀ child ∈ children, ∀ n : Node, n.Within child → Q n := by
  refine ⟨fun h => ⟨h _ .self, fun child hchild n hn => h n (.inside hchild hn)⟩, ?_⟩
  rintro ⟨hself, hchildren⟩ n hn
  cases hn with
  | self => exact hself
  | inside hchild hn => exact hchildren _ hchild n hn

/-- A helper without a usable name in one file, and one without any name in another. -/
theorem diagnostics_stand_in_their_file_two :
    let mark := Schema.token .plain .mark
    let word := Schema.token .plain
    let name : Node := .branch .value .string
      [mark " " 16 "\"", word .fragment "" 17 "é", mark "" 19 "\""]
    let option : Node := .branch .plain .pair
      [Schema.token .key .propertyName " " 10 "name", mark "" 14 ":", name]
    let unusable : Node := .branch .plain .program [.branch .plain .classDeclaration
      [.branch .plain .decorator [mark "" 0 "@", .branch .plain .call
        [Schema.token .function .name "" 1 "Helper", .branch .arguments .arguments
          [mark "" 7 "(", .branch .plain .object [mark "" 8 "\x7b", option, mark " " 21 "\x7d"],
            mark "" 22 ")"]]],
        mark " " 24 "class", Schema.token .name .typeName " " 30 "Db",
        .branch .plain .classBody [mark " " 33 "\x7b", mark "" 34 "\x7d"]]]
    let nameless : Node := .branch .plain .program [.branch .plain .classDeclaration
      [.branch .plain .decorator [mark "" 0 "@", .branch .plain .call
        [Schema.token .function .name "" 1 "Helper", .branch .arguments .arguments
          [mark "" 7 "(", mark "" 8 ")"]]],
        mark " " 10 "class", Schema.token .name .typeName " " 16 "Ü",
        .branch .plain .classBody [mark " " 19 "\x7b", mark "" 20 "\x7d"]]]
    let sources : List (Path × String × Node) :=
      [(⟨"/src/db.ts"⟩, "@Helper(\x7b name: \"é\" \x7d) class Db \x7b\x7d", unusable),
        (⟨"/src/u.ts"⟩, "@Helper() class Ü \x7b\x7d", nameless)]
    let p := Program.ofSources ⟨"/src"⟩ (sources.map fun s => Source.ofTree s.1 s.2.1 s.2.2)
    (∀ s ∈ sources, String.ofList s.2.2.fullText = s.2.1) ∧
      (∀ s ∈ sources, ∀ n : Node, n.Within s.2.2 → n.span.LiesIn s.2.1) ∧
      (ofProgram p (Registry.ofProgram p) {}).diagnostics.map
          (fun e => (e.complaint, e.place.path.text, e.place.span.start.offset,
            e.place.span.length)) =
        [(.invalidHelperName "é", "/src/db.ts", 16, 4),
          (.missingHelperName "Ü", "/src/u.ts", 0, 9)] ∧
      ∀ e ∈ (ofProgram p (Registry.ofProgram p) {}).diagnostics,
        ∃ s ∈ sources, e.place.path = s.1 ∧ e.place.text = s.2.1 ∧
          (⟨e.place.span.start.offset⟩ : String.Pos.Raw).IsValid e.place.text ∧
          (⟨e.place.span.start.offset + e.place.span.length⟩ : String.Pos.Raw).IsValid
            e.place.text := by
  intro mark word name option unusable nameless sources p
  have htexts : ∀ s ∈ sources, String.ofList s.2.2.fullText = s.2.1 := by
    decide +kernel
  have hnodes : ∀ s ∈ sources, ∀ n : Node, n.Within s.2.2 → n.span.LiesIn s.2.1 := by
    simp only [sources, unusable, nameless, option, name, mark, word, Schema.token,
      List.forall_mem_cons, forall_within_branch, forall_within_leaf, List.not_mem_nil,
      false_imp_iff, implies_true, and_true]
    decide +kernel
  refine ⟨htexts, hnodes, by decide +kernel, fun e he => ?_⟩
  obtain ⟨-, -, -, file, s, hs, -, -, hpath, htext, -, hstart, hstop, -⟩ :=
    diagnostics_stand_in_their_file ⟨"/src"⟩ sources hnodes (Registry.ofProgram p) {} e he
  rw [htext]
  exact ⟨s, List.mem_of_getElem? hs, hpath, rfl, hstart, hstop⟩

end Validation

end DaoGen
