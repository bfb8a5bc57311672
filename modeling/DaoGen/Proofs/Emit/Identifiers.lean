import DaoGen.Proofs.Emit.FileNames
set_option autoImplicit false

/-!
# Generated class names as identifiers

A name is accepted when an ASCII letter or digit is left of it, and the generated class names are
made of what is left with an ending of letters behind.  So they hold ASCII letters and digits only,
whatever the declared name holds, and are no reserved words.  What they start with is the first
letter or digit of the declared name: they are identifiers when that is a letter and none when it
is a digit (`Emit.class_names_identifier_iff`), which no check looks at.
-/

namespace DaoGen

/-! ## Identifiers of the generated language -/

/-- The characters that an identifier may start with and go on with, by the tables of Unicode.
Fixed is what the tables say of ASCII characters. -/
structure IdentifierTables where
  starts : Char → Bool
  continues : Char → Bool
  starts_ascii : ∀ c : Char, c.toNat < 128 → starts c = c.isAlpha
  continues_ascii : ∀ c : Char, c.toNat < 128 → continues c = (c.isAlphanum || c = '_')

namespace IdentifierTables

variable (u : IdentifierTables)

/-- Words that no class of a module can be called, `eval` and `arguments` among them. -/
def reservedWords : List String :=
  ["await", "break", "case", "catch", "class", "const", "continue", "debugger", "default",
    "delete", "do", "else", "enum", "export", "extends", "false", "finally", "for", "function",
    "if", "import", "in", "instanceof", "new", "null", "return", "super", "switch", "this",
    "throw", "true", "try", "typeof", "var", "void", "while", "with", "yield", "let", "static",
    "implements", "interface", "package", "private", "protected", "public", "eval", "arguments"]

/-- Characters at the start of an identifier. -/
def isStart (c : Char) : Bool := u.starts c || c = '$' || c = '_'

/-- Characters inside an identifier, the zero width joiner and non-joiner among them. -/
def isPart (c : Char) : Bool :=
  u.continues c || c = '$' || c.toNat = 0x200C || c.toNat = 0x200D

/-- A text that can stand as the name of a class in a module, no character being spelled by its
number. -/
def IsIdentifier (text : String) : Prop :=
  (∃ c rest, text.toList = c :: rest ∧ u.isStart c ∧ ∀ d ∈ rest, u.isPart d) ∧
    text ∉ reservedWords

/-- The tables cut down to ASCII. -/
def ascii : IdentifierTables where
  starts := Char.isAlpha
  continues c := c.isAlphanum || c = '_'
  starts_ascii _ _ := rfl
  continues_ascii _ _ := rfl

end IdentifierTables

/-! ## ASCII letters and digits -/

theorem toNat_lt_of_isAlphanum {c : Char} (h : c.isAlphanum = true) : c.toNat < 128 := by
  delta Char.isAlphanum Char.isAlpha Char.isUpper Char.isLower Char.isDigit at h
  simp only [Bool.or_eq_true, Bool.and_eq_true, decide_eq_true_eq, ge_iff_le,
    UInt32.le_iff_toNat_le] at h
  have hvalue : c.toNat = c.val.toNat := rfl
  have hupper : 'Z'.val.toNat = 90 := rfl
  have hlower : 'z'.val.toNat = 122 := rfl
  have hdigit : '9'.val.toNat = 57 := rfl
  omega

/-- What inspection of the ASCII characters shows holds of every letter and digit. -/
theorem forall_isAlphanum {P : Char → Prop} (h : ∀ n < 128, P (Char.ofNat n)) {c : Char}
    (hc : c.isAlphanum = true) : P c :=
  Char.ofNat_toNat c ▸ h c.toNat (toNat_lt_of_isAlphanum hc)

theorem isAlphanum_toUpper {c : Char} (h : c.isAlphanum = true) : c.toUpper.isAlphanum = true :=
  forall_isAlphanum (P := fun c => c.isAlphanum = true → c.toUpper.isAlphanum = true)
    (by decide) h h

theorem isAlpha_toUpper {c : Char} (h : c.isAlphanum = true) : c.toUpper.isAlpha = c.isAlpha :=
  forall_isAlphanum (P := fun c => c.toUpper.isAlpha = c.isAlpha) (by decide) h

namespace IdentifierTables

variable (u : IdentifierTables)

theorem isPart_of_isAlphanum {c : Char} (h : c.isAlphanum = true) : u.isPart c = true := by
  simp [isPart, u.continues_ascii c (toNat_lt_of_isAlphanum h), h]

/-- A letter or digit starts an identifier exactly when it is a letter. -/
theorem isStart_iff_of_isAlphanum {c : Char} (h : c.isAlphanum = true) :
    u.isStart c = true ↔ c.isAlpha = true := by
  have hdollar : c ≠ '$' := by
    rintro rfl
    cases h
  have hlow : c ≠ '_' := by
    rintro rfl
    cases h
  simp [isStart, u.starts_ascii c (toNat_lt_of_isAlphanum h), hdollar, hlow]

end IdentifierTables

/-! ## Sanitized names -/

namespace Naming

/-- The first character of a name that its sanitized form keeps. -/
def leading? (name : String) : Option Char := name.toList.find? Char.isAlphanum

theorem leading?_eq_none_iff {name : String} : leading? name = none ↔ sanitize name = "" := by
  rw [← String.toList_inj, sanitize, String.toList_ofList, leading?, List.find?_eq_none]
  rw [← List.filter_eq_nil_iff]
  cases name.toList.filter Char.isAlphanum <;> simp [capitalize]

/-- A sanitized name is its leading character in upper case, with letters and digits behind. -/
theorem toList_sanitize {name : String} {c : Char} (h : leading? name = some c) :
    c.isAlphanum = true ∧ ∃ rest, (sanitize name).toList = c.toUpper :: rest ∧
      ∀ d ∈ rest, d.isAlphanum = true := by
  obtain ⟨hc, before, after, hname, hbefore⟩ := List.find?_eq_some_iff_append.1 h
  have hdropped : before.filter Char.isAlphanum = [] := by
    rw [List.filter_eq_nil_iff]
    intro d hd
    simpa using hbefore d hd
  refine ⟨hc, after.filter Char.isAlphanum, ?_, fun d hd => (List.mem_filter.1 hd).2⟩
  rw [sanitize, String.toList_ofList, hname, List.filter_append, hdropped, List.nil_append,
    List.filter_cons_of_pos hc, capitalize]

end Naming

/-! ## Class names -/

namespace IdentifierTables

variable (u : IdentifierTables)

/-- No reserved word is as long as the ending of a generated name. -/
theorem length_of_mem_reservedWords {text : String} (h : text ∈ reservedWords) :
    text.length ≤ 10 := by
  revert text
  decide

/-- A name with a long ending of letters is an identifier exactly when its leading character is
a letter. -/
theorem isIdentifier_sanitize_append_iff {name ending : String} {c : Char}
    (hleading : Naming.leading? name = some c) (hlong : 10 ≤ ending.length)
    (hletters : ending.toList.all Char.isAlphanum = true) :
    u.IsIdentifier (Naming.sanitize name ++ ending) ↔ c.isAlpha = true := by
  obtain ⟨hc, rest, hname, hrest⟩ := Naming.toList_sanitize hleading
  have htext : (Naming.sanitize name ++ ending).toList =
      c.toUpper :: (rest ++ ending.toList) := by
    rw [String.toList_append, hname, List.cons_append]
  have hfree : Naming.sanitize name ++ ending ∉ reservedWords := by
    intro hmem
    have hshort := length_of_mem_reservedWords hmem
    rw [← String.length_toList, htext, List.length_cons, List.length_append,
      String.length_toList] at hshort
    omega
  have hparts : ∀ d ∈ rest ++ ending.toList, u.isPart d = true := by
    intro d hd
    rcases List.mem_append.1 hd with hd | hd
    · exact u.isPart_of_isAlphanum (hrest d hd)
    · exact u.isPart_of_isAlphanum (List.all_eq_true.1 hletters d hd)
  rw [← isAlpha_toUpper hc, ← u.isStart_iff_of_isAlphanum (isAlphanum_toUpper hc)]
  constructor
  · rintro ⟨⟨first, others, heq, hstart, -⟩, -⟩
    rw [htext] at heq
    rw [(List.cons.inj heq).1]
    exact hstart
  · intro hstart
    exact ⟨⟨c.toUpper, rest ++ ending.toList, htext, hstart, hparts⟩, hfree⟩

theorem isIdentifier_helperClass_iff {name : String} {c : Char}
    (h : Naming.leading? name = some c) :
    u.IsIdentifier (Naming.helperClass name) ↔ c.isAlpha = true :=
  u.isIdentifier_sanitize_append_iff h (by decide) (by decide)

theorem isIdentifier_configClass_iff {name : String} {c : Char}
    (h : Naming.leading? name = some c) :
    u.IsIdentifier (Naming.configClass name) ↔ c.isAlpha = true :=
  u.isIdentifier_sanitize_append_iff h (by decide) (by decide)

end IdentifierTables

/-! ## Accepted names -/

namespace HelperDeclaration

/-- An accepted name is left with a letter or digit, which its sanitized form starts with. -/
theorem exists_leading_of_acceptName {p : Program} {d : HelperDeclaration} {name : String}
    (h : d.acceptName p = .ok name) : ∃ c, Naming.leading? name = some c := by
  rw [acceptName_def] at h
  split at h
  · cases h
  · split at h
    · cases h
    · next hkept =>
      obtain rfl := Except.ok.inj h
      exact Option.ne_none_iff_exists'.1 fun hnone => hkept (Naming.leading?_eq_none_iff.1 hnone)

end HelperDeclaration

namespace Validation

/-- Each helper has the name that one of the declarations was accepted with. -/
theorem exists_acceptName_of_mem_helpers {p : Program} {registry : Schema.Registry}
    {runtime : RuntimeNames} {h : Helper} (hh : h ∈ (ofProgram p registry runtime).helpers) :
    ∃ d ∈ p.helpers, d.acceptName p = .ok h.name := by
  have hmade := HelperDeclaration.mem_values.1 ((mem_sortBy helperLe).1 hh)
  obtain ⟨d, hd, hresult⟩ := exists_declaration_of_mem_outcomes hmade
  obtain ⟨name, version, hname, -, rfl⟩ := HelperDeclaration.exists_of_result_accept hresult
  exact ⟨d, hd, hname⟩

end Validation

/-! ## Generated classes -/

namespace Emit

/-- A generated class has one of the two names that are made of its helper's. -/
theorem className_of_mem_filesOf {runtime : RuntimeNames} {outDir : Path} {h : Helper}
    {f : GeneratedFile} (hf : f ∈ filesOf runtime outDir h) :
    f.helper = h.name ∧ (f.className = h.className ∨ f.className = h.configName) := by
  refine ⟨?_, mem_classNamesOf ?_⟩
  · obtain ⟨m, -, rfl⟩ := List.mem_map.1 hf
    rfl
  · rw [← @map_className_filesOf runtime outDir]
    exact List.mem_map_of_mem hf

/-- In every accepted name a letter or digit is left to lead the generated names.  Both class names
that are made of it are identifiers exactly when that is a letter, and so are the classes that the
files of a pass export. -/
theorem class_names_identifier_iff (u : IdentifierTables) (p : Program)
    (registry : Schema.Registry) (runtime : RuntimeNames) (outDir : Path) :
    (∀ (d : HelperDeclaration) (name : String), d.acceptName p = .ok name →
      ∃ c, Naming.leading? name = some c ∧
        (u.IsIdentifier (Naming.helperClass name) ↔ c.isAlpha = true) ∧
        (u.IsIdentifier (Naming.configClass name) ↔ c.isAlpha = true)) ∧
    ∀ f ∈ generate runtime outDir (Validation.ofProgram p registry runtime).helpers,
      ∃ c, Naming.leading? f.helper = some c ∧
        (u.IsIdentifier f.className ↔ c.isAlpha = true) ∧ Exports f.content f.className := by
  refine ⟨fun d name hname => ?_, fun f hf => ?_⟩
  · obtain ⟨c, hc⟩ := HelperDeclaration.exists_leading_of_acceptName hname
    exact ⟨c, hc, u.isIdentifier_helperClass_iff hc, u.isIdentifier_configClass_iff hc⟩
  · obtain ⟨h, hh, hfile⟩ := List.mem_flatMap.1 hf
    obtain ⟨hhelper, hclass⟩ := className_of_mem_filesOf hfile
    obtain ⟨d, -, hname⟩ := Validation.exists_acceptName_of_mem_helpers hh
    obtain ⟨c, hc⟩ := HelperDeclaration.exists_leading_of_acceptName hname
    obtain ⟨m, -, rfl⟩ := List.mem_map.1 hfile
    refine ⟨c, hhelper ▸ hc, ?_, exports_render m⟩
    rcases hclass with hclass | hclass
    · rw [hclass]
      exact u.isIdentifier_helperClass_iff hc
    · rw [hclass]
      exact u.isIdentifier_configClass_iff hc

/-- A database whose name starts with no letter: what leads its sanitized name is the letter behind
the dash. -/
theorem class_names_identifier_iff_dashed :
    let options : Source.Expr :=
      .object default [("name", .string default "-my db"), ("withConfigUtil", .boolean default true)]
    let p := Program.ofSources ⟨"/src"⟩
      [⟨⟨"/src/db.ts"⟩, "", [],
        [⟨"Db", none, [⟨"Helper", none, [options], default⟩], [], [], false, true, default⟩], []⟩]
    let files := generate {} ⟨"/out"⟩
      (Validation.ofProgram p (Schema.Registry.ofProgram p) {}).helpers
    files.map (·.className) = ["MydbDatabaseHelper", "MydbDatabaseConfigUtil"] ∧
      ∀ f ∈ files, IdentifierTables.ascii.IsIdentifier f.className := by
  intro options p files
  have hnames : ∀ f ∈ files, f.helper = "-my db" := by decide +kernel
  refine ⟨by decide +kernel, fun f hf => ?_⟩
  obtain ⟨c, hc, hiff, -⟩ :=
    (class_names_identifier_iff .ascii p (Schema.Registry.ofProgram p) {} ⟨"/out"⟩).2 f hf
  rw [hnames f hf, show Naming.leading? "-my db" = some 'm' by decide] at hc
  obtain rfl := Option.some.inj hc
  exact hiff.2 (by decide)

/-- A helper named after its database `2nd-db` passes every check and makes two classes that are
no identifiers. -/
theorem leading_digit_passes :
    let options : Source.Expr :=
      .object default [("name", .string default "2nd-db"), ("withConfigUtil", .boolean default true)]
    let p := Program.ofSources ⟨"/src"⟩
      [⟨⟨"/src/db.ts"⟩, "", [],
        [⟨"Db", none, [⟨"Helper", none, [options], default⟩], [], [], false, true, default⟩], []⟩]
    let checked := Validation.ofProgram p (Schema.Registry.ofProgram p) {}
    checked.diagnostics = [] ∧
      (generate {} ⟨"/out"⟩ checked.helpers).map (fun f => (f.helper, f.className)) =
        [("2nd-db", "2nddbDatabaseHelper"), ("2nd-db", "2nddbDatabaseConfigUtil")] ∧
      ∀ u : IdentifierTables,
        ¬ u.IsIdentifier "2nddbDatabaseHelper" ∧ ¬ u.IsIdentifier "2nddbDatabaseConfigUtil" := by
  intro options p checked
  have hleading : Naming.leading? "2nd-db" = some '2' := by decide
  refine ⟨?_, by decide +kernel, fun u => ⟨fun h => ?_, fun h => ?_⟩⟩
  · exact List.eq_nil_of_length_eq_zero (by decide +kernel)
  · exact absurd ((u.isIdentifier_helperClass_iff hleading).1 h) (by decide)
  · exact absurd ((u.isIdentifier_configClass_iff hleading).1 h) (by decide)

end Emit

end DaoGen
