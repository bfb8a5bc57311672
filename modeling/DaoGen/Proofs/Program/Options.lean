import DaoGen.Program.OfSources
import DaoGen.Source.Reading
import Mathlib.Data.List.DropRight
import Mathlib.Data.List.Induction
set_option autoImplicit false

/-!
# Options of declarations

The options of a helper and of an upgrade routine are the members of an object literal.  A child
of the literal with a key and a value is read (`Syntax.Node.HasKey`): it is stored in the field
that it names or leaves an issue, and only a later option of the same field takes its value away
again.  Every other child is passed over (`options_accounted_or_passed_over`).  Besides marks and
comments these are spreads, methods and accessors, and pairs whose key is empty.
-/

namespace DaoGen

open DaoGen.Source (Expr SourceFile Decorator Method formOf roleForm properties trimmedKey)
open DaoGen.Syntax (Node Kind Role)

/-! ## Members of an object literal -/

namespace Syntax.Node

/-- Whether a character is a quote around a key. -/
def isQuote (c : Char) : Bool := c = '"' || c = '\''

/-- Whether a child of an object literal has a key and a value: a shorthand has both in one, and
a pair has them when its key is more than quotes. -/
def HasKey : Node → Prop
  | leaf _ kind .. => kind = .shorthand
  | branch _ kind children =>
    kind = .pair ∧
      (∃ key, children.find? (·.role = .key) = some key ∧ ∃ c ∈ key.text, isQuote c = false) ∧
      ∃ value ∈ children, value.role = .value

end Syntax.Node

namespace Source

open DaoGen.Syntax.Node (isQuote)

/-- The key and the value of a child of an object literal. -/
def memberOf? : Node → Option (String × Expr)
  | .leaf role .shorthand before start text =>
    some (String.ofList text,
      .name (Node.leaf role .shorthand before start text).span (String.ofList text))
  | .branch _ .pair children =>
    match (children.find? (·.role = .key)).map (trimmedKey ·.text), roleForm .value children with
    | some (c :: key), some value => some (String.ofList (c :: key), value)
    | _, _ => none
  | _ => none

theorem properties_cons (n : Node) (rest : List Node) :
    properties (n :: rest) = (memberOf? n).toList ++ properties rest := by
  fun_cases memberOf? n with
  | case1 => rfl
  | case2 role children c key value hvalue hkey =>
    simp only [properties, hkey, hvalue]
    rfl
  | case3 role children hnone =>
    rw [properties]
    split
    · exact absurd ‹_› (hnone _ _ _ ‹_›)
    · rfl
  | case4 n hleaf hbranch =>
    rw [properties]
    · rfl
    · exact hleaf
    · exact hbranch

/-- The options of an object literal are made by its children one by one. -/
theorem properties_eq_filterMap (nodes : List Node) :
    properties nodes = nodes.filterMap memberOf? := by
  induction nodes with
  | nil => rfl
  | cons n rest ih => 
    rw [properties_cons, ih, List.filterMap_cons]
    cases memberOf? n <;> rfl

/-- Nothing is left of a key that is only quotes. -/
theorem trimmedKey_eq_nil_iff (text : List Char) :
    trimmedKey text = [] ↔ ∀ c ∈ text, isQuote c = true := by
  have htrimmed : trimmedKey text = (text.dropWhile isQuote).rdropWhile isQuote := rfl
  rw [htrimmed, List.rdropWhile_eq_nil_iff, ← List.dropWhile_eq_nil_iff,
    List.dropWhile_idempotent, List.dropWhile_eq_nil_iff]

theorem trimmedKey_ne_nil_iff (text : List Char) :
    trimmedKey text ≠ [] ↔ ∃ c ∈ text, isQuote c = false := by
  rw [ne_eq, trimmedKey_eq_nil_iff]
  simp

theorem roleForm_eq_map_find? (role : Role) (nodes : List Node) :
    roleForm role nodes = (nodes.find? (·.role = role)).map formOf := by
  induction nodes with
  | nil => rfl
  | cons n rest ih =>
    rw [roleForm, List.find?_cons]
    split
    · simp_all
    · simp_all

theorem isSome_roleForm_iff (role : Role) (nodes : List Node) :
    (roleForm role nodes).isSome ↔ ∃ n ∈ nodes, n.role = role := by
  rw [roleForm_eq_map_find?, Option.isSome_map, List.find?_isSome]
  simp

/-- The children of an object literal that make an option are those with a key. -/
theorem isSome_memberOf?_iff (n : Node) : (memberOf? n).isSome ↔ n.HasKey := by
  fun_cases memberOf? n with
  | case1 => simp [Node.HasKey]
  | case2 role children c key value hvalue hkey =>
    obtain ⟨node, hnode, htrimmed⟩ := Option.map_eq_some_iff.1 hkey
    have hquote := (trimmedKey_ne_nil_iff node.text).1 (by simp [htrimmed])
    have hpresent := (isSome_roleForm_iff .value children).1 (by simp [hvalue])
    exact iff_of_true rfl ⟨rfl, ⟨node, hnode, hquote⟩, hpresent⟩
  | case3 role children hnone =>
    refine iff_of_false (by simp) ?_
    rintro ⟨-, ⟨node, hnode, hquote⟩, hpresent⟩
    have hkey := (trimmedKey_ne_nil_iff node.text).2 hquote
    obtain ⟨c, key, htrimmed⟩ := List.exists_cons_of_ne_nil hkey
    obtain ⟨value, hvalue⟩ := Option.isSome_iff_exists.1 ((isSome_roleForm_iff _ _).2 hpresent)
    exact hnone c key value (by simp [hnode, htrimmed]) hvalue
  | case4 n hleaf hbranch =>
    apply iff_of_false (by simp)
    intro hkey
    cases n with
    | leaf role kind before start text =>
      obtain rfl : kind = .shorthand := hkey
      exact hleaf _ _ _ _ rfl
    | branch role kind children =>
      obtain ⟨rfl, -, -⟩ := hkey
      exact hbranch _ _ rfl

end Source

/-! ## Reading options one by one -/

/-- How a declaration is read off its options.  Taking one option in stores it and changes
nothing but its field, or leaves an issue with it and changes no field. -/
structure OptionReader (S : Type) where
  step : S → String × Expr → S
  /-- the field that a key names -/
  field : String → String
  /-- there is an issue with an option -/
  Complains : S → String × Expr → Prop
  /-- the value of an option is in its field -/
  Holds : S → String × Expr → Prop
  /-- nothing differs but some fields, and no issue is gone -/
  Keeps : List String → S → S → Prop
  step_spec : ∀ s m, Holds (step s m) m ∧ Keeps [field m.1] s (step s m) ∨
    Complains (step s m) m ∧ Keeps [] s (step s m)
  complains_keep : ∀ s t fields m, Complains s m → Keeps fields s t → Complains t m
  holds_keep : ∀ s t fields m, Holds s m → Keeps fields s t → field m.1 ∉ fields → Holds t m

namespace OptionReader

variable {S : Type} (r : OptionReader S)

/-- A declaration accounts for an option that some others follow: it complains about the option,
or it holds its value or that of a later option of the same field. -/
def Accounts (s : S) (m : String × Expr) (later : List (String × Expr)) : Prop :=
  r.Complains s m ∨ ∃ l ∈ m :: later, r.field l.1 = r.field m.1 ∧ r.Holds s l

theorem Accounts.step {s : S} {m : String × Expr} {later : List (String × Expr)}
    (h : r.Accounts s m later) (l : String × Expr) :
    r.Accounts (r.step s l) m (later ++ [l]) := by
  have hspec := r.step_spec s l
  rcases h with hcomplains | ⟨held, hmem, hfield, hholds⟩
  · refine .inl ?_
    rcases hspec with ⟨-, hkeeps⟩ | ⟨-, hkeeps⟩
    · exact r.complains_keep s _ _ m hcomplains hkeeps
    · exact r.complains_keep s _ _ m hcomplains hkeeps
  · have hmem' : held ∈ m :: (later ++ [l]) := List.mem_append_left [l] hmem
    rcases hspec with ⟨hstored, hkeeps⟩ | ⟨-, hkeeps⟩
    · by_cases hsame : r.field held.1 = r.field l.1
      · refine .inr ⟨l, ?_, hsame.symm.trans hfield, hstored⟩
        exact List.mem_append_right (m :: later) (List.mem_singleton_self l)
      · have hother : r.field held.1 ∉ [r.field l.1] := by simpa using hsame
        exact .inr ⟨held, hmem', hfield, r.holds_keep s _ _ held hholds hkeeps hother⟩
    · have hnone : r.field held.1 ∉ [] := List.not_mem_nil
      exact .inr ⟨held, hmem', hfield, r.holds_keep s _ _ held hholds hkeeps hnone⟩

/-- Reading on keeps an option accounted for. -/
theorem accounts_foldl (s : S) (m : String × Expr) (later : List (String × Expr)) :
    r.Accounts ((m :: later).foldl r.step s) m later := by
  induction later using List.reverseRecOn with
  | nil =>
    rcases r.step_spec s m with ⟨hholds, -⟩ | ⟨hcomplains, -⟩
    · exact .inr ⟨m, List.mem_singleton_self m, rfl, hholds⟩
    · exact .inl hcomplains
  | append_singleton later l ih =>
    rw [← List.cons_append, List.foldl_append]
    exact ih.step r l

end OptionReader

/-! ## Options of a helper -/

namespace HelperDeclaration

section

variable (p : Program) (file : FileId) (f : SourceFile)

/-- An entry of a list of tables is in the declaration, or the declaration has an issue with
it. -/
def Lists (d : HelperDeclaration) (e : Expr) : Prop :=
  (∃ written, dottedName e = some written ∧
    ⟨written, p.resolveClass file written, placeIn f e.span⟩ ∈ d.tables) ∨
    issueAt f .helper "tables" "a table class reference" e ∈ d.issues

/-- The value of an option is in the field that its key names. -/
inductive Holds (d : HelperDeclaration) : String × Expr → Prop where
  | name (span : Text.Span) (text : String)
    (held : d.name = some (locatedAt f (.string span text) text)) :
    Holds d ("name", .string span text)
  | version (value : Expr) (version : Int) (meant : integerValue p file value = some version)
    (held : d.version = some (locatedAt f value version)) :
    Holds d ("version", value)
  | tables (span : Text.Span) (elements : List Expr)
    (held : ∀ e ∈ elements, Lists p file f d e) :
    Holds d ("tables", .array span elements)
  | dropOnUpgrade (span : Text.Span) (flag : Bool) (held : d.drops = flag) :
    Holds d ("dropOnUpgrade", .boolean span flag)
  | withConfigUtil (span : Text.Span) (flag : Bool) (held : d.writesConfig = flag) :
    Holds d ("withConfigUtil", .boolean span flag)

/-- The declaration has an issue with an option. -/
def Complains (d : HelperDeclaration) (m : String × Expr) : Prop :=
  ∃ expected, issueAt f .helper m.1 expected m.2 ∈ d.issues

end

/-- A declaration that differs from another in the fields of some keys only, and has all tables
and issues that the other has. -/
structure Keeps (keys : List String) (d d' : HelperDeclaration) : Prop where
  name : "name" ∉ keys → d'.name = d.name
  version : "version" ∉ keys → d'.version = d.version
  drops : "dropOnUpgrade" ∉ keys → d'.drops = d.drops
  writesConfig : "withConfigUtil" ∉ keys → d'.writesConfig = d.writesConfig
  tables : d.tables ⊆ d'.tables
  issues : d.issues ⊆ d'.issues

variable {p : Program} {file : FileId} {f : SourceFile} {d d' d'' : HelperDeclaration}
  {keys : List String}

theorem Keeps.refl (d : HelperDeclaration) : Keeps keys d d :=
  ⟨fun _ => rfl, fun _ => rfl, fun _ => rfl, fun _ => rfl, List.Subset.refl _, List.Subset.refl _⟩

theorem Keeps.trans (h : Keeps keys d d') (h' : Keeps keys d' d'') : Keeps keys d d'' :=
  ⟨fun hk => (h'.name hk).trans (h.name hk), fun hk => (h'.version hk).trans (h.version hk),
    fun hk => (h'.drops hk).trans (h.drops hk),
    fun hk => (h'.writesConfig hk).trans (h.writesConfig hk),
    List.Subset.trans h.tables h'.tables, List.Subset.trans h.issues h'.issues⟩

theorem keeps_addIssue (d : HelperDeclaration) (issue : ArgumentIssue) :
    Keeps keys d (d.addIssue issue) :=
  { Keeps.refl d with issues := List.subset_append_left _ _ }

theorem keeps_addTable (d : HelperDeclaration) (e : Expr) :
    Keeps keys d (d.addTable p file f e) := by
  unfold addTable
  split
  · exact { Keeps.refl d with tables := List.subset_append_left _ _ }
  · exact keeps_addIssue d _

theorem keeps_foldl_addTable (d : HelperDeclaration) (elements : List Expr) :
    Keeps keys d (elements.foldl (addTable p file f) d) := by
  induction elements generalizing d with
  | nil => exact .refl d
  | cons e rest ih => exact (keeps_addTable d e).trans (ih _)

theorem Lists.keep {e : Expr} (h : Lists p file f d e) (hkeeps : Keeps keys d d') :
    Lists p file f d' e := by
  rcases h with ⟨written, hwritten, hmem⟩ | hissue
  · exact .inl ⟨written, hwritten, hkeeps.tables hmem⟩
  · exact .inr (hkeeps.issues hissue)

theorem Complains.keep {m : String × Expr} (h : Complains f d m) (hkeeps : Keeps keys d d') :
    Complains f d' m := by
  obtain ⟨expected, hissue⟩ := h
  exact ⟨expected, hkeeps.issues hissue⟩

/-- What an option says stays where it is while only fields of other keys change. -/
theorem Holds.keep {m : String × Expr} (h : Holds p file f d m) (hkeeps : Keeps keys d d')
    (hkey : m.1 ∉ keys) : Holds p file f d' m := by
  cases h with
  | name span text held => exact .name span text ((hkeeps.name hkey).trans held)
  | version value version meant held =>
    exact .version value version meant ((hkeeps.version hkey).trans held)
  | tables span elements held => exact .tables span elements fun e he => (held e he).keep hkeeps
  | dropOnUpgrade span flag held => exact .dropOnUpgrade span flag ((hkeeps.drops hkey).trans held)
  | withConfigUtil span flag held =>
    exact .withConfigUtil span flag ((hkeeps.writesConfig hkey).trans held)

theorem lists_addTable (d : HelperDeclaration) (e : Expr) :
    Lists p file f (d.addTable p file f e) e := by
  unfold addTable
  split
  · rename_i written hwritten
    refine .inl ⟨written, hwritten, ?_⟩
    exact List.mem_append_right d.tables (List.mem_singleton_self _)
  · exact .inr (List.mem_append_right d.issues (List.mem_singleton_self _))

theorem lists_foldl_addTable (d : HelperDeclaration) (elements : List Expr) :
    ∀ e ∈ elements, Lists p file f (elements.foldl (addTable p file f) d) e := by
  induction elements generalizing d with
  | nil =>
    intro e he
    cases he
  | cons e rest ih =>
    intro e' he'
    rcases List.mem_cons.1 he' with rfl | he'
    · have hkeeps : Keeps [] (d.addTable p file f e')
          (rest.foldl (addTable p file f) (d.addTable p file f e')) := keeps_foldl_addTable _ rest
      exact (lists_addTable d e').keep hkeeps
    · exact ih _ e' he'

/-- What taking one option in can do: the option is stored and nothing but its field changes, or
there is an issue with it and no field changes. -/
theorem addOption_spec (d : HelperDeclaration) (m : String × Expr) :
    Holds p file f (d.addOption p file f m) m ∧ Keeps [m.1] d (d.addOption p file f m) ∨
      Complains f (d.addOption p file f m) m ∧ Keeps [] d (d.addOption p file f m) := by
  obtain ⟨key, value⟩ := m
  have hrefused : ∀ expected,
      Complains f (d.addIssue (issueAt f .helper key expected value)) (key, value) ∧
        Keeps [] d (d.addIssue (issueAt f .helper key expected value)) := by
    intro expected
    refine ⟨⟨expected, ?_⟩, keeps_addIssue d _⟩
    exact List.mem_append_right d.issues (List.mem_singleton_self _)
  unfold addOption
  dsimp only
  split
  · split
    · exact .inl ⟨.name _ _ rfl, { Keeps.refl d with name := fun h => absurd (by simp) h }⟩
    · exact .inr (hrefused _)
  · split
    · exact .inl ⟨.version _ _ ‹_› rfl,
        { Keeps.refl d with version := fun h => absurd (by simp) h }⟩
    · exact .inr (hrefused _)
  · split
    · exact .inl ⟨.tables _ _ (lists_foldl_addTable d _), keeps_foldl_addTable d _⟩
    · exact .inr (hrefused _)
  · split
    · exact .inl ⟨.dropOnUpgrade _ _ rfl,
        { Keeps.refl d with drops := fun h => absurd (by simp) h }⟩
    · exact .inr (hrefused _)
  · split
    · exact .inl ⟨.withConfigUtil _ _ rfl,
        { Keeps.refl d with writesConfig := fun h => absurd (by simp) h }⟩
    · exact .inr (hrefused _)
  · exact .inr (hrefused _)

/-- How a helper is read off its options: each key names a field of its own. -/
def reader (p : Program) (file : FileId) (f : SourceFile) : OptionReader HelperDeclaration where
  step := addOption p file f
  field := id
  Complains := Complains f
  Holds := Holds p file f
  Keeps := Keeps
  step_spec := addOption_spec
  complains_keep _ _ _ _ := Complains.keep
  holds_keep _ _ _ _ := Holds.keep

end HelperDeclaration

/-! ## Options of an upgrade routine -/

namespace RoutineDeclaration

/-- The field that a key names; each field has two keys. -/
def fieldOf (key : String) : String :=
  if key = "from" then "fromVersion" else if key = "to" then "toVersion" else key

section

variable (p : Program) (file : FileId) (f : SourceFile)

/-- The value of an option is in the field that its key names. -/
inductive Holds (r : RoutineDeclaration) : String × Expr → Prop where
  | fromVersion (key : String) (value : Expr) (version : Int)
    (names : fieldOf key = "fromVersion") (meant : integerValue p file value = some version)
    (held : r.fromVersion = some (locatedAt f value version)) :
    Holds r (key, value)
  | toVersion (key : String) (value : Expr) (version : Int)
    (names : fieldOf key = "toVersion") (meant : integerValue p file value = some version)
    (held : r.toVersion = some (locatedAt f value version)) :
    Holds r (key, value)

/-- The declaration has an issue with an option. -/
def Complains (r : RoutineDeclaration) (m : String × Expr) : Prop :=
  ∃ expected, issueAt f .upgrade m.1 expected m.2 ∈ r.issues

end

/-- A declaration that differs from another in some fields only, and has all issues that the
other has. -/
structure Keeps (fields : List String) (r r' : RoutineDeclaration) : Prop where
  fromVersion : "fromVersion" ∉ fields → r'.fromVersion = r.fromVersion
  toVersion : "toVersion" ∉ fields → r'.toVersion = r.toVersion
  issues : r.issues ⊆ r'.issues

variable {p : Program} {file : FileId} {f : SourceFile} {r r' : RoutineDeclaration}
  {fields : List String}

theorem Keeps.refl (r : RoutineDeclaration) : Keeps fields r r :=
  ⟨fun _ => rfl, fun _ => rfl, List.Subset.refl _⟩

theorem keeps_addIssue (r : RoutineDeclaration) (issue : ArgumentIssue) :
    Keeps fields r (r.addIssue issue) :=
  { Keeps.refl r with issues := List.subset_append_left _ _ }

theorem Complains.keep {m : String × Expr} (h : Complains f r m) (hkeeps : Keeps fields r r') :
    Complains f r' m := by
  obtain ⟨expected, hissue⟩ := h
  exact ⟨expected, hkeeps.issues hissue⟩

/-- What an option says stays where it is while only other fields change. -/
theorem Holds.keep {m : String × Expr} (h : Holds p file f r m) (hkeeps : Keeps fields r r')
    (hfield : fieldOf m.1 ∉ fields) : Holds p file f r' m := by
  cases h with
  | fromVersion key value version names meant held =>
    rw [names] at hfield
    exact .fromVersion key value version names meant ((hkeeps.fromVersion hfield).trans held)
  | toVersion key value version names meant held =>
    rw [names] at hfield
    exact .toVersion key value version names meant ((hkeeps.toVersion hfield).trans held)

/-- What taking one option in can do: the option is stored and nothing but its field changes, or
there is an issue with it and no field changes. -/
theorem addOption_spec (r : RoutineDeclaration) (m : String × Expr) :
    Holds p file f (r.addOption p file f m) m ∧ Keeps [fieldOf m.1] r (r.addOption p file f m) ∨
      Complains f (r.addOption p file f m) m ∧ Keeps [] r (r.addOption p file f m) := by
  obtain ⟨key, value⟩ := m
  have hrefused : ∀ expected,
      Complains f (r.addIssue (issueAt f .upgrade key expected value)) (key, value) ∧
        Keeps [] r (r.addIssue (issueAt f .upgrade key expected value)) := by
    intro expected
    refine ⟨⟨expected, ?_⟩, keeps_addIssue r _⟩
    exact List.mem_append_right r.issues (List.mem_singleton_self _)
  unfold addOption
  dsimp only
  split
  · rename_i hkey
    split
    · rename_i version hversion
      left
      split
      · rename_i hfrom
        have hfield : fieldOf key = "fromVersion" := by
          rcases (by simpa using hfrom : key = "fromVersion" ∨ key = "from") with rfl | rfl
          · rfl
          · rfl
        refine ⟨.fromVersion key value version hfield hversion rfl, ?_⟩
        exact { Keeps.refl r with fromVersion := fun h => absurd (by simp [hfield]) h }
      · rename_i hfrom
        have hfield : fieldOf key = "toVersion" := by
          rw [Bool.or_eq_true, or_iff_right hfrom] at hkey
          rcases (by simpa using hkey : key = "toVersion" ∨ key = "to") with rfl | rfl
          · rfl
          · rfl
        refine ⟨.toVersion key value version hfield hversion rfl, ?_⟩
        exact { Keeps.refl r with toVersion := fun h => absurd (by simp [hfield]) h }
    · exact .inr (hrefused _)
  · exact .inr (hrefused _)

/-- How an upgrade routine is read off its options. -/
def reader (p : Program) (file : FileId) (f : SourceFile) : OptionReader RoutineDeclaration where
  step := addOption p file f
  field := fieldOf
  Complains := Complains f
  Holds := Holds p file f
  Keeps := Keeps
  step_spec := addOption_spec
  complains_keep _ _ _ _ := Complains.keep
  holds_keep _ _ _ _ := Holds.keep

end RoutineDeclaration

/-! ## Object literals as options -/

section

variable (p : Program) (file : FileId) (f : SourceFile) (owner : ClassId)

/-- A decorator with an object literal of some children as its first argument. -/
def withOptions (name : String) (qualifier : Option String) (rest : List Expr) (span : Text.Span)
    (role : Role) (children : List Node) : Decorator :=
  ⟨name, qualifier, formOf (.branch role .object children) :: rest, span⟩

theorem optionMembers_withOptions (marker : Marker) (name : String) (qualifier : Option String)
    (rest : List Expr) (span : Text.Span) (role : Role) (children : List Node) :
    optionMembers f marker (withOptions name qualifier rest span role children) =
      .ok (children.filterMap Source.memberOf?) := by
  rw [← Source.properties_eq_filterMap]
  unfold optionMembers withOptions formOf
  rfl

/-- Every child of the object literal that a helper or an upgrade routine is declared with is
accounted for when it has a key, and passed over in silence when it has none. -/
theorem options_accounted_or_passed_over (method : Method) (name : String)
    (qualifier : Option String) (rest : List Expr) (span : Text.Span) (role : Role)
    (before after : List Node) (n : Node) :
    let helper (children : List Node) := HelperDeclaration.ofDecorator p file f owner
      (withOptions name qualifier rest span role children)
    let routine (children : List Node) := RoutineDeclaration.ofDecorator p file f owner method
      (withOptions name qualifier rest span role children)
    let later := after.filterMap Source.memberOf?
    (n.HasKey ∧ ∃ m, Source.memberOf? n = some m ∧
      (HelperDeclaration.reader p file f).Accounts (helper (before ++ n :: after)) m later ∧
      (RoutineDeclaration.reader p file f).Accounts (routine (before ++ n :: after)) m later) ∨
    (¬ n.HasKey ∧ helper (before ++ n :: after) = helper (before ++ after) ∧
      routine (before ++ n :: after) = routine (before ++ after)) := by
  intro helper routine later
  have hread := fun marker => optionMembers_withOptions f marker name qualifier rest span role
  cases hmember : Source.memberOf? n with
  | some m =>
    have hkey : n.HasKey := (Source.isSome_memberOf?_iff n).1 (by rw [hmember]; rfl)
    have hsplit : (before ++ n :: after).filterMap Source.memberOf? =
        before.filterMap Source.memberOf? ++ m :: later := by
      rw [List.filterMap_append, List.filterMap_cons_some hmember]
    refine .inl ⟨hkey, m, rfl, ?_, ?_⟩
    · simp only [helper, HelperDeclaration.ofDecorator, hread, hsplit, List.foldl_append]
      exact (HelperDeclaration.reader p file f).accounts_foldl _ m later
    · simp only [routine, RoutineDeclaration.ofDecorator, hread, hsplit, List.foldl_append]
      exact (RoutineDeclaration.reader p file f).accounts_foldl _ m later
  | none =>
    have hkey : ¬ n.HasKey := by
      rw [← Source.isSome_memberOf?_iff, hmember]
      exact Bool.false_ne_true
    have hdropped : (before ++ n :: after).filterMap Source.memberOf? =
        (before ++ after).filterMap Source.memberOf? := by
      rw [List.filterMap_append, List.filterMap_append, List.filterMap_cons_none hmember]
    refine .inr ⟨hkey, ?_, ?_⟩
    · simp only [helper, HelperDeclaration.ofDecorator, hread, hdropped]
      rfl
    · simp only [routine, RoutineDeclaration.ofDecorator, hread, hdropped]
      rfl

end

/-- A method among the options of a helper neither sets its version nor leaves an issue. -/
theorem method_option_passed_over :
    let leaf (role : Role) (kind : Kind) (before : String) (column : Nat) (text : String) : Node :=
      .leaf role kind before.toList ⟨0, column, column⟩ text.toList
    let mark (before : String) (column : Nat) (text : String) : Node :=
      leaf .plain .mark before column text
    let name : Node := .branch .plain .pair
      [leaf .key .propertyName " " 10 "name", mark "" 14 ":",
        .branch .value .string
          [mark " " 16 "\"", leaf .plain .fragment "" 17 "notes", mark "" 22 "\""]]
    let version : Node := .branch .plain .methodDefinition
      [leaf .plain .propertyName " " 25 "version",
        .branch .plain .parameters [mark "" 32 "(", mark "" 33 ")"],
        .branch .plain .block
          [mark " " 35 "\x7b",
            .branch .plain .statement
              [mark " " 37 "return", leaf .plain .number " " 44 "3", mark "" 45 ";"],
            mark " " 47 "\x7d"]]
    let decorator : Node := .branch .plain .decorator
      [mark "" 0 "@",
        .branch .plain .call
          [leaf .function .name "" 1 "Helper",
            .branch .arguments .arguments
              [mark "" 7 "(",
                .branch .plain .object
                  [mark "" 8 "\x7b", name, mark "" 23 ",", version, mark " " 49 "\x7d"],
                mark "" 50 ")"]]]
    let tree : Node := .branch .plain .program
      [.branch .plain .classDeclaration
        [decorator, mark " " 52 "class", leaf .name .typeName " " 58 "Notes",
          .branch .plain .classBody [mark " " 64 "\x7b", mark "" 65 "\x7d"]]]
    let text := "@Helper(\x7b name: \"notes\", version() \x7b return 3; \x7d \x7d) " ++
      "class Notes \x7b\x7d"
    let p := Program.ofSources ⟨"/src"⟩ [Source.ofTree ⟨"/src/notes.ts"⟩ text tree]
    String.ofList tree.fullText = text ∧
      p.helpers.map (fun h => (h.name.map (·.value), h.version.map (·.value), h.issues.length)) =
        [(some "notes", none, 0)] := by
  decide +kernel

end DaoGen
