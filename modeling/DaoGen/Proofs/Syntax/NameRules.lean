import DaoGen.Proofs.Syntax.Production
set_option autoImplicit false

/-!
# Rules that ask for names

An import, a type alias, an interface and an enum are given their names by steps of their
rules that read names, and nothing else gets into the role of these names.  This can be
seen on the atoms of each rule (`AsksForNames`), and the rules of the grammar are so
(`Grammar.asksForNames`).
-/

namespace DaoGen.Syntax

/-! ## Atoms and kinds -/

namespace Atom

def isName : Atom → Bool
  | token .name => true
  | _ => false

def isToken : Atom → Bool
  | token _ => true
  | _ => false

/-- A name, or the word that may be used as one in an import. -/
def isImportName : Atom → Bool
  | token .name | token (.word "type") => true
  | _ => false

def isInterpreter : Atom → Bool
  | token .interpreter => true
  | _ => false

end Atom

/-- The role that names have below a node. -/
def nameRole? : Kind → Option Role
  | .importSpecifier => some .renamed
  | .aliasDeclaration | .interfaceDeclaration | .enumDeclaration => some .name
  | _ => none

/-- Kinds of nodes that only phrases and tokens have by themselves. -/
def isOwnKind : Kind → Bool
  | .comment | .wholeImport | .importSpecifier | .aliasDeclaration | .interfaceDeclaration
  | .enumDeclaration => true
  | _ => false

/-! ## What is checked on a rule -/

/-- A step gives the kind of a type's name to names alone, and no kind that phrases and
tokens have by themselves. -/
def isRegular (step : Atom × Part) : Bool :=
  (match step.2.kind with
    | some .typeName => step.1.isName
    | some kind => !isOwnKind kind
    | none => true) &&
  (step.2.role = .plain || !step.1.isInterpreter)

/-- A step keeps a role for names: what has the role is a name, and nothing else comes to the
node without a role. -/
def keepsForNames (role : Role) (step : Atom × Part) : Bool :=
  if step.2.role = role then
    match step.1 with
    | .phrase .importName => step.2.kind = none
    | atom => atom.isName
  else
    match step.1 with
    | .token _ => true
    | .phrase p => step.2.kind.isSome || p.kind?.isSome || step.2.role ≠ .plain
    | .repeated _ => step.2.kind.isSome || step.2.role ≠ .plain

/-- Rules that ask for names where imports and types are given theirs. -/
structure AsksForNames (rules : List Rule) : Prop where
  regular : ∀ rule ∈ rules, ∀ step ∈ rule.2.atoms, isRegular step
  repeated : ∀ form ∈ Form.repetitionsOf (rules.map (·.2)), ∀ step ∈ form.atoms, isRegular step
  kind : ∀ rule ∈ rules, rule.1.kind? ≠ some .typeName ∧ rule.1.kind? ≠ some .comment
  role : ∀ rule ∈ rules, ∀ role, rule.1.kind?.bind nameRole? = some role →
    ∀ step ∈ rule.2.atoms, keepsForNames role step
  wholeImport : ∀ rule ∈ rules, rule.1.kind? = some .wholeImport →
    ∀ step ∈ rule.2.atoms, step.1.isToken ∧ step.2.kind = none
  importName : ∀ rule ∈ rules, rule.1 = .importName → ∀ step ∈ rule.2.atoms, step.1.isImportName
  /-- the parts of the whole text have no roles -/
  program : ∀ rule ∈ rules, rule.1 = .program → ∀ step ∈ rule.2.atoms, step.2 = {}
  interpreter : .interpreter ∈ Form.tokensOf (rules.map (·.2))
  typeWord : .word "type" ∈ Form.tokensOf (rules.map (·.2))

/-! ## The rules of the grammar -/

/-- A test of all rules holds of the atoms of those that a condition selects. -/
theorem forall_atoms_of_all {rules : List Rule} {selects : Rule → Bool} {test : Atom × Part → Bool}
    (h : (rules.all fun rule => !selects rule || rule.2.atoms.all test) = true) :
    ∀ rule ∈ rules, selects rule → ∀ step ∈ rule.2.atoms, test step := by
  intro rule hrule hselects
  have htest := List.all_eq_true.1 h rule hrule
  rw [hselects] at htest
  exact List.all_eq_true.1 htest

/-- The rules of the grammar ask for names. -/
theorem Grammar.asksForNames : AsksForNames Grammar.rules where
  regular := by
    have h : (rules.all fun rule => !true || rule.2.atoms.all isRegular) = true := by
      decide +kernel
    exact fun rule hrule => forall_atoms_of_all h rule hrule rfl
  repeated := by
    have h : ((Form.repetitionsOf (rules.map (·.2))).all fun form =>
        form.atoms.all isRegular) = true := by decide +kernel
    exact fun form hform => List.all_eq_true.1 (List.all_eq_true.1 h form hform)
  kind := by
    have h : (rules.all fun rule =>
        rule.1.kind? ≠ some .typeName && rule.1.kind? ≠ some .comment) = true := by decide +kernel
    intro rule hrule
    simpa using List.all_eq_true.1 h rule hrule
  role := by
    have h : (rules.all fun rule => (rule.1.kind?.bind nameRole?).all fun role =>
        rule.2.atoms.all (keepsForNames role)) = true := by decide +kernel
    intro rule hrule role hrole
    have hatoms := List.all_eq_true.1 h rule hrule
    rw [hrole] at hatoms
    exact List.all_eq_true.1 hatoms
  wholeImport := by
    have h : (rules.all fun rule => !decide (rule.1.kind? = some .wholeImport) ||
        rule.2.atoms.all fun step => step.1.isToken && step.2.kind = none) = true := by
      decide +kernel
    intro rule hrule hkind step hstep
    simpa using forall_atoms_of_all h rule hrule (decide_eq_true hkind) step hstep
  importName := by
    have h : (rules.all fun rule => !decide (rule.1 = .importName) ||
        rule.2.atoms.all fun step => step.1.isImportName) = true := by decide +kernel
    exact fun rule hrule hphrase => forall_atoms_of_all h rule hrule (decide_eq_true hphrase)
  program := by
    have h : (rules.all fun rule => !decide (rule.1 = .program) ||
        rule.2.atoms.all fun step => step.2 = {}) = true := by decide +kernel
    intro rule hrule hphrase step hstep
    simpa using forall_atoms_of_all h rule hrule (decide_eq_true hphrase) step hstep
  interpreter := by decide +kernel
  typeWord := by decide +kernel

end DaoGen.Syntax
