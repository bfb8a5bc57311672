import DaoGen.Helper.Acceptance
set_option autoImplicit false

/-!
# Validation of a program

Every helper declaration is checked in order.  The first declaration of a generated
class name claims it; a later one of the same name is reported and not checked any
further.  Routines on classes without a helper declaration are reported first, class
by class.
-/

namespace DaoGen

/-- What validating a program gives. -/
structure Validation where
  /-- the accepted helpers, ascending by sanitized name -/
  helpers : List Helper
  diagnostics : List Diagnostic
  events : List Event

namespace Validation

open DaoGen.Schema

/-- The routines declared on a class, in order. -/
def routinesOf (p : Program) (id : ClassId) : List RoutineDeclaration :=
  p.routines.filter (·.owner = id)

/-- The classes with upgrade routines, ascending, each once. -/
def routineOwners (p : Program) : List ClassId :=
  (sortBy (fun a b => a ≤ b) (p.routines.map (·.owner))).eraseReps

/-- Whether a class carries a helper declaration. -/
def isHelperClass (p : Program) (id : ClassId) : Bool := p.helpers.any (·.owner = id)

/-- The diagnostic of a routine on a class that is no helper. -/
def strayDiagnostic (r : RoutineDeclaration) : Diagnostic :=
  ⟨.upgradeOutsideHelper r.method, r.place⟩

/-- The diagnostics of all routines on classes that are no helpers. -/
def strays (p : Program) : List Diagnostic :=
  ((routineOwners p).filter (!isHelperClass p ·)).flatMap fun id =>
    (routinesOf p id).map strayDiagnostic

/-- The class name that a helper declaration would generate, and where it is named. -/
def claimOf (h : HelperDeclaration) : Option (Located String) :=
  h.name.bind fun name =>
    if Naming.sanitize name.value = "" then none
    else some ⟨Naming.helperClass name.value, name.place⟩

/-- Generated class names with the class that claimed each first. -/
abbrev Claims := List (String × String)

/-- The claims after a declaration on a class of a name: the first claim stays. -/
def claimBy (owner : String) (claims : Claims) (h : HelperDeclaration) : Claims :=
  match claimOf h with
  | none => claims
  | some generated =>
    match claims.lookup generated.value with
    | some _ => claims
    | none => (generated.value, owner) :: claims

/-- The diagnostic of a declaration on a class of a name whose generated class name is
claimed. -/
def duplicateBy? (owner : String) (claims : Claims) (h : HelperDeclaration) : Option Diagnostic :=
  (claimOf h).bind fun generated =>
    (claims.lookup generated.value).map fun first =>
      ⟨.duplicateHelper owner first generated.value, generated.place⟩

/-- Helpers are ordered by sanitized name. -/
def helperLe (a b : Helper) : Bool := a.sanitized ≤ b.sanitized

/-- What the outcomes of all helper declarations come to. -/
def ofOutcomes (p : Program) (all : List HelperDeclaration.Outcome) : Validation where
  helpers := sortBy helperLe (HelperDeclaration.values (all.map (·.result)))
  diagnostics := strays p ++ (HelperDeclaration.errors (all.map (·.result))).flatten
  events := all.flatMap (·.events)

end Validation

/-! ## Over look-ups -/

namespace Lookup

open Schema Validation

variable {m : Type → Type} [Monad m] (look : Lookup m) (p : Program) (registry : Registry)
  (runtime : RuntimeNames)

/-- The outcome of each helper declaration, given the claims made before it. -/
def outcomes : Claims → List HelperDeclaration → m (List HelperDeclaration.Outcome)
  | _, [] => return []
  | claims, h :: rest => do
    let owner ← look.classAt h.owner
    let outcome ←
      match duplicateBy? owner.name claims h with
      | some d => pure ⟨.error [d], []⟩
      | none => look.accept registry runtime h (routinesOf p h.owner)
    let others ← outcomes (claimBy owner.name claims h) rest
    return outcome :: others

/-- Validates every helper and upgrade routine of a program. -/
def validation : m Validation := do
  return .ofOutcomes p (← look.outcomes p registry runtime [] p.helpers)

end Lookup

/-! ## In a program -/

namespace Validation

open Schema

variable (p : Program) (registry : Registry) (runtime : RuntimeNames)

/-- The outcome of each helper declaration, given the claims made before it. -/
def outcomes (claims : Claims) (ds : List HelperDeclaration) : List HelperDeclaration.Outcome :=
  p.lookup.outcomes p registry runtime claims ds

/-- Validates every helper and upgrade routine of a program. -/
def ofProgram : Validation := p.lookup.validation p registry runtime

theorem ofProgram_def :
    ofProgram p registry runtime = ofOutcomes p (outcomes p registry runtime [] p.helpers) := rfl

end Validation

end DaoGen
