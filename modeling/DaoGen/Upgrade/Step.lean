set_option autoImplicit false

/-!
# Upgrade steps

A step moves a database from one version to a target version.  Its origin is a
version, or is left open, and then the step serves every version up to its
target.  A declared origin is an integer: `-1` leaves it open.
-/

namespace DaoGen.Upgrade

/-- A version of a database. -/
abbrev Version := Nat

/-- Versions are below this number. -/
def Version.limit : Nat := Nat.pow 2 32

/-- An integer as a version, when it is one. -/
def Version.ofInt? (value : Int) : Option Version :=
  if 0 ≤ value ∧ value < Version.limit then some value.toNat else none

theorem Version.ofInt?_eq_some_iff {value : Int} {v : Nat} :
    Version.ofInt? value = some v ↔ value = (v : Int) ∧ v < Version.limit := by
  unfold Version.ofInt?
  split
  · rw [Option.some.injEq]
    show value.toNat = v ↔ _
    omega
  · constructor
    · intro h; cases h
    · rintro ⟨rfl, h⟩
      omega

/-- Where a step starts from. -/
inductive Origin where
  /-- any version at or below the step's target -/
  | unset
  /-- exactly this version -/
  | exact (version : Version)
  deriving DecidableEq, Repr, Inhabited

namespace Origin

/-- The declared origin that leaves it open. -/
def unsetValue : Int := -1

/-- The origin that a declared integer stands for. -/
def ofDeclared? (value : Int) : Option Origin :=
  if value = unsetValue then some unset else (Version.ofInt? value).map exact

/-- The version of an origin that has one. -/
def version? : Origin → Option Version
  | unset => none
  | exact v => some v

/-- An open origin comes before every exact one. -/
def le : Origin → Origin → Bool
  | unset, _ => true
  | exact _, unset => false
  | exact a, exact b => a ≤ b

end Origin

/-- A transition between versions. -/
structure Transition where
  origin : Origin
  target : Version
  deriving DecidableEq, Repr, Inhabited

namespace Transition

/-- Whether the guard of a transition lets it happen at a version. -/
def fires (t : Transition) (version : Version) : Bool :=
  match t.origin with
  | .unset => version ≤ t.target
  | .exact origin => version = origin

/-- How a transition is shown. -/
def display (t : Transition) : String :=
  match t.origin with
  | .unset => s!"(UNSET, {t.target})"
  | .exact origin => s!"({origin}, {t.target})"

end Transition

/-- A transition with the routine that performs it. -/
structure Step extends Transition where
  routine : String
  deriving DecidableEq, Repr, Inhabited

end DaoGen.Upgrade
