import DaoGen.Program.Ancestry
import DaoGen.Schema.IdType
set_option autoImplicit false

/-!
# Finding a table's id type

The id type of a class comes from the nearest class on its chain of parents, itself
included, that declares an identifying field.  `Walk` answers such questions one
after the other and remembers every answer; a class that is met again while its own
question is open lies on a circle, and a circle has no id type.
-/

namespace DaoGen

namespace Schema

/-- The class that declares the identifying field, and the id type it makes. -/
structure Found where
  declaredOn : ClassId
  idType : IdType
  deriving Repr, Inhabited

/-- What a walk has learnt so far. -/
structure Walk where
  /-- settled questions with their answers -/
  known : List (ClassId × Option Found) := []
  /-- questions that are still open -/
  pending : List ClassId := []
  deriving Repr, Inhabited

namespace Walk

/-- Opens the question for a class. -/
def ask (w : Walk) (id : ClassId) : Walk := { w with pending := id :: w.pending }

/-- Remembers the answer for a class, whose question is open no longer. -/
def settle (w : Walk) (id : ClassId) (answer : Option Found) : Walk :=
  ⟨(id, answer) :: w.known, w.pending.erase id⟩

end Walk

end Schema

/-! ## Over look-ups -/

namespace Lookup

open Schema

variable {m : Type → Type} [Monad m] (look : Lookup m)

/-- What a class's own identifying field makes. -/
def ownIdType (id : ClassId) : m (Option Found) := do
  let c ← look.classAt id
  match c.idField with
  | none => return none
  | some field => return some ⟨id, IdType.ofField (← look.fileAt c.file) field.type⟩

/-- Answers the question for a class.  Each question that is opened on the way leaves
fewer classes without an open question. -/
def answer (w : Walk) (id : ClassId) : m (Option Found × Walk) :=
  match w.known.lookup id with
  | some answer => return (answer, w)
  | none =>
    if _ : w.pending.contains id then return (none, w)
    else do
      let (answer, after) ←
        match ← look.ownIdType id with
        | some found => pure (some found, w.ask id)
        | none =>
          match ← look.parentOf id with
          | some parent =>
            -- an index that no class has is followed no further, but it has no parent either
            if _ : id < look.count then answer (w.ask id) parent else pure (none, w.ask id)
          | none => pure (none, w.ask id)
      return (answer, after.settle id answer)
termination_by look.unmet w.pending
decreasing_by exact unmet_cons_lt ‹_› ‹_›

/-- Answers the questions for a list of classes in order. -/
def answers : Walk → List ClassId → m (List (Option Found) × Walk)
  | w, [] => return ([], w)
  | w, id :: rest => do
    let (answer, after) ← look.answer w id
    let (others, last) ← answers after rest
    return (answer :: others, last)

end Lookup

/-! ## In a program -/

namespace Schema

/-- What a class's own identifying field makes. -/
def ownIdType (p : Program) (id : ClassId) : Option Found := p.lookup.ownIdType id

theorem ownIdType_def (p : Program) (id : ClassId) :
    ownIdType p id = (p.classAt id).idField.map fun field =>
      ⟨id, IdType.ofField (p.fileAt (p.classAt id).file) field.type⟩ := by
  unfold ownIdType Lookup.ownIdType
  show (match (p.classAt id).idField with | none => _ | some field => _) = _
  cases (p.classAt id).idField <;> rfl

/-- The id type of a class: the first one that a class on its chain makes. -/
def idTypeOf (p : Program) (id : ClassId) : Option Found :=
  (p.ancestry id).findSome? (ownIdType p)

namespace Walk

/-- Answers the question for a class of a program. -/
def resolve (p : Program) (w : Walk) (id : ClassId) : Option Found × Walk := p.lookup.answer w id

section

variable {p : Program} {w : Walk} {id : ClassId}

theorem resolve_of_known {answer : Option Found} (h : w.known.lookup id = some answer) :
    w.resolve p id = (answer, w) := by
  rw [resolve, Lookup.answer, h]
  rfl

theorem resolve_of_open (hknown : w.known.lookup id = none) (hopen : w.pending.contains id = true) :
    w.resolve p id = (none, w) := by
  rw [resolve, Lookup.answer, hknown]
  exact dif_pos hopen

/-- A question that is opened is answered by the class itself, or by its parent. -/
theorem resolve_of_new (hknown : w.known.lookup id = none)
    (hnew : ¬ w.pending.contains id = true) :
    let answered :=
      match ownIdType p id with
      | some found => (some found, w.ask id)
      | none =>
        match p.parentOf id with
        | some parent => (w.ask id).resolve p parent
        | none => (none, w.ask id)
    w.resolve p id = (answered.1, answered.2.settle id answered.1) := by
  rw [resolve, Lookup.answer, hknown]
  dsimp only
  rw [dif_neg hnew]
  show (match ownIdType p id with | some found => _ | none => _) = _
  cases ownIdType p id with
  | some found => rfl
  | none =>
    show (match p.parentOf id with | some parent => _ | none => _) = _
    cases hparent : p.parentOf id with
    | none => rfl
    | some parent =>
      have hlt : id < p.lookup.count := Program.lt_of_parentOf_eq_some hparent
      exact dif_pos hlt

end

/-- Answers the questions for a list of classes in order. -/
def resolveAll (p : Program) (w : Walk) (ids : List ClassId) : List (Option Found) × Walk :=
  p.lookup.answers w ids

end Walk

end Schema

end DaoGen
