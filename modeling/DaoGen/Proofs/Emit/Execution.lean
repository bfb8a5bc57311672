import DaoGen.Proofs.Emit.Reading
set_option autoImplicit false

/-!
# Running generated code

What the statements of an upgrade do, as TypeScript has it.  Variables hold whole numbers
or objects; the numbers are versions, which are exact as TypeScript numbers.  A call of a
method is recorded with its receiver and its arguments and returns.  An `if` without
`else` runs its block when the condition holds and does nothing otherwise.

An expression or a statement of any other kind has no meaning here, and neither has one
that mentions a variable without a value.
-/

namespace DaoGen.Emit

/-- A value that an upgrade works with. -/
inductive Value where
  | number (value : Nat)
  /-- an object, told from others by a number -/
  | object (identity : Nat)
  deriving DecidableEq, Repr, Inhabited

/-- A call of a method. -/
structure Call where
  receiver : Nat
  method : String
  arguments : List Value
  deriving DecidableEq, Repr, Inhabited

/-- The values of the variables that have one. -/
abbrev Store := String → Option Value

/-- What running statements works on. -/
structure State where
  store : Store
  /-- the calls made so far, in order -/
  calls : List Call

namespace Expr

/-- The value of an expression. -/
def evaluate (store : Store) : Expr → Option Value
  | .name text => store text
  | .number value => some (.number value)
  | _ => none

/-- Whether a condition holds. -/
def holds (store : Store) : Expr → Option Bool
  | .compare comparison left right =>
    match left.evaluate store, right.evaluate store, comparison with
    | some (.number a), some (.number b), .atMost => some (a ≤ b)
    | some (.number a), some (.number b), .equal => some (a = b)
    | _, _, _ => none
  | _ => none

end Expr

namespace State

/-- The state after a call. -/
def call (s : State) (receiver : Nat) (method : String) (arguments : List Value) : State :=
  { s with calls := s.calls ++ [⟨receiver, method, arguments⟩] }

/-- The state after an assignment to a variable that has a value already. -/
def assign (s : State) (name : String) (value : Value) : Option State :=
  if (s.store name).isSome then
    some { s with store := fun other => if other = name then some value else s.store other }
  else none

end State

namespace Stmt

mutual

/-- The state after a statement. -/
def run (s : State) : Stmt → Option State
  | .eval (.call (.member target method) arguments) => do
    let .object receiver ← target.evaluate s.store | none
    return s.call receiver method (← arguments.mapM (·.evaluate s.store))
  | .assign (.name name) value => do s.assign name (← value.evaluate s.store)
  | .ifThen condition body => do if ← condition.holds s.store then runAll s body else some s
  | _ => none

/-- The state after a list of statements. -/
def runAll (s : State) : List Stmt → Option State
  | [] => some s
  | stmt :: rest => do runAll (← run s stmt) rest

end

end Stmt

/-- The state after the statements of a text. -/
def execute (text : String) (s : State) : Option State := (read text).bind (Stmt.runAll s)

/-- Running the text of readable statements is running the statements. -/
theorem execute_renderAll {stmts : List Stmt} (h : ∀ stmt ∈ stmts, stmt.Readable) (level : Nat)
    (s : State) : execute (Stmt.renderAll level stmts) s = Stmt.runAll s stmts := by
  rw [execute, read_renderAll h, Option.bind_some]

end DaoGen.Emit
