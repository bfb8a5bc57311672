import DaoGen.Program.Resolution
set_option autoImplicit false

/-!
# Id types

The id type of a table is the type of its identifying field.  Numeric primitives
are replaced by their object types; any other type is used as written, together
with the imports it needs.
-/

namespace DaoGen.Schema

/-- The type of a table's identifier. -/
inductive IdType where
  /-- a numeric primitive, replaced by an object type -/
  | wrapped (primitive wrapper : String)
  /-- a type as written and what it needs imported -/
  | declared (text : String) (imports : List ImportRequest)
  deriving Repr, Inhabited

namespace IdType

/-- The type as it is written in a generated module. -/
def render : IdType → String
  | wrapped _ wrapper => wrapper
  | declared text _ => text

/-- What a generated module has to import for the type. -/
def imports : IdType → List ImportRequest
  | wrapped _ _ => []
  | declared _ imports => imports

/-- The object type of a numeric primitive. -/
def wrapperOf (primitive : String) : Option String :=
  if primitive = "number" then some "Number"
  else if primitive = "bigint" then some "BigInt"
  else none

/-- Requests in order, adjacent repetitions taken out. -/
def dropRepeats : List ImportRequest → List ImportRequest
  | [] => []
  | [r] => [r]
  | r :: s :: rest =>
    if r == s then
      match dropRepeats (s :: rest) with
      | [] => [r]
      | _ :: more => r :: more
    else r :: dropRepeats (s :: rest)

/-- The requests of a list of names written in a file, in order and each once. -/
def requestsOf (f : ScannedFile) (references : List String) : List ImportRequest :=
  dropRepeats (sortBy (fun a b => (compare a b).isLE) (references.filterMap f.importRequest))

/-- The id type that a field's type makes in a file; a field without a type has an
unknown one. -/
def ofField (f : ScannedFile) (type : Option DeclaredType) : IdType :=
  match type with
  | none => declared "unknown" []
  | some t =>
    match t.primitive.bind fun name => (wrapperOf name).map fun w => (name, w) with
    | some (name, wrapper) => wrapped name wrapper
    | none => declared t.text (requestsOf f t.references)

end IdType

end DaoGen.Schema
