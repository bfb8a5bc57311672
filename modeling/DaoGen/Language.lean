set_option autoImplicit false

/-!
# Source languages

The languages that declarations can be written in, by name and by file extension.
-/

namespace DaoGen

/-- A source language. -/
inductive Language where
  | typescript
  deriving DecidableEq, Repr, Inhabited

namespace Language

/-- The language that a name stands for. -/
def ofName? (name : String) : Option Language :=
  if name = "typescript" || name = "ts" then some typescript else none

/-- The name of a language. -/
def name : Language → String
  | typescript => "typescript"

/-- The extensions of a language's source files. -/
def extensions : Language → List String
  | typescript => ["ts", "tsx"]

end Language

end DaoGen
