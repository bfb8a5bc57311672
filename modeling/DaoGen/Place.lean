import DaoGen.Path
import DaoGen.Text.Position
set_option autoImplicit false

/-!
# Places

A place is a span of a source file together with the file's path and its whole
text, so that a report about the place can show it.
-/

namespace DaoGen

/-- A span of a source file. -/
structure Place where
  path : Path
  text : String
  span : Text.Span
  deriving Repr, Inhabited

/-- A value with the place it was written at. -/
structure Located (α : Type) where
  value : α
  place : Place
  deriving Repr

end DaoGen
