set_option autoImplicit false

/-!
# Events

What a pass tells about its work as it goes: a message with named values, at one of
three levels.
-/

namespace DaoGen

/-- How much an event matters. -/
inductive Level where
  | info
  | warning
  | error
  deriving DecidableEq, Repr, Inhabited

/-- Something a pass has to tell. -/
structure Event where
  level : Level
  message : String
  /-- named values in the order they are given -/
  values : List (String × String) := []
  deriving DecidableEq, Repr, Inhabited

end DaoGen
