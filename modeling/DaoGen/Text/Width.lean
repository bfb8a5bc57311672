import DaoGen.Text.Controls
import DaoGen.Text.Onset
set_option autoImplicit false

/-!
# Width on a terminal

The width of a text is the number of columns that it fills on a terminal, where
commands to the terminal fill none and characters that are drawn together count as
one.
-/

namespace DaoGen.Text

/-- The width of a text before another, and the onset of both together. -/
def widthBefore (next : Onset) : List Char → Int × Onset
  | [] => (0, next)
  | c :: rest =>
    let (width, onset) := widthBefore next rest
    let (added, onset) := onset.before c
    (width + added, onset)

/-- The number of columns that a text fills. -/
def width (text : String) : Nat := (widthBefore {} (shown text.toList)).1.toNat

end DaoGen.Text
