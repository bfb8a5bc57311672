import DaoGen.Failure
import DaoGen.Source.Reading
import DaoGen.Syntax.Parse
set_option autoImplicit false

/-!
# Source files

A source file is what the tree of its text says.  Which tree that is is up to a `Reader`:
`SourceFile.read` takes the tree that the grammar gives and refuses a text that does not
follow it.
-/

namespace DaoGen.Source

/-- A way to read the text of a source file at a path. -/
abbrev Reader := Path → String → Except Failure SourceFile

/-- Reads a text that follows the grammar.  It does not recover from syntax errors: a text
with one, or with a form that the grammar leaves out, is refused as a whole, where a reader
that recovers makes a source file of the parts that it can tell. -/
def SourceFile.read (path : Path) (text : String) : Except Failure SourceFile :=
  match Syntax.parse? text.toList with
  | some tree => .ok (ofTree path text tree)
  | none => .error (.unparsed path)

end DaoGen.Source
