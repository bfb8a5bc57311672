import DaoGen.Text.Position
import DaoGen.Toml.Value
set_option autoImplicit false

/-!
# Reports on a document

A report names a line and a column, shows the line, marks the stretch that is at fault
below it and ends with what is wrong.  Columns count characters; the number of marks
is the number of bytes in the stretch, as far as its line goes.
-/

namespace DaoGen.Toml

/-- The last line of a text. -/
def lastLine (text : List Char) : List Char := (text.reverse.takeWhile (· ≠ '\n')).reverse

/-- A report on a stretch of a document. -/
def report (text : List Char) (range : Range) (message : String) : String :=
  let before := text.take range.start
  let start := lastLine before
  let line := start ++ (text.drop range.start).takeWhile (· ≠ '\n')
  let number := toString (before.count '\n' + 1)
  let margin := String.ofList (List.replicate (number.length + 1) ' ')
  let stretch := Text.byteLength ((text.take range.stop).drop range.start)
  let marks := max 1 (min stretch (Text.byteLength line - start.length))
  "TOML parse error at line " ++ number ++ ", column " ++ toString (start.length + 1) ++ "\n" ++
    margin ++ "|\n" ++
    number ++ " | " ++ String.ofList line ++ "\n" ++
    margin ++ "|" ++ String.ofList (List.replicate (start.length + 1) ' ') ++
    String.ofList (List.replicate marks '^') ++ "\n" ++
    message ++ "\n"

end DaoGen.Toml
