import DaoGen.Path
import DaoGen.Settings.RuntimeNames
set_option autoImplicit false

/-!
# Settings

Where sources are read and modules are written, the source language, and the names of
the storage runtime.
-/

namespace DaoGen

/-- The settings of a pass. -/
structure Settings where
  sourceDir : Path := ⟨"src/db"⟩
  outDir : Path := ⟨"src/generated"⟩
  language : String := "typescript"
  runtime : RuntimeNames := {}
  /-- whether generated modules are also printed -/
  echo : Bool := false
  deriving Repr, Inhabited

namespace Settings

/-- The name of the settings file. -/
def fileName : Path := ⟨"ormhelper.toml"⟩

end Settings

end DaoGen
