import DaoGen.Emit.ConfigModule
set_option autoImplicit false

/-!
# The files of a pass

Each helper makes one module and, on request, a second one with its config writer.
The files follow the order of the helpers.
-/

namespace DaoGen.Emit

/-- A generated file. -/
structure GeneratedFile where
  /-- the name of the file in the output directory -/
  fileName : String
  className : String
  /-- the declared name of the helper the file belongs to -/
  helper : String
  content : String
  deriving Repr, Inhabited, DecidableEq

/-- The file that holds a module of a helper. -/
def fileOf (h : Helper) (m : ModuleCode) : GeneratedFile :=
  ⟨Naming.moduleFile m.exported.name, m.exported.name, h.name, m.render⟩

/-- The modules of a helper. -/
def modulesOf (runtime : RuntimeNames) (outDir : Path) (h : Helper) : List ModuleCode :=
  helperModule runtime outDir h ::
    if h.writesConfig then [configModule runtime outDir h] else []

/-- The files of a helper. -/
def filesOf (runtime : RuntimeNames) (outDir : Path) (h : Helper) : List GeneratedFile :=
  (modulesOf runtime outDir h).map (fileOf h)

/-- The files of all helpers. -/
def generate (runtime : RuntimeNames) (outDir : Path) (helpers : List Helper) :
    List GeneratedFile :=
  helpers.flatMap (filesOf runtime outDir)

end DaoGen.Emit
