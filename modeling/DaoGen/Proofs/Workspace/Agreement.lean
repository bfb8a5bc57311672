import DaoGen.Cli.Command
import DaoGen.Proofs.Workspace.Writing
set_option autoImplicit false

/-!
# The three passes agree

Checking, planning and generating start from the same analysis and end in the same way: either
its failure, or its diagnostics, or a result.  Writing the modules has no say in this, and neither
has the way in which a text is read: all is said of any reader.  Checking and planning change
nothing; generating makes the output directory and writes its files, and does so only once the
sources were analyzed.
-/

namespace DaoGen.Workspace

variable (w : Workspace) (s : Settings) (read : Source.Reader)

/-- The files that generating sets out to write. -/
def generatedFiles : List Emit.GeneratedFile :=
  match w.analyze s read with
  | .error _ => []
  | .ok a => Emit.generate s.runtime (w.absolute s.outDir) a.validation.helpers

/-- The workspace that generating leaves. -/
def generated : Workspace := { w with tree := (w.generate s read).tree }

/-! ## Results -/

theorem unlessRejected_of_nil {α : Type} {v : Validation} (h : v.diagnostics = [])
    (value : Except Failure α) : unlessRejected v value = value := by
  rw [unlessRejected, h]
  rfl

theorem unlessRejected_of_ne_nil {α : Type} {v : Validation} (h : v.diagnostics ≠ [])
    (value : Except Failure α) : unlessRejected v value = .error (.rejected v.diagnostics) := by
  rw [unlessRejected, if_neg (by simpa using h)]

section

variable {w s read} {a : Analysis}

theorem check_result (h : w.analyze s read = .ok a) :
    (w.check s read).result =
      unlessRejected a.validation (.ok ⟨a.validation.helpers.length, a.tables, [], 0⟩) := by
  rw [check, h]

theorem plan_result (h : w.analyze s read = .ok a) (start : Option Upgrade.Version) :
    (w.plan s none start read).result =
      unlessRejected a.validation (.ok (a.validation.helpers.map (planOf start))) := by
  rw [plan, h]
  rfl

theorem generate_result (h : w.analyze s read = .ok a) :
    (w.generate s read).result =
      unlessRejected a.validation
        (.ok ⟨a.validation.helpers.length, a.tables,
          (writeFiles w.tree (w.absolute s.outDir) (w.generatedFiles s read)).written,
          (writeFiles w.tree (w.absolute s.outDir) (w.generatedFiles s read)).failures⟩) := by
  rw [generate, generatedFiles, h]

end

/-- All three passes fail in the same way, or all succeed with the same helpers and tables. -/
theorem results_agree (start : Option Upgrade.Version) :
    (∃ f, (w.check s read).result = .error f ∧ (w.plan s none start read).result = .error f ∧
        (w.generate s read).result = .error f) ∨
      ∃ checked plans generated, (w.check s read).result = .ok checked ∧
        (w.plan s none start read).result = .ok plans ∧ (w.generate s read).result = .ok generated ∧
        checked.helpers = plans.length ∧ generated.helpers = plans.length ∧
        generated.tables = checked.tables := by
  cases h : w.analyze s read with
  | error f =>
    refine .inl ⟨f, ?_, ?_, ?_⟩
    · rw [check, h]; rfl
    · rw [plan, h]; rfl
    · rw [generate, h]; rfl
  | ok a =>
    rw [check_result h, plan_result h, generate_result h]
    by_cases hdiagnostics : a.validation.diagnostics = []
    · simp only [unlessRejected_of_nil hdiagnostics]
      exact .inr ⟨_, _, _, rfl, rfl, rfl, (List.length_map _).symm, (List.length_map _).symm, rfl⟩
    · simp only [unlessRejected_of_ne_nil hdiagnostics]
      exact .inl ⟨_, rfl, rfl, rfl⟩

/-! ## Trees -/

/-- Generating leaves what writing its files leaves. -/
theorem generate_tree :
    (w.generate s read).tree =
      (writeFiles w.tree (w.absolute s.outDir) (w.generatedFiles s read)).tree := by
  rw [generate, generatedFiles]
  cases w.analyze s read with
  | error f => rfl
  | ok a => rfl

/-- A failure that is no list of diagnostics stops generating before anything is written. -/
theorem generate_tree_of_error {f : Failure} (h : (w.generate s read).result = .error f)
    (hf : ∀ diagnostics, f ≠ .rejected diagnostics) : (w.generate s read).tree = w.tree := by
  cases ha : w.analyze s read with
  | error g => rw [generate, ha]
  | ok a =>
    rw [generate_result ha] at h
    by_cases hdiagnostics : a.validation.diagnostics = []
    · rw [unlessRejected_of_nil hdiagnostics] at h
      cases h
    · rw [unlessRejected_of_ne_nil hdiagnostics] at h
      cases h
      exact absurd rfl (hf _)

theorem showing_tree {α : Type} (onFailure : String) (shown : α → String)
    (result : Except Failure α) : (Cli.showing w onFailure shown result).tree = w.tree := by
  cases result <;> rfl

/-- A command that checks or plans leaves the tree as it was. -/
theorem runCommand_tree (milliseconds : Nat) (file : Option Path) (sources : Cli.SourceOptions)
    (helper : Option String) (start : Option Upgrade.Version) (json : Bool) :
    (Cli.runCommand w milliseconds file (.check sources) read).tree = w.tree ∧
      (Cli.runCommand w milliseconds file (.plan sources helper start json) read).tree =
        w.tree := by
  unfold Cli.runCommand
  dsimp only
  cases Cli.settingsOf w file sources none with
  | error f => exact ⟨rfl, rfl⟩
  | ok s => exact ⟨showing_tree w _ _ _, showing_tree w _ _ _⟩

/-- With any reader the three passes over one tree fail in the same way or succeed with the same
counts.  Checking and planning leave the tree as it was; generating makes directories on the way to
the output directory and writes the generated files there, and what it does not fail in by
diagnostics it leaves alone. -/
theorem passes_agree (start : Option Upgrade.Version) :
    ((∃ f, (w.check s read).result = .error f ∧ (w.plan s none start read).result = .error f ∧
          (w.generate s read).result = .error f) ∨
        ∃ checked plans generated, (w.check s read).result = .ok checked ∧
          (w.plan s none start read).result = .ok plans ∧
          (w.generate s read).result = .ok generated ∧ checked.helpers = plans.length ∧
          generated.helpers = plans.length ∧ generated.tables = checked.tables) ∧
      (∀ milliseconds file sources helper json,
        (Cli.runCommand w milliseconds file (.check sources) read).tree = w.tree ∧
          (Cli.runCommand w milliseconds file (.plan sources helper start json) read).tree =
            w.tree) ∧
      (∀ l, (w.generate s read).tree.get? l = w.tree.get? l ∨
        (w.tree.get? l = none ∧ (w.generate s read).tree.get? l = some .directory ∧
          l <+: (w.absolute s.outDir).location) ∨
        ∃ f ∈ w.generatedFiles s read, (w.absolute s.outDir).location ++ [f.fileName.toList] = l ∧
          (w.generate s read).tree.get? l = some (.file (.text f.content))) ∧
      ∀ f, (w.generate s read).result = .error f → (∀ diagnostics, f ≠ .rejected diagnostics) →
        (w.generate s read).tree = w.tree := by
  refine ⟨results_agree w s read start, ?_, ?_, fun f => generate_tree_of_error w s read⟩
  · intro milliseconds file sources helper json
    exact runCommand_tree w read milliseconds file sources helper start json
  · intro l
    rw [generate_tree]
    exact get?_writeFiles _ _ _ l

end DaoGen.Workspace
