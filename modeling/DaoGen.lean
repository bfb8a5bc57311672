import DaoGen.Main
import DaoGen.Proofs.Upgrade.Order
import DaoGen.Proofs.Emit.Token
import DaoGen.Proofs.Upgrade.ClosedForm
import DaoGen.Proofs.Emit.Reading
import DaoGen.Proofs.Emit.Execution
import DaoGen.Proofs.Helper.Accounting
import DaoGen.Proofs.Upgrade.Dispatch
import DaoGen.Proofs.Emit.FileOrder
import DaoGen.Proofs.Helper.Isolation
import DaoGen.Proofs.Path.Parts
import DaoGen.Proofs.Path.Specifier
import DaoGen.Proofs.Path.Destination
import DaoGen.Proofs.Syntax.Item
import DaoGen.Proofs.Syntax.Name
import DaoGen.Proofs.Syntax.Production
import DaoGen.Proofs.Syntax.Automaton
import DaoGen.Proofs.Syntax.Stack
import DaoGen.Proofs.Syntax.Parse
import DaoGen.Proofs.Syntax.Tree
import DaoGen.Proofs.Source.Names
import DaoGen.Proofs.Schema.Imports
import DaoGen.Proofs.Emit.Accessors
import DaoGen.Proofs.Emit.Bindings
import DaoGen.Proofs.Program.Options
import DaoGen.Proofs.Schema.References
import DaoGen.Proofs.Upgrade.Monotonicity
import DaoGen.Proofs.Program.Extension
import DaoGen.Proofs.Helper.Overlooked
import DaoGen.Proofs.Workspace.Tree
import DaoGen.Proofs.Workspace.Writing
import DaoGen.Proofs.Workspace.Agreement
import DaoGen.Proofs.Workspace.Reading
import DaoGen.Proofs.Workspace.Rerun
import DaoGen.Proofs.Text.Literal
import DaoGen.Proofs.Source.Literals
import DaoGen.Proofs.Emit.DatabaseName
import DaoGen.Proofs.Emit.FileNames
import DaoGen.Proofs.Source.Texts
import DaoGen.Proofs.Emit.Uses
import DaoGen.Proofs.Emit.ImportsUsed
import DaoGen.Proofs.Source.Exports
import DaoGen.Proofs.Emit.Linking
import DaoGen.Proofs.Source.Outline
import DaoGen.Proofs.Program.Outline
import DaoGen.Proofs.Source.TypeLayout
import DaoGen.Proofs.Source.ExprLayout
import DaoGen.Proofs.Source.DecoratorLayout
import DaoGen.Proofs.Source.MemberLayout
import DaoGen.Proofs.Source.FileLayout
import DaoGen.Proofs.Program.Layout
import DaoGen.Proofs.Workspace.Output
import DaoGen.Proofs.Helper.Requirements
import DaoGen.Proofs.Program.Aliases
import DaoGen.Proofs.Program.LocalClasses
import DaoGen.Proofs.Program.Constructors
import DaoGen.Proofs.Source.Spans
import DaoGen.Proofs.Program.Places
import DaoGen.Proofs.Helper.Places
import DaoGen.Proofs.Helper.Routines
import DaoGen.Proofs.Upgrade.Ranking
import DaoGen.Proofs.Program.Integers
import DaoGen.Proofs.Emit.Identifiers
import DaoGen.Proofs.Program.Members
import DaoGen.Proofs.Text.Quoted
import DaoGen.Proofs.Emit.ImportTokens
import DaoGen.Proofs.Emit.ImportText
import DaoGen.Proofs.Workspace.Selection
import DaoGen.Proofs.Program.Indices
import DaoGen.Proofs.Helper.Indices
