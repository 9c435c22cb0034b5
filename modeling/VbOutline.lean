import VbOutline.Statement.Basic
import VbOutline.Outline
import VbOutline.Scope
import VbOutline.Check
import VbOutline.Json.Report
import VbOutline.Config.Loading
import VbOutline.Project
import VbOutline.Watch
import VbOutline.Command.Program
import VbOutline.Main
import VbOutline.Proofs.Outline.Nesting
import VbOutline.Proofs.Outline.Selection
import VbOutline.Proofs.Check.Grammar
import VbOutline.Proofs.Check.Simulation
import VbOutline.Proofs.Check.Completion
import VbOutline.Proofs.Check.Regions
import VbOutline.Proofs.Publisher.Interleaving
import VbOutline.Proofs.Debounce.History
import VbOutline.Proofs.Publisher.Outlook
import VbOutline.Proofs.Watch.Settling
import VbOutline.Proofs.Scope.Resolution
import VbOutline.Proofs.Scope.Implementations
import VbOutline.Proofs.Outline.Ledger
import VbOutline.Proofs.Outline.Likeness
import VbOutline.Proofs.Check.Likeness
import VbOutline.Proofs.Line.Numbers
import VbOutline.Proofs.Check.Comments
import VbOutline.Proofs.Check.Coverage
import VbOutline.Proofs.Text.Lowering
import VbOutline.Proofs.Line.Lowering
import VbOutline.Proofs.Statement.Lowering
import VbOutline.Proofs.Check.LetterCase
import VbOutline.Proofs.Outline.Scopes
import VbOutline.Proofs.Outline.Composition
import VbOutline.Proofs.Scope.Positions
import VbOutline.Proofs.Check.Duplicates
import VbOutline.Proofs.Check.Ordering
import VbOutline.Proofs.Check.Reachability
import VbOutline.Proofs.Check.Levels
import VbOutline.Proofs.Check.EmptyBlocks
import VbOutline.Proofs.Check.Locals
import VbOutline.Proofs.Check.MissingMembers
import VbOutline.Proofs.Statement.Headers
import VbOutline.Proofs.Statement.Declarations
import VbOutline.Proofs.Statement.Constructors
import VbOutline.Proofs.Statement.Underscores
import VbOutline.Proofs.Source.Offsets
import VbOutline.Proofs.Source.Runs
import VbOutline.Proofs.Uri.Escapes
import VbOutline.Proofs.Location.Display
import VbOutline.Proofs.Toml.Keys
import VbOutline.Proofs.Symbol.Kinds
import VbOutline.Proofs.Symbol.Parents
import VbOutline.Proofs.Line.WholeWords
