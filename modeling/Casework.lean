import Casework.Files.Tree
import Casework.Main
import Casework.Proofs.Dictionary
import Casework.Proofs.Decimal.Text
import Casework.Proofs.Context.Latest
import Casework.Proofs.Engine.Gist
import Casework.Proofs.Engine.Session
import Casework.Proofs.Engine.Visit
import Casework.Proofs.Engine.Launch
import Casework.Proofs.Engine.Settlement
import Casework.Proofs.Engine.Coupling
import Casework.Proofs.Engine.Log
import Casework.Proofs.Engine.Moves
import Casework.Proofs.Engine.Passage
import Casework.Proofs.Engine.Stale
import Casework.Proofs.Engine.Alike
import Casework.Proofs.Engine.Interruption
import Casework.Proofs.Engine.Pausing
import Casework.Proofs.Engine.Walk
import Casework.Proofs.Engine.Drive
import Casework.Proofs.Engine.History
import Casework.Proofs.Engine.Upkeep
import Casework.Proofs.Engine.Preservation
import Casework.Proofs.Engine.Lifetime
import Casework.Proofs.Engine.Snapshot
import Casework.Proofs.Engine.Pointer
import Casework.Proofs.Engine.Cancellation
import Casework.Proofs.Engine.Limit
import Casework.Proofs.Engine.Coherence
import Casework.Proofs.Engine.Handover
import Casework.Proofs.Executor.BuiltIn
import Casework.Proofs.Executor.DecisionOutput
import Casework.Proofs.Executor.CalculationOutput
import Casework.Proofs.Task.Pending
import Casework.Proofs.Task.Beside
import Casework.Proofs.Task.Waiting
import Casework.Proofs.Task.Calls
import Casework.Proofs.Task.Resolution
import Casework.Proofs.Task.Paused
import Casework.Proofs.Task.Confinement
import Casework.Proofs.Task.Isolation
import Casework.Proofs.Formula.Grammar
import Casework.Proofs.Formula.Reading
import Casework.Proofs.Formula.Parsing
import Casework.Proofs.Formula.Substitution
import Casework.Proofs.Formula.Prediction
import Casework.Proofs.Catalog.Install
import Casework.Proofs.Catalog.Soundness
import Casework.Proofs.Catalog.Permanence
import Casework.Proofs.Context.Built
import Casework.Proofs.Decision.FirstMatch
import Casework.Proofs.Decision.Ordering
import Casework.Proofs.Double.Rounding
import Casework.Proofs.Double.Shortest
import Casework.Proofs.Double.Error
import Casework.Proofs.Json.Scaling
import Casework.Proofs.Json.Fraction
import Casework.Proofs.Json.Reread
import Casework.Proofs.Json.Sound
import Casework.Proofs.Task.Amended
import Casework.Proofs.Engine.FirstCall
import Casework.Proofs.Task.HandedOver
import Casework.Proofs.Context.Ranking
import Casework.Proofs.Catalog.Fidelity
import Casework.Proofs.Catalog.Listing
import Casework.Proofs.Decimal.Numeral
import Casework.Proofs.Formula.Lexeme
import Casework.Proofs.Formula.Tokens
import Casework.Proofs.Formula.Loose
import Casework.Proofs.Formula.Scan
import Casework.Proofs.Formula.Foresight
import Casework.Proofs.Formula.Viability
import Casework.Proofs.Formula.FirstWrong
import Casework.Proofs.Catalog.Consistency
import Casework.Proofs.Context.Precedence
import Casework.Proofs.Decimal.Rounding
import Casework.Proofs.Engine.Leftover
import Casework.Proofs.Template.Traversal
import Casework.Proofs.Formula.Places
import Casework.Proofs.Decision.Contains
import Casework.Proofs.Document.Stored
