import ScriptCore.Interpreter
import ScriptCore.Lifetime
import ScriptCore.Proofs.Index.Compaction
import ScriptCore.Proofs.Content.Equality
import ScriptCore.Proofs.Sorting.Stability
import ScriptCore.Proofs.Sorting.Containers
import ScriptCore.Proofs.Sorting.DefaultOrder
import ScriptCore.Proofs.Collections.Runs
import ScriptCore.Proofs.Collections.Selection
import ScriptCore.Proofs.Collections.Passes
import ScriptCore.Proofs.Collections.Atomicity
import ScriptCore.Proofs.Collections.Queues
import ScriptCore.Proofs.Collections.Buses
import ScriptCore.Proofs.Conduct.Growth
import ScriptCore.Proofs.Conduct.Worlds
import ScriptCore.Proofs.Conduct.Routines
import ScriptCore.Proofs.Conduct.Interpreter
import ScriptCore.Proofs.Conduct.History
import ScriptCore.Proofs.Conduct.Moments
import ScriptCore.Proofs.Conduct.Balance
import ScriptCore.Proofs.Conduct.Dispatch
import ScriptCore.Proofs.Conduct.Delivery
import ScriptCore.Proofs.Conduct.Registry
import ScriptCore.Proofs.Conduct.Initialization
import ScriptCore.Proofs.Conduct.Symbols
import ScriptCore.Proofs.Conduct.Replacement
import ScriptCore.Proofs.Conduct.Reports
import ScriptCore.Proofs.Conduct.Emission
import ScriptCore.Proofs.Conduct.Connections
import ScriptCore.Proofs.Conduct.Ownership
import ScriptCore.Proofs.Conduct.Failures
import ScriptCore.Proofs.Conduct.Traces
import ScriptCore.Proofs.Conduct.Binding
import ScriptCore.Proofs.Conduct.Settings
import ScriptCore.Proofs.Content.Display
import ScriptCore.Proofs.Collections.Sequences
import ScriptCore.Proofs.Scopes.History
import ScriptCore.Proofs.Prelude.Building
