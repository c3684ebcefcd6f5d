import XBase.Text.Class
import XBase.Text.Case
import XBase.Token.Scan
import XBase.Program.Printer
import XBase.Log
import XBase.Grammar.Source
import XBase.Heap.Display
import XBase.Heap.Retention
import XBase.Run.Operator
import XBase.Run.Array
import XBase.Run.Builtin
import XBase.Run.Stmt
import XBase.Run.Unit
import XBase.Session
import XBase.Command
import XBase.Main
import XBase.Proofs.Casing
import XBase.Proofs.Walks
import XBase.Proofs.Transition
import XBase.Proofs.Act
import XBase.Proofs.Composition
import XBase.Proofs.Evaluation
import XBase.Proofs.History
import XBase.Proofs.Restoration
import XBase.Proofs.Rendering
import XBase.Proofs.Budget
import XBase.Proofs.Transparency
import XBase.Proofs.Constants
import XBase.Proofs.Ownership
import XBase.Proofs.Signals
import XBase.Proofs.Placement
import XBase.Proofs.Advance
import XBase.Proofs.Derivation
import XBase.Proofs.Progress
import XBase.Proofs.Lines
import XBase.Proofs.Blocks
import XBase.Proofs.Relocation
import XBase.Proofs.Mirror
import XBase.Proofs.Sequence
import XBase.Proofs.RoundTrip
import XBase.Proofs.Acceptance
import XBase.Proofs.Seams
import XBase.Proofs.Wrapping
import XBase.Proofs.Inlining
import XBase.Proofs.Joining
import XBase.Proofs.Imports
import XBase.Proofs.Concatenation
import XBase.Proofs.Cycles
import XBase.Proofs.Pieces
import XBase.Proofs.Chunks
import XBase.Proofs.Priority
import XBase.Proofs.Places
import XBase.Proofs.Reports
import XBase.Proofs.Blame
import XBase.Proofs.Locality
import XBase.Proofs.ScopeGraph
import XBase.Proofs.Sealing
import XBase.Proofs.Rounds
import XBase.Proofs.Shadowing
import XBase.Proofs.Compound
import XBase.Proofs.Recovery
import XBase.Proofs.Confinement
import XBase.Proofs.Relaid
import XBase.Proofs.Filler
import XBase.Proofs.Layout
import XBase.Proofs.Labels
import XBase.Proofs.Deferral
import XBase.Proofs.Binding
import XBase.Proofs.Integers
import XBase.Proofs.Counting
import XBase.Proofs.Guard
import XBase.Proofs.Lifecycle
import XBase.Proofs.Simultaneous
import XBase.Proofs.Literals
import XBase.Proofs.Addends
import XBase.Proofs.Arrays
import XBase.Proofs.Traversal
