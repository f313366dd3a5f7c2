import Cellular.Engine.Memory
import Cellular.Engine.Notice
import Cellular.Source.Printer
import Cellular.Space.Nested
import Cellular.Space.Query
import Cellular.Space.RowMajor
import Cellular.Tree.Encoding
import Cellular.Proofs.Space.Neighbors
import Cellular.Proofs.Condition.Agreement
import Cellular.Proofs.Program.Clauses
import Cellular.Proofs.Engine.Step
import Cellular.Proofs.Engine.Prediction
import Cellular.Proofs.Semantics.Declared
import Cellular.Proofs.Semantics.Refinement
import Cellular.Proofs.Source.RoundTrip
import Cellular.Proofs.Source.Range
import Cellular.Proofs.Source.Sentences
import Cellular.Proofs.Validation.Acceptance
import Cellular.Proofs.Engine.InPlace
import Cellular.Proofs.Space.Copies
import Cellular.Proofs.Engine.Session
import Cellular.Proofs.Engine.Symmetry
import Cellular.Proofs.Engine.LightCone
import Cellular.Proofs.Engine.Rearranged
import Cellular.Proofs.Source.Rejected
import Cellular.Proofs.Source.Respaced
import Cellular.Proofs.Source.Concatenated
import Cellular.Proofs.Program.Total
import Cellular.Proofs.Condition.Cellwise
import Cellular.Proofs.Validation.Folded
import Cellular.Proofs.Engine.Restored
import Cellular.Proofs.Validation.Reported
import Cellular.Proofs.Validation.Canonical
import Cellular.Proofs.Validation.Replaced
import Cellular.Proofs.Engine.Counts
import Cellular.Proofs.Engine.Handshake
import Cellular.Proofs.Engine.Crowded
import Cellular.Proofs.Engine.Distant
import Cellular.Proofs.Condition.Reads
import Cellular.Proofs.Program.Rows
import Cellular.Proofs.Engine.Uncounted
import Cellular.Proofs.Condition.Listed
import Cellular.Proofs.Program.Lines
import Cellular.Proofs.Program.Relisted
import Cellular.Proofs.Validation.Registered
import Cellular.Proofs.Engine.Views
import Cellular.Proofs.Validation.Located
import Cellular.Proofs.Source.Minimal
import Cellular.Proofs.Tree.Recursion
