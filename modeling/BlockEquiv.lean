import BlockEquiv.Compare.Budget
import BlockEquiv.Compare.Decision
import BlockEquiv.Compare.Divergence
import BlockEquiv.Compare.Event
import BlockEquiv.Compare.Ledger
import BlockEquiv.Compare.Mapping
import BlockEquiv.Compare.Outcome
import BlockEquiv.Compare.Outer
import BlockEquiv.Compare.Structural
import BlockEquiv.Compare.Sync
import BlockEquiv.Config
import BlockEquiv.Datum
import BlockEquiv.Encoding.Instruction
import BlockEquiv.Encoding.Integer
import BlockEquiv.Encoding.Snippet
import BlockEquiv.Encoding.Value
import BlockEquiv.Float.Arithmetic
import BlockEquiv.Float.Format
import BlockEquiv.Float.Value
import BlockEquiv.Ir.Block
import BlockEquiv.Ir.Builder
import BlockEquiv.Ir.Error
import BlockEquiv.Ir.Instruction
import BlockEquiv.Ir.Opcode
import BlockEquiv.Ir.Predicate
import BlockEquiv.Ir.Program
import BlockEquiv.Ir.Type
import BlockEquiv.Ir.Value
import BlockEquiv.Number
import BlockEquiv.Proofs.Alike
import BlockEquiv.Proofs.Annotation
import BlockEquiv.Proofs.Arithmetic
import BlockEquiv.Proofs.Assertion
import BlockEquiv.Proofs.Chain
import BlockEquiv.Proofs.Comparison
import BlockEquiv.Proofs.Consistency
import BlockEquiv.Proofs.Constants
import BlockEquiv.Proofs.Content
import BlockEquiv.Proofs.Correspondence
import BlockEquiv.Proofs.Course
import BlockEquiv.Proofs.Deadline
import BlockEquiv.Proofs.DebugInfo
import BlockEquiv.Proofs.Decision
import BlockEquiv.Proofs.Divergence
import BlockEquiv.Proofs.Encoding
import BlockEquiv.Proofs.Execution
import BlockEquiv.Proofs.Exhaustion
import BlockEquiv.Proofs.Flags
import BlockEquiv.Proofs.FloatOrder
import BlockEquiv.Proofs.Interpretation
import BlockEquiv.Proofs.Invariance
import BlockEquiv.Proofs.Inversion
import BlockEquiv.Proofs.Isomorphism
import BlockEquiv.Proofs.Lockstep
import BlockEquiv.Proofs.Matching
import BlockEquiv.Proofs.Meaning
import BlockEquiv.Proofs.PlainText
import BlockEquiv.Proofs.Question
import BlockEquiv.Proofs.Recording
import BlockEquiv.Proofs.Renaming
import BlockEquiv.Proofs.Restoration
import BlockEquiv.Proofs.Resumption
import BlockEquiv.Proofs.Ruling
import BlockEquiv.Proofs.Saturation
import BlockEquiv.Proofs.Scanning
import BlockEquiv.Proofs.Scope
import BlockEquiv.Proofs.Search
import BlockEquiv.Proofs.Session
import BlockEquiv.Proofs.Settings
import BlockEquiv.Proofs.Soundness
import BlockEquiv.Proofs.StraightLine
import BlockEquiv.Proofs.Submission
import BlockEquiv.Proofs.Symmetry
import BlockEquiv.Proofs.Synchronization
import BlockEquiv.Proofs.Termination
import BlockEquiv.Proofs.Terms
import BlockEquiv.Proofs.Traces
import BlockEquiv.Proofs.Typing
import BlockEquiv.Proofs.Variables
import BlockEquiv.Proofs.Vector
import BlockEquiv.Proofs.Walk
import BlockEquiv.Proofs.Widening
import BlockEquiv.Proofs.Wrapping
import BlockEquiv.Solver.Blast
import BlockEquiv.Solver.Circuit
import BlockEquiv.Solver.Decide
import BlockEquiv.Solver.FloatWord
import BlockEquiv.Solver.Net
import BlockEquiv.Solver.Polynomial
import BlockEquiv.Solver.Possible
import BlockEquiv.Solver.Search
import BlockEquiv.Solver.Table
import BlockEquiv.Solver.Word
import BlockEquiv.Term.Basic
import BlockEquiv.Term.Printer
import BlockEquiv.Term.Semantics
import BlockEquiv.Term.Sorted
import BlockEquiv.Text.Decimal
import BlockEquiv.Text.Printable
import BlockEquiv.Text.Quoted
import BlockEquiv.Text.Real
import BlockEquiv.Text.Upper
import BlockEquiv.Text.Whole
import BlockEquiv.Yaml.Cursor
import BlockEquiv.Yaml.Node
import BlockEquiv.Yaml.Scalar
import BlockEquiv.Yaml.Tag
import BlockEquiv.Yaml.Token
import BlockEquiv.Yaml.Value
