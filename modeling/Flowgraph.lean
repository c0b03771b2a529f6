import Flowgraph.Assistant
import Flowgraph.Backoff
import Flowgraph.Capability
import Flowgraph.Capability.Builtin
import Flowgraph.Compile
import Flowgraph.Configuration
import Flowgraph.Decimal.Nearest
import Flowgraph.Decimal.Notation
import Flowgraph.Decimal.Numeral
import Flowgraph.Decimal.Shortest
import Flowgraph.Dependency
import Flowgraph.Document
import Flowgraph.Document.Emit
import Flowgraph.Edit
import Flowgraph.Emission
import Flowgraph.Environment
import Flowgraph.Environment.Binding
import Flowgraph.Expression.Complex
import Flowgraph.Expression.Datum
import Flowgraph.Expression.Display
import Flowgraph.Expression.Eval
import Flowgraph.Expression.Format
import Flowgraph.Expression.Function
import Flowgraph.Expression.Marks
import Flowgraph.Expression.Operator
import Flowgraph.Expression.Parser
import Flowgraph.Expression.Quotation
import Flowgraph.Expression.Syntax
import Flowgraph.Expression.Token
import Flowgraph.Failure
import Flowgraph.Fault
import Flowgraph.Graph
import Flowgraph.Log
import Flowgraph.Log.Level
import Flowgraph.Moment
import Flowgraph.Moment.Reading
import Flowgraph.Naming
import Flowgraph.Number
import Flowgraph.Numbering
import Flowgraph.Policy
import Flowgraph.Program
import Flowgraph.Program.Grammar
import Flowgraph.Program.Lexical
import Flowgraph.Program.Preamble
import Flowgraph.Program.Step
import Flowgraph.Proofs.Graph
import Flowgraph.Proofs.Run.View
import Flowgraph.Run
import Flowgraph.Run.Attempt
import Flowgraph.Run.Basic
import Flowgraph.Run.Frontier
import Flowgraph.Scope
import Flowgraph.Scope.Guard
import Flowgraph.Scope.Reference
import Flowgraph.Service
import Flowgraph.Service.Endpoint
import Flowgraph.Service.Payload
import Flowgraph.Service.Request
import Flowgraph.Service.Response
import Flowgraph.Session
import Flowgraph.Store
import Flowgraph.Table
import Flowgraph.Text.Blank
import Flowgraph.Text.Digit
import Flowgraph.Text.Identifier
import Flowgraph.Text.LetterCase
import Flowgraph.Text.Printable
import Flowgraph.Text.Quoted
import Flowgraph.Text.Ranges
import Flowgraph.Text.Word
import Flowgraph.Validation
import Flowgraph.Validation.Acceptance
import Flowgraph.Validation.Cycle
import Flowgraph.Validation.Report
import Flowgraph.Value
import Flowgraph.Value.Collect
import Flowgraph.Value.Json
import Flowgraph.Value.Literal
import Flowgraph.Workflow.Basic
import Flowgraph.Workflow.Decode
import Flowgraph.Workflow.Issue
import Flowgraph.Workflow.Scalar
import Flowgraph.Workflow.Wire
import Flowgraph.Proofs.Run.Work
import Flowgraph.Proofs.Run.Front
import Flowgraph.Proofs.Run.Sound
import Flowgraph.Proofs.Run.Beat
import Flowgraph.Proofs.Run.Handling
import Flowgraph.Proofs.Run.Start
import Flowgraph.Proofs.Run.Finish
import Flowgraph.Proofs.Run.Step
import Flowgraph.Proofs.Run.Rank
import Flowgraph.Proofs.Run.Coverage
import Flowgraph.Proofs.Run.Course
import Flowgraph.Proofs.Run.Life
import Flowgraph.Proofs.Validation.Cycle
import Flowgraph.Proofs.Validation.Payload
import Flowgraph.Proofs.Validation.Model
import Flowgraph.Proofs.Run.Fate
import Flowgraph.Proofs.Run.Confluence
import Flowgraph.Proofs.Validation.Normal
import Flowgraph.Proofs.Validation.Verdict
import Flowgraph.Proofs.Program.Reading
import Flowgraph.Proofs.Failing
import Flowgraph.Proofs.Naming
import Flowgraph.Proofs.Document.Steps
import Flowgraph.Proofs.Document.Wiring
import Flowgraph.Proofs.Document.Reading
import Flowgraph.Proofs.Document.Drawing
import Flowgraph.Proofs.Document.Contraction
import Flowgraph.Proofs.Run.Pace
import Flowgraph.Proofs.Run.Shift
import Flowgraph.Proofs.Run.ShiftedCourse
import Flowgraph.Proofs.Session.Members
import Flowgraph.Proofs.Session.Projection
import Flowgraph.Proofs.Session.Isolation
import Flowgraph.Proofs.Outcome
import Flowgraph.Proofs.Numbering
import Flowgraph.Proofs.Edit.Effect
import Flowgraph.Proofs.Edit.Validity
import Flowgraph.Proofs.Scope.Write
import Flowgraph.Proofs.Scope.History
import Flowgraph.Proofs.Text.Line
import Flowgraph.Proofs.Program.Lines
import Flowgraph.Proofs.Run.Identity
import Flowgraph.Proofs.Session.Logging
import Flowgraph.Proofs.Service.Recording
import Flowgraph.Proofs.Service.Work
import Flowgraph.Proofs.Service.Refusal
import Flowgraph.Proofs.Service.History
import Flowgraph.Proofs.Wire.Field
import Flowgraph.Proofs.Wire.RoundTrip
import Flowgraph.Proofs.Store.History
import Flowgraph.Proofs.Run.Admission
import Flowgraph.Proofs.Run.Occupancy
import Flowgraph.Proofs.Scope.Template
import Flowgraph.Proofs.Run.Account
import Flowgraph.Proofs.Run.Condition
import Flowgraph.Proofs.Value.Entries
import Flowgraph.Proofs.Assistant
import Flowgraph.Proofs.Session.Activity
import Flowgraph.Proofs.Run.Passage
import Flowgraph.Proofs.Run.Deed
import Flowgraph.Proofs.Run.Moves
import Flowgraph.Proofs.Run.Winding
import Flowgraph.Proofs.Run.Effect
import Flowgraph.Proofs.Run.Verdict
import Flowgraph.Proofs.Run.Grain
import Flowgraph.Proofs.Run.Timeline
import Flowgraph.Proofs.Run.Agreement
import Flowgraph.Proofs.Table
import Flowgraph.Proofs.Validation.Search
import Flowgraph.Proofs.Validation.Circular
import Flowgraph.Proofs.Graph.Counting
import Flowgraph.Proofs.Graph.Order
import Flowgraph.Proofs.Graph.Stage
import Flowgraph.Proofs.Program.Calls
import Flowgraph.Proofs.Program.Entry
import Flowgraph.Proofs.Backoff
import Flowgraph.Proofs.Run.Tally
import Flowgraph.Proofs.Run.Attempts
import Flowgraph.Proofs.Run.Budget
import Flowgraph.Proofs.Text.Ranges
import Flowgraph.Proofs.Scope.Guard
import Flowgraph.Proofs.Scope.ReadBack
import Flowgraph.Proofs.Decimal
import Flowgraph.Proofs.Document.Outcome
import Flowgraph.Proofs.Compile
import Flowgraph.Proofs.Program.Token
import Flowgraph.Proofs.Program.Surface
import Flowgraph.Proofs.Program.Pieces
import Flowgraph.Proofs.Program.Composed
import Flowgraph.Proofs.Program.Acceptance
import Flowgraph.Proofs.Program.HeadLine
import Flowgraph.Proofs.Document.Identity
import Flowgraph.Proofs.Document.Containment
import Flowgraph.Proofs.Edit.Update
import Flowgraph.Proofs.Edit.Refusal
import Flowgraph.Proofs.Edit.Reorder
import Flowgraph.Proofs.Edit.Undo
import Flowgraph.Proofs.Scope.Path
import Flowgraph.Proofs.Scope.Substitution
import Flowgraph.Proofs.Run.Ledger
import Flowgraph.Proofs.Program.Definitions
import Flowgraph.Proofs.Program.Names
import Flowgraph.Proofs.Configuration
