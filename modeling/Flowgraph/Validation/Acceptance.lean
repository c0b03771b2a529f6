import Flowgraph.Fault
import Flowgraph.Validation
import Flowgraph.Workflow.Decode

/-! Acceptance of workflows: only valid ones go on, everything else is a fault. -/

namespace Flowgraph

namespace Acceptance

def refuse {α : Type} (head problem : String) (findings : List Finding) (id : Value) : Except Mishap α :=
  Mishap.raise .validation (head ++ ": " ++ problem)
    [("workflow_id", id), ("validation_errors", .list (findings.map Report.findingToWire))]

/-- Nothing when a report is that of a valid workflow. -/
def require (head : String) (report : Report) (id : Value) : Except Mishap Unit :=
  if report.valid then .ok ()
  else refuse head ("; ".intercalate report.messages) report.errors id

end Acceptance

open Acceptance

def Workflow.accept (head : String) (w : Workflow) : Except Mishap Workflow := do
  require head w.validate (.text w.id)
  pure w

/-- Accept a payload, and read it. -/
def Workflow.acceptFields (head : String) (fs : Fields) : Except Mishap Workflow := do
  let id := fs.getD "id" .null
  require head (Flowgraph.validate (.object fs)) id
  match Workflow.ofValue (.object fs) with
  | .accepted w => pure w
  | .rejected issues => refuse head (Issue.firstMessage issues) [] id

end Flowgraph
