import Flowgraph.Fault
import Flowgraph.Workflow.Decode
import Flowgraph.Workflow.Wire

/-! The store of workflows and of the logs of their runs. A record keeps what was stored in its wire
form; times are kept without their zone. -/

namespace Flowgraph

structure WorkflowRecord where
  id : String
  name : String
  description : Option String
  version : String
  workflow : Value
  userId : Option String
  createdAt : Moment
  updatedAt : Moment

structure RunRecord where
  id : String
  workflowId : String
  startTime : Moment
  endTime : Option Moment
  status : RunStatus
  error : Option String
  log : Value
  createdAt : Moment

structure Store where
  /-- By id, in the order of their creation. -/
  workflows : Table WorkflowRecord := []
  runs : Table RunRecord := []
  /-- Whether the tables are there. -/
  available : Bool := true
  /-- So many updates of runs will find the store locked. -/
  lockedUpdates : Nat := 0

namespace Moment

/-- The reading of the clock alone. -/
def withoutZone (m : Moment) : Moment :=
  { m with zone := none }

end Moment

namespace WorkflowRecord

def make (w : Workflow) (userId : Option String) (now : Moment) : WorkflowRecord :=
  { id := w.id, name := w.name, description := w.description, version := w.version
    workflow := w.toWire, userId, createdAt := now, updatedAt := now }

/-- The record with a new snapshot. -/
def replace (r : WorkflowRecord) (w : Workflow) (now : Moment) : WorkflowRecord :=
  { r with
    name := w.name, description := w.description, version := w.version
    workflow := w.toWire, updatedAt := now }

def toValue (r : WorkflowRecord) : Value :=
  .object
    [("id", .text r.id), ("name", .text r.name), ("description", .ofOption .text r.description),
     ("version", .text r.version), ("workflow_json", r.workflow.toWire), ("user_id", .ofOption .text r.userId),
     ("created_at", .text r.createdAt.text), ("updated_at", .text r.updatedAt.text)]

end WorkflowRecord

namespace RunRecord

def make (log : ExecutionLog) (now : Moment) : RunRecord :=
  { id := log.executionId, workflowId := log.workflowId, startTime := log.startTime
    endTime := log.endTime, status := log.status, error := log.error, log := log.toWire, createdAt := now }

/-- The record with a new log; the run and its start stay. -/
def replace (r : RunRecord) (log : ExecutionLog) : RunRecord :=
  { r with endTime := log.endTime, status := log.status, error := log.error, log := log.toWire }

/-- The record as it is kept. -/
def kept (r : RunRecord) : RunRecord :=
  { r with startTime := r.startTime.withoutZone, endTime := r.endTime.map Moment.withoutZone }

def toValue (r : RunRecord) : Value :=
  .object
    [("id", .text r.id), ("workflow_id", .text r.workflowId), ("start_time", .text r.startTime.text),
     ("end_time", .ofOption (fun m => .text (Moment.text m)) r.endTime), ("status", .text r.status.name),
     ("error", .ofOption .text r.error), ("logs_json", r.log), ("created_at", .text r.createdAt.text)]

end RunRecord

namespace Store

/-- What a store keeps. -/
inductive Kind where
  | workflows
  | runs
  deriving DecidableEq, Repr

def Kind.table : Kind → String
  | workflows => "workflows"
  | runs => "execution_logs"

def Kind.label : Kind → String
  | workflows => "Workflow"
  | runs => "Execution log"

inductive Operation where
  | get
  | create
  | update
  | list
  deriving DecidableEq, Repr

def Operation.name : Operation → String
  | get => "get"
  | create => "create"
  | update => "update"
  | list => "list"

def particulars (kind : Kind) (operation : Operation) : Fields :=
  [("operation", .text operation.name), ("table", .text kind.table)]

def unavailable (kind : Kind) (operation : Operation) : Fault :=
  Fault.of .storage ("Failed to " ++ operation.name ++ " " ++ kind.table ++ " record") (particulars kind operation)

def notFound (kind : Kind) (operation : Operation) (id : String) : Fault :=
  Fault.of .storage (kind.label ++ " '" ++ id ++ "' not found")
    (particulars kind operation ++ [("not_found", .bool true)])

def alreadyExists (id : String) : Fault :=
  Fault.of .storage ("Workflow '" ++ id ++ "' already exists") (particulars .workflows .create)

def locked : Fault :=
  Fault.of .storage "database is locked" [("operation", .text Operation.update.name)]

def require (s : Store) (kind : Kind) (operation : Operation) : Except Fault Unit :=
  if s.available then .ok () else .error (unavailable kind operation)

/-- The latest first; of equal ones the earlier created. -/
def latestFirst {α : Type} (time : α → Moment) (records : List α) : List α :=
  records.mergeSort fun a b => (time b).micros ≤ (time a).micros

/-! Workflows -/

def workflowRecord (s : Store) (id : String) : Except Fault WorkflowRecord := do
  s.require .workflows .get
  match s.workflows.get? id with
  | some r => .ok r
  | none => .error (notFound .workflows .get id)

def workflow (s : Store) (id : String) : Except Mishap Workflow :=
  match s.workflowRecord id with
  | .ok r => Mishap.ofReading "Workflow" (Workflow.ofValue r.workflow)
  | .error f => .error (.fault f)

def createWorkflow (s : Store) (w : Workflow) (userId : Option String) (now : Moment) :
    Except Fault (Store × WorkflowRecord) := do
  s.require .workflows .create
  if s.workflows.contains w.id then .error (alreadyExists w.id)
  else
    let r := WorkflowRecord.make w userId now
    .ok ({ s with workflows := s.workflows.set w.id r }, r)

def updateWorkflow (s : Store) (w : Workflow) (now : Moment) : Except Fault (Store × WorkflowRecord) := do
  s.require .workflows .update
  match s.workflows.get? w.id with
  | none => .error (notFound .workflows .update w.id)
  | some old =>
    let r := old.replace w now
    .ok ({ s with workflows := s.workflows.set w.id r }, r)

/-- The workflows, maybe of one user only, the last updated first. -/
def workflowRecords (s : Store) (userId : Option String) : Except Fault (List WorkflowRecord) := do
  s.require .workflows .list
  let wanted (r : WorkflowRecord) : Bool := userId.all fun u => r.userId = some u
  .ok (latestFirst WorkflowRecord.updatedAt (s.workflows.values.filter wanted))

/-! Runs -/

def run (s : Store) (id : String) : Except Fault RunRecord := do
  s.require .runs .get
  match s.runs.get? id with
  | some r => .ok r
  | none => .error (notFound .runs .get id)

def createRun (s : Store) (log : ExecutionLog) (now : Moment) : Except Fault (Store × RunRecord) := do
  s.require .runs .create
  let r := RunRecord.make log now
  if s.runs.contains r.id then .error (unavailable .runs .create)
  else .ok ({ s with runs := s.runs.set r.id r.kept }, r)

def updateRun (s : Store) (log : ExecutionLog) : Except Fault (Store × RunRecord) := do
  s.require .runs .update
  match s.runs.get? log.executionId with
  | none => .error (notFound .runs .update log.executionId)
  | some old =>
    let r := old.replace log
    .ok ({ s with runs := s.runs.set r.id r.kept }, r)

/-- Record the present log of a run, unless the store is locked. -/
def recordRun (s : Store) (log : ExecutionLog) : Store × Except Fault Unit :=
  match s.lockedUpdates with
  | n + 1 => ({ s with lockedUpdates := n }, .error locked)
  | 0 =>
    match s.updateRun log with
    | .ok (s, _) => (s, .ok ())
    | .error f => (s, .error f)

/-- The runs of a workflow, the last started first. -/
def runsOf (s : Store) (workflowId : String) : Except Fault (List RunRecord) := do
  s.require .runs .list
  .ok (latestFirst RunRecord.startTime (s.runs.values.filter fun r => r.workflowId = workflowId))

/-- Remove the tables and all that is in them. -/
def drop (s : Store) : Store :=
  { s with workflows := [], runs := [], available := false }

end Store

end Flowgraph
