import Flowgraph.Backoff
import Flowgraph.Capability
import Flowgraph.Policy

/-! Runs of workflows: the state of one run between two of its steps. A node is pending while it
has no entry in the log; the tasks are the nodes that have been started and not yet handled. -/

namespace Flowgraph

/-- What runs have in common. Times are counted in microseconds from the epoch. -/
structure Engine where
  registry : Registry
  /-- Tasks that may be in flight at once. -/
  limit : Nat
  /-- The time limit in milliseconds of nodes for which nothing else sets one. -/
  defaultTimeout : Int
  backoff : Backoff
  epoch : Moment
  /-- What goes wrong when a value is copied for the log. Executors may return what cannot be copied. -/
  copyFault? : Value → Option Failure := fun _ => none

namespace Engine

def make (registry : Registry) (limit : Int) (defaultTimeout : Int) (backoff : Backoff) (epoch : Moment) :
    Except Failure Engine :=
  if limit < 1 then Failure.badValue "max_concurrency must be at least 1"
  else .ok { registry, limit := limit.toNat, defaultTimeout, backoff, epoch }

def moment (e : Engine) (now : Nat) : Moment :=
  e.epoch.later now

/-- The executor of a node. -/
def executor? (e : Engine) (n : Node) : Option Executor :=
  (e.registry.find? n).bind Capability.executor

end Engine

/-- What a connection means for its target once its source has finished. -/
inductive EdgeState where
  | satisfied
  | dead
  /-- The guard of the connection decides. -/
  | gated
  deriving DecidableEq, Repr

/-- When something is due; of two alarms for one instant the one set first rings first. -/
structure Alarm where
  due : Nat
  order : Nat
  deriving DecidableEq, Repr

def Alarm.before (a b : Alarm) : Bool :=
  if a.due = b.due then a.order ≤ b.order else a.due < b.due

/-- What a task does next, or what it waits for. -/
inductive Phase where
  /-- Inputs are to be resolved. -/
  | fresh
  /-- The executor is to be called. -/
  | calling (attempt : Nat) (limit : Alarm)
  /-- The executor is waiting, or about to act. -/
  | working (attempt : Nat) (act : Action) (wake : Option Alarm) (limit : Alarm)
  /-- The executor has returned; its caller has not yet been told. -/
  | returning (attempt : Nat) (result : Except Failure Value)
  /-- The outcome of an attempt is to be recorded. -/
  | returned (attempt : Nat) (result : Except Failure Value)
  /-- The next attempt is being waited for. -/
  | resting (attempt : Nat) (wake : Option Alarm)
  | finished (failed : Bool)
  /-- Cancelled: it is closed, and its entry does not show yet how it ended. -/
  | unwound

structure Task where
  node : Node
  inputs : Fields
  credentials : Value
  phase : Phase

namespace Task

def isFinished (t : Task) : Bool :=
  match t.phase with
  | .finished _ | .unwound => true
  | _ => false

/-- The alarms that are set for a task. -/
def alarms (t : Task) : List Alarm :=
  match t.phase with
  | .calling _ limit => [limit]
  | .working _ _ wake limit => wake.toList ++ [limit]
  | .resting _ wake => wake.toList
  | _ => []

end Task

/-- Why a run has stopped early. -/
structure Stop where
  status : RunStatus
  reason : String
  deriving DecidableEq, Repr

structure Run where
  workflow : Workflow
  graph : Graph
  secrets : Fields
  /-- The log so far; its entries are those of the nodes that are no longer pending. -/
  log : ExecutionLog
  scope : Scope
  /-- For every node, how many of its sources have not been resolved. -/
  unresolved : Table Nat
  edgeStates : Table EdgeState
  /-- Nodes that may run and have not been started. -/
  ready : List String
  /-- In the order in which they were started. -/
  tasks : List Task
  /-- The tasks that go on in the present instant, in order. -/
  agenda : List String
  /-- Counts the alarms that have been set. -/
  alarmCount : Nat
  stop : Option Stop
  /-- Nodes whose tasks were cancelled; what comes behind them is never told. -/
  lost : List String

namespace Run

/-- A run before its first step. -/
def start (w : Workflow) (inputs secrets : Fields) (executionId : String) (time : Moment) : Run :=
  let graph := Graph.ofWorkflow w
  { workflow := w
    graph
    secrets
    log := { executionId, workflowId := w.id, startTime := time }
    scope := Scope.make w.vars inputs
    unresolved := graph.nodeIds.map fun id => (id, (graph.sources id).length)
    edgeStates := []
    ready := []
    tasks := []
    agenda := []
    alarmCount := 0
    stop := none
    lost := [] }

def stopped (r : Run) : Bool :=
  r.stop.isSome

def isFinished (r : Run) : Bool :=
  r.log.isFinished

def entry? (r : Run) (id : String) : Option NodeLog :=
  r.log.nodeLog? id

def task? (r : Run) (id : String) : Option Task :=
  r.tasks.find? fun t => t.node.id = id

/-- Only the first stop counts. -/
def stopWith (r : Run) (status : RunStatus) (reason : String) : Run :=
  match r.stop with
  | some _ => r
  | none => { r with stop := some ⟨status, reason⟩ }

def addEntry (r : Run) (entry : NodeLog) : Run :=
  { r with log := { r.log with nodeLogs := r.log.nodeLogs ++ [entry] } }

def editEntry (r : Run) (id : String) (f : NodeLog → NodeLog) : Run :=
  { r with
    log := { r.log with nodeLogs := r.log.nodeLogs.map fun e => if e.nodeId = id then f e else e } }

def setPhase (r : Run) (id : String) (phase : Phase) : Run :=
  { r with tasks := r.tasks.map fun t => if t.node.id = id then { t with phase := phase } else t }

/-- Let a task go on in the present instant, after those that already do. -/
def enqueue (r : Run) (id : String) : Run :=
  { r with agenda := r.agenda ++ [id] }

/-- A new alarm, so many microseconds from now. -/
def setAlarm (r : Run) (now micros : Nat) : Run × Alarm :=
  ({ r with alarmCount := r.alarmCount + 1 }, ⟨now + micros, r.alarmCount⟩)

end Run

end Flowgraph
