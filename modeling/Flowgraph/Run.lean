import Flowgraph.Run.Attempt
import Flowgraph.Run.Frontier
import Flowgraph.Validation
import Flowgraph.Workflow.Decode

/-! The course of a run. In every instant the tasks go on until all of them wait or have finished;
then the finished ones are handled together, in the order of the node list, and new ones are
started; then time moves to the next alarm. -/

namespace Flowgraph

/-! Cancelled tasks -/

/-- What the entry of a cancelled task gives as its error. -/
def Stop.interruption : Option Stop → String
  | some stop => if stop.status = .cancelled then "Cancelled before completion" else "Aborted: " ++ stop.reason
  | none => "Aborted: None"

/-- The entry of a node whose task was cancelled: if it still runs, it has failed. -/
def NodeLog.interrupted (time : Moment) (stop : Option Stop) (e : NodeLog) : NodeLog :=
  if e.status = .running then
    { e with
      status := .failed
      error := some (Stop.interruption stop)
      endTime := e.endTime <|> some time }
  else e

namespace Run

def markInterrupted (time : Moment) (id : String) (r : Run) : Run :=
  let r := { r with lost := r.lost ++ [id] }
  r.editEntry id (NodeLog.interrupted time r.stop)

/-! Handling of finished tasks -/

/-- Handle a finished task: a failure that nothing contains stops the run, otherwise its targets
are decided. A cancelled one is only marked. -/
def handle (time : Moment) (r : Run) (t : Task) : Run :=
  let id := t.node.id
  match t.phase with
  | .finished failed =>
    let contained := match r.graph.node? id with
      | some n => Policy.contains r.workflow r.graph n
      | none => true
    let error := ((r.entry? id).bind NodeLog.error).getD ""
    let r := if failed && !contained then r.stopWith .failed ("Node '" ++ id ++ "' failed: " ++ error) else r
    if r.stopped then r
    else
      let (r, freed) := r.resolveOutgoing id (if failed then .failed else .success)
      r.admitAll freed
  | _ => r.markInterrupted time id

/-- The finished tasks, in the order of the node list. -/
def batch (r : Run) : List Task :=
  (r.tasks.filter Task.isFinished).mergeSort fun a b =>
    r.graph.position a.node.id ≤ r.graph.position b.node.id

/-- Handle all finished tasks. -/
def handleBatch (time : Moment) (r : Run) : Run :=
  let finished := r.batch
  let r := { r with tasks := r.tasks.filter fun t => !t.isFinished }
  let r := finished.foldl (handle time) r
  { r with ready := r.graph.sortByPosition r.ready }

/-! Starting tasks -/

/-- Start a node: from now on it has an entry in the log. -/
def startNode (time : Moment) (id : String) (r : Run) : Run :=
  match r.graph.node? id with
  | none => r
  | some n =>
    let r := r.addEntry { nodeId := id, status := .running, startTime := some time }
    let task : Task := { node := n, inputs := [], credentials := .null, phase := .fresh }
    { r with tasks := r.tasks ++ [task] }.enqueue id

/-- Start ready nodes while there is room; `steps` bounds their number. -/
def startReady (limit : Nat) (time : Moment) : Nat → Run → Run
  | 0, r => r
  | steps + 1, r =>
    match r.ready with
    | [] => r
    | id :: rest =>
      if r.tasks.length < limit then startReady limit time steps ({ r with ready := rest }.startNode time id)
      else r

/-! The end of a run -/

/-- Cancel a task that has not ended. One that has not begun has nothing to close. -/
def unwind (time : Moment) (t : Task) (r : Run) : Run :=
  match t.phase with
  | .fresh => r.setPhase t.node.id .unwound
  | .finished _ | .unwound => r
  | _ => r.close t.node.id time .unwound

/-- A task that is still in flight when the run stops is cancelled and marked. -/
def interrupt (time : Moment) (r : Run) (t : Task) : Run :=
  match t.phase with
  | .finished _ => r
  | _ => (r.unwind time t).markInterrupted time t.node.id

/-- Interrupt all tasks when the run has stopped. -/
def drain (time : Moment) (r : Run) : Run :=
  match r.stop with
  | none => r
  | some _ => { r.tasks.foldl (interrupt time) r with tasks := [], agenda := [] }

/-- Pending nodes are skipped, in an order that respects the connections if there is one. -/
def skipPending (r : Run) : Run :=
  let order := match r.graph.topologicalOrder with
    | .ok order => order
    | .error _ => r.graph.nodeIds
  order.foldl (fun r id => if (r.entry? id).isSome then r else r.skip id) r

def failedNodes (r : Run) : List String :=
  (r.log.nodeLogs.filter fun e => e.status = .failed).map NodeLog.nodeId

/-- Stamp the terminal status. -/
def finalize (time : Moment) (r : Run) : Run :=
  let ended (status : RunStatus) (error : Option String) : Run :=
    { r with log := { r.log with status, error, endTime := some time } }
  match r.stop with
  | some stop => ended stop.status (some stop.reason)
  | none =>
    if r.failedNodes.isEmpty then ended .success none
    else ended .failed (some ("Nodes failed: " ++ ", ".intercalate r.failedNodes))

def complete (time : Moment) (r : Run) : Run :=
  if r.isFinished then r else ((r.drain time).skipPending).finalize time

/-- End a run from outside. -/
def halt (time : Moment) (status : RunStatus) (reason : String) (r : Run) : Run :=
  (r.stopWith status reason).complete time

/-- The reason that a cancelled run gives. -/
def cancelReason : String :=
  "Execution cancelled"

def cancel (time : Moment) (r : Run) : Run :=
  r.halt time .cancelled cancelReason

/-! Turns -/

/-- Nothing goes on in the present instant: start what is ready, or end. -/
def proceed (engine : Engine) (now : Nat) (r : Run) : Run :=
  let time := engine.moment now
  if r.stopped then r.complete time
  else
    let r := startReady engine.limit time r.ready.length r
    if r.tasks.isEmpty then r.complete time else r

/-- Decide the nodes without sources and start the first ones. -/
def launch (engine : Engine) (now : Nat) (r : Run) : Run :=
  (r.admitAll r.graph.roots).proceed engine now

/-- Whether something happens in the present instant. -/
def isBusy (r : Run) : Bool :=
  !r.isFinished && (!r.agenda.isEmpty || r.tasks.any Task.isFinished)

/-- One turn: the next task goes on, or the finished ones are handled when none does. -/
def turn (engine : Engine) (now : Nat) (r : Run) : Run :=
  match r.agenda with
  | id :: rest =>
    let r := { r with agenda := rest }
    match r.task? id with
    | some t => r.goOn engine now t
    | none => r
  | [] => (r.handleBatch (engine.moment now)).proceed engine now

/-- Turns that one node can take at most: each attempt takes six. -/
def nodeTurns (engine : Engine) (r : Run) (n : Node) : Nat :=
  6 * ((Policy.resolve r.workflow n engine.defaultTimeout).retries + 2) + 2

/-- Turns that a run can take at most. -/
def turns (engine : Engine) (r : Run) : Nat :=
  r.graph.nodes.foldl (fun total n => total + r.nodeTurns engine n) 1

/-- Take turns until nothing happens in the present instant. -/
def settle (engine : Engine) (now : Nat) : Nat → Run → Run
  | 0, r => r
  | steps + 1, r => if r.isBusy then settle engine now steps (r.turn engine now) else r

/-! Time -/

/-- The alarms that are set, with their tasks, earliest first. -/
def alarms (r : Run) : List (Alarm × Task) :=
  (r.tasks.flatMap fun t => t.alarms.map fun a => (a, t)).mergeSort fun a b => a.1.before b.1

/-- The instant of the next alarm. -/
def nextDue? (r : Run) : Option Nat :=
  if r.isFinished then none else r.alarms.head?.map fun a => a.1.due

/-- Ring the alarms that are due, each for the task as it is by then. -/
def ringDue (engine : Engine) (now : Nat) (r : Run) : Run :=
  (r.alarms.filter fun a => a.1.due ≤ now).foldl
    (fun r a =>
      match r.task? a.2.node.id with
      | some t => r.ring engine t a.1
      | none => r)
    r

/-- Move to an instant at which alarms are due, and settle. -/
def wake (engine : Engine) (now : Nat) (r : Run) : Run :=
  settle engine now (r.turns engine) (r.ringDue engine now)

/-- Launch a run and settle its first instant. -/
def begin (engine : Engine) (now : Nat) (r : Run) : Run :=
  settle engine now (r.turns engine) (r.launch engine now)

/-- Go on from alarm to alarm until the run has finished, or up to an instant. -/
def runTo (engine : Engine) (horizon : Option Nat) : Nat → Run → Run
  | 0, r => r
  | steps + 1, r =>
    match r.nextDue? with
    | some now =>
      if horizon.all (now ≤ ·) then runTo engine horizon steps (r.wake engine now) else r
    | none => r

def advance (engine : Engine) (horizon : Option Nat) (r : Run) : Run :=
  r.runTo engine horizon (r.turns engine)

end Run

/-! Refusals -/

/-- The id that the log of a refused workflow shows. -/
def claimedId (v : Value) : String :=
  match v.field? "id" with
  | some id => if id.truthy then id.display else "unknown"
  | none => "unknown"

/-- The workflow to run, or everything that is wrong with it. -/
def prepareWorkflow (v : Value) (validated : Bool) : Except (List String) Workflow :=
  let report := validate v
  if !validated && !report.valid then .error report.messages
  else
    match Workflow.ofValue v with
    | .accepted w => .ok w
    | .rejected issues => .error (issues.map fun i => i.path ++ ": " ++ i.problem.message)

/-- The log of a workflow that is not run. -/
def refusal (executionId workflowId : String) (problems : List String) (time : Moment) : ExecutionLog :=
  { executionId, workflowId, startTime := time, endTime := some time, status := .failed
    error := some ("Workflow validation failed: " ++ "; ".intercalate problems) }

/-- Run a workflow to its end. -/
def Engine.execute (engine : Engine) (w : Workflow) (inputs secrets : Fields) (executionId : String)
    (now : Nat) : ExecutionLog :=
  let r := Run.start w inputs secrets executionId (engine.moment now)
  ((r.begin engine now).advance engine none).log

/-- Run a workflow to its end when it is valid, or is taken to be; else refuse it. -/
def Engine.executeChecked (engine : Engine) (w : Workflow) (inputs secrets : Fields)
    (executionId : String) (now : Nat) (validated : Bool) : ExecutionLog :=
  if validated || w.validate.valid then engine.execute w inputs secrets executionId now
  else refusal executionId w.id w.validate.messages (engine.moment now)

/-- Run a raw workflow to its end, or refuse it. -/
def Engine.executeValue (engine : Engine) (v : Value) (inputs secrets : Fields)
    (executionId : String) (now : Nat) (validated : Bool) : ExecutionLog :=
  match prepareWorkflow v validated with
  | .ok w => engine.execute w inputs secrets executionId now
  | .error problems => refusal executionId (claimedId v) problems (engine.moment now)

end Flowgraph
