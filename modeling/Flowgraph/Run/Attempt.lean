import Flowgraph.Run.Basic
import Flowgraph.Scope.Reference

/-! The attempts of a task: inputs are resolved once, then the executor is called until it
succeeds or the retry budget is spent, each time under the node's time limit. -/

namespace Flowgraph

/-- Seconds in microseconds, to the nearest; none when there is no such instant. -/
def microsOf (seconds : Number) : Option Int :=
  let ratio : Option (Int × Nat) :=
    match seconds with
    | .int n => some (n, 1)
    | .float x => Decimal.ratioOf? x
  ratio.map fun q =>
    let n := q.1 * 1000000
    let d : Int := q.2
    let whole := n.fdiv d
    let rest := 2 * (n - whole * d)
    if d < rest then whole + 1 else if rest < d then whole else whole + whole % 2

/-- Outputs are an object; anything else is the output `result`. -/
def outputsOf : Value → Fields
  | .null => []
  | .object fs => fs
  | v => [("result", v)]

/-- The secret for a node's credentials, looked up by id and then by name. -/
def credentialsOf (n : Node) (secrets : Fields) : Value :=
  match n.credentials with
  | none => .null
  | some c =>
    let named (key : Option String) : Option Value :=
      (key.filter (· ≠ "")).bind fun k => secrets.get? k
    (named c.id <|> named c.name).getD .null

namespace Run

def timeoutFailure (id : String) (timeout : Int) : Failure :=
  ⟨.runtime, "Node '" ++ id ++ "' timed out after " ++ toString timeout ++ " ms"⟩

/-- Close a task: its layer of variables goes, its end is stamped. -/
def close (r : Run) (id : String) (time : Moment) (phase : Phase) : Run :=
  let r := { r with scope := r.scope.exit id }
  let r := r.editEntry id fun e => { e with endTime := some time }
  r.setPhase id phase

def failTask (r : Run) (id : String) (time : Moment) (f : Failure) : Run :=
  (r.editEntry id fun e => { e with status := .failed, error := some f.describe }).close id time (.finished true)

/-- The outputs are recorded before they are copied for the log. -/
def succeedTask (engine : Engine) (r : Run) (id : String) (time : Moment) (outputs : Fields) : Run :=
  let r := { r with scope := r.scope.recordOutput id outputs }
  match engine.copyFault? (.object outputs) with
  | some f => r.failTask id time f
  | none =>
    (r.editEntry id fun e => { e with status := .success, outputs := some outputs }).close id time (.finished false)

/-- Begin an attempt. A time limit that is not positive has passed before the executor is called. -/
def beginAttempt (engine : Engine) (now : Nat) (n : Node) (attempt : Nat) (r : Run) : Run :=
  let policy := Policy.resolve r.workflow n engine.defaultTimeout
  let r := r.editEntry n.id fun e => { e with retries := attempt - 1 }
  if policy.timeout ≤ 0 then
    (r.setPhase n.id (.returned attempt (.error (timeoutFailure n.id policy.timeout)))).enqueue n.id
  else
    let (r, limit) := r.setAlarm now (policy.timeout.toNat * 1000)
    (r.setPhase n.id (.calling attempt limit)).enqueue n.id

def prepare (r : Run) (t : Task) (inputs : Fields) : Run :=
  let credentials := credentialsOf t.node r.secrets
  { r with
    scope := r.scope.enter t.node.id inputs
    tasks := r.tasks.map fun u => if u.node.id = t.node.id then { u with inputs, credentials } else u }

/-- Resolve the inputs of a new task and begin its first attempt. -/
def resolveTask (engine : Engine) (now : Nat) (t : Task) (r : Run) : Run :=
  let id := t.node.id
  let time := engine.moment now
  match r.scope.fillFields (some id) t.node.inputs with
  | .error f => r.failTask id time f
  | .ok inputs =>
    match engine.copyFault? (.object inputs) with
    | some f => r.failTask id time f
    | none =>
      let r := r.editEntry id fun e => { e with inputs := some inputs }
      match engine.executor? t.node with
      | none =>
        r.failTask id time
          ⟨.runtime, "No executor registered for '" ++ t.node.capabilityName ++ "'"⟩
      | some _ => (r.prepare t inputs).beginAttempt engine now t.node 1

/-- Run an action on the variables; its caller is told next. -/
def runAction (r : Run) (id : String) (attempt : Nat) (act : Action) : Run :=
  let (scope, result) := act r.scope
  ({ r with scope }.setPhase id (.returning attempt result)).enqueue id

def callExecutor (engine : Engine) (now : Nat) (t : Task) (attempt : Nat) (limit : Alarm) (r : Run) : Run :=
  let id := t.node.id
  match engine.executor? t.node with
  | none => r
  | some executor =>
    let invocation : Invocation :=
      { node := t.node, inputs := t.inputs, credentials := t.credentials, runId := r.log.executionId, attempt }
    match executor.perform invocation with
    | .now act => r.runAction id attempt act
    | .after seconds act =>
      match microsOf seconds with
      | none => r.setPhase id (.working attempt act none limit)
      | some micros =>
        if micros ≤ 0 then (r.setPhase id (.working attempt act none limit)).enqueue id
        else
          let (r, wake) := r.setAlarm now micros.toNat
          r.setPhase id (.working attempt act (some wake) limit)

/-- Wait for the next attempt. -/
def rest (now : Nat) (id : String) (attempt : Nat) (delay : Number) (r : Run) : Run :=
  match microsOf delay with
  | none => r.setPhase id (.resting attempt none)
  | some micros =>
    if micros ≤ 0 then (r.setPhase id (.resting attempt none)).enqueue id
    else
      let (r, wake) := r.setAlarm now micros.toNat
      r.setPhase id (.resting attempt (some wake))

/-- Record the outcome of an attempt: success ends the task, failure ends it when the budget is
spent or no waiting time can be computed. An attempt that was cancelled is not made again. -/
def recordAttempt (engine : Engine) (now : Nat) (t : Task) (attempt : Nat) (result : Except Failure Value)
    (r : Run) : Run :=
  let id := t.node.id
  let time := engine.moment now
  match result with
  | .ok v => r.succeedTask engine id time (outputsOf v)
  | .error f =>
    let policy := Policy.resolve r.workflow t.node engine.defaultTimeout
    if f.kind = .cancelled then r.close id time .unwound
    else if attempt ≤ policy.retries then
      match engine.backoff.delay attempt with
      | .ok delay => r.rest now id attempt delay
      | .error g => r.failTask id time g
    else r.failTask id time f

/-- Let a task go on until it waits or hands over. -/
def goOn (engine : Engine) (now : Nat) (t : Task) (r : Run) : Run :=
  let id := t.node.id
  match t.phase with
  | .fresh => r.resolveTask engine now t
  | .calling attempt limit => r.callExecutor engine now t attempt limit
  | .working attempt act _ _ => r.runAction id attempt act
  | .returning attempt result => (r.setPhase id (.returned attempt result)).enqueue id
  | .returned attempt result => r.recordAttempt engine now t attempt result
  | .resting attempt _ => r.beginAttempt engine now t.node (attempt + 1)
  | .finished _ | .unwound => r

/-- An alarm rings: a wait is over, or an attempt has run out of time. A synchronous executor may still
have been waiting for a worker then; it is not called any more. -/
def ring (engine : Engine) (t : Task) (alarm : Alarm) (r : Run) : Run :=
  let id := t.node.id
  let timedOut (attempt : Nat) : Run :=
    let policy := Policy.resolve r.workflow t.node engine.defaultTimeout
    r.setPhase id (.returned attempt (.error (timeoutFailure id policy.timeout)))
  match t.phase with
  | .calling attempt limit =>
    if limit = alarm && (engine.executor? t.node).any fun executor => !executor.isAsync then timedOut attempt else r
  | .working attempt act wake limit =>
    if wake = some alarm then (r.setPhase id (.working attempt act none limit)).enqueue id
    else if limit = alarm then (timedOut attempt).enqueue id
    else r
  | .resting attempt wake =>
    if wake = some alarm then (r.setPhase id (.resting attempt none)).enqueue id else r
  | _ => r

end Run

end Flowgraph
