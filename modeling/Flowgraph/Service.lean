import Flowgraph.Assistant
import Flowgraph.Compile
import Flowgraph.Configuration
import Flowgraph.Log
import Flowgraph.Service.Endpoint
import Flowgraph.Service.Payload
import Flowgraph.Service.Response
import Flowgraph.Session
import Flowgraph.Store

/-! The service: requests are met one after another, while the runs that earlier ones have started
go on. The log of a run is recorded when the run starts and again when it ends. -/

namespace Flowgraph

/-- A run that nobody waits for and whose end has not been recorded yet. -/
structure Background where
  /-- Its position among the runs of the session. -/
  position : Nat
  workflowId : String
  started : Moment

structure Service where
  registry : Registry
  emitter : Emitter
  suggester : Option Suggester
  /-- The address under which problems with payloads are explained. -/
  manual : String
  session : Session
  store : Store := {}
  /-- Ids that have been given out. -/
  count : Nat := 0
  background : List Background := []

namespace Service

/-- The retry policy of a configuration, without jitter. -/
def backoffOf (c : Configuration) : Except Failure Backoff :=
  Backoff.make (.float c.retryBaseDelay) (.float c.retryMaxDelay) Backoff.standardFactor none

/-- A service with an empty store. -/
def make (c : Configuration) (registry : Registry) (suggester : Option Suggester) (epoch : Moment)
    (manual : String) : Except Failure Service := do
  let _ ← LogSetup.make c.logLevel.name c.logStructured c.logFormat c.logFile.isSome
  let engine ← Engine.make registry c.maxConcurrentNodes c.defaultNodeTimeout (← backoffOf c) epoch
  let emitter : Emitter :=
    { registry, defaultTimeout := c.defaultNodeTimeout, retryBase := .float c.retryBaseDelay
      retryCeiling := .float c.retryMaxDelay }
  .ok { registry, emitter, suggester, manual, session := Session.make engine }

def now (s : Service) : Moment :=
  s.session.time

/-! Work on a request -/

/-- Work that may change the service and may fail; what it changed before it failed stays. -/
abbrev Work (α : Type) :=
  ExceptT Mishap (StateM Service) α

def orFail {α : Type} (r : Except Mishap α) : Work α :=
  ExceptT.mk (pure r)

def orFault {α : Type} : Except Fault α → Work α
  | .ok a => pure a
  | .error f => orFail (.error (.fault f))

def numbered {α : Type} (x : Numbered α) : Work α := do
  let s ← get
  let (r, count) := x.run s.count
  set { s with count }
  orFail r

def consult {α : Type} (f : Store → Except Fault α) : Work α := do
  orFault (f (← get).store)

def change {α : Type} (f : Store → Moment → Except Fault (Store × α)) : Work α := do
  let s ← get
  let (store, a) ← orFault (f s.store s.now)
  set { s with store }
  pure a

def storedWorkflow (id : String) : Work Workflow := do
  orFail ((← get).store.workflow id)

/-- Answer with what the work gives, or with what went wrong. -/
def answering (doing : String) (work : Work Response) : StateM Service Response := do
  let s ← get
  match ← work.run with
  | .ok r => pure r
  | .error e => pure (Response.ofMishap s.manual doing s.now e)

/-! Recording the ends of runs -/

def recordRun (s : Service) (log : ExecutionLog) : Service × Except Fault Unit :=
  let (store, r) := s.store.recordRun log
  ({ s with store }, r)

/-- The log of a run whose own log could not be recorded. -/
def unrecorded (b : Background) (log : ExecutionLog) (reason : String) : ExecutionLog :=
  { executionId := log.executionId, workflowId := b.workflowId, startTime := b.started
    endTime := log.endTime, status := .failed
    error := some ("Execution could not be recorded: " ++ reason) }

/-- Record the end of a background run; failing that, that it could not be recorded. -/
def recordBackground (s : Service) (ended : Background × ExecutionLog) : Service :=
  match s.recordRun ended.2 with
  | (s, .ok ()) => s
  | (s, .error f) => (s.recordRun (unrecorded ended.1 ended.2 f.message)).1

def ended? (s : Service) (b : Background) : Option (Background × ExecutionLog) :=
  match s.session.members[b.position]? with
  | none => none
  | some m => (m.log?.filter ExecutionLog.isFinished).map fun log => (b, log)

/-- Record all background runs that have ended, the first to end first. -/
def recordEnded (s : Service) : Service :=
  let time (p : Background × ExecutionLog) : Int := (p.2.endTime.getD s.now).micros
  let ended := (s.background.filterMap s.ended?).mergeSort fun a b => time a ≤ time b
  let s := { s with background := s.background.filter fun b => (s.ended? b).isNone }
  ended.foldl recordBackground s

/-- Let the runs go on to an instant. -/
def advance (s : Service) (instant : Nat) : Service :=
  { s with session := s.session.advance (some instant) }.recordEnded

/-! Workflows -/

def createWorkflow (w : Workflow) (userId : Option String) : Work Unit := do
  let _ ← change fun store now => store.createWorkflow w userId now

/-- The reasons for a suggested workflow; only a text can be answered. -/
def reasoning : Value → Except Mishap String
  | .text s => .ok s
  | v => .error (.unreadable "GenerateWorkflowResponse" [⟨[.field "reasoning"], .notText, v⟩])

def generate (suggester : Suggester) (r : GenerateRequest) : Work Response := do
  let context := Value.ofOption Value.object r.context
  let (w, reasons) ← numbered (suggester.generate r.prompt context)
  createWorkflow w r.userId
  let reasons ← orFail (reasoning reasons)
  let warnings := w.validate.warnings.map Finding.text
  pure <| .created <| .object
    [("workflow", w.toWire), ("reasoning", .text reasons), ("warnings", .ofTexts warnings)]

/-- How the refusal of a workflow begins. -/
def invalidHead : String := "Workflow validation failed"

def create (r : CreateRequest) : Work Response := do
  let w ← orFail (Workflow.acceptFields invalidHead r.workflow)
  createWorkflow w r.userId
  pure (.created w.toWire)

def summary (r : WorkflowRecord) : Value :=
  .object
    [("id", .text r.id), ("name", .text r.name), ("description", .ofOption .text r.description),
     ("version", .text r.version), ("userId", .ofOption .text r.userId),
     ("updatedAt", .text r.updatedAt.text)]

def noSuggester : Response :=
  .refuseWith 503 "SuggestionServiceUnavailable" "No workflow suggestion service is configured" []

/-- Edit a workflow as told. -/
def editPlainly (w : Workflow) (r : EditRequest) : Work Workflow :=
  numbered (w.apply { action := r.action, data := r.data })

/-- Let the suggestion service edit a workflow; only steps can be suggested. -/
def editBySuggestion (suggester : Suggester) (w : Workflow) (r : EditRequest) (instruction : String) :
    Work Workflow :=
  match r.action with
  | .addNode => numbered (suggester.addNode w instruction (r.data.getD "afterNodeId" .null))
  | _ => numbered (suggester.editNode w (r.data.getD "nodeId" .null) instruction)

/-- The instruction of an edit that is left to the suggestion service. -/
def instructionOf (r : EditRequest) : Option String :=
  if r.action = .editNode || r.action = .addNode then r.instruction.filter (· ≠ "") else none

def finishEdit (w : Workflow) : Work Response := do
  let w ← orFail (Workflow.acceptFields invalidHead w.wireFields)
  let _ ← change fun store now => store.updateWorkflow w now
  pure (.ofValue w.toWire)

def edit (id : String) (r : EditRequest) : Work Response := do
  let w ← storedWorkflow id
  match instructionOf r with
  | none => finishEdit (← editPlainly w r)
  | some instruction =>
    match (← get).suggester with
    | none => pure noSuggester
    | some suggester => finishEdit (← editBySuggestion suggester w r instruction)

/-! Runs -/

/-- Start a run and record that it has started. -/
def startRun (id : String) (r : RunRequest) : Work Background := do
  let w ← storedWorkflow id
  let runId ← numbered Numbering.fullId
  let started := (← get).now
  let _ ← change fun store now =>
    store.createRun { executionId := runId, workflowId := w.id, startTime := started } now
  let s ← get
  set { s with session := s.session.launch runId w r.inputs r.secrets }
  pure { position := s.session.members.length, workflowId := w.id, started }

def memberAt? (s : Service) (position : Nat) : Option Session.Member :=
  s.session.members[position]?

/-- Let time pass until a run has ended, and record its end. -/
def awaitRun (b : Background) : Work Response := do
  let s ← get
  let s := s.advance (s.session.endOf b.position)
  let (s, log) := match (s.memberAt? b.position).bind Session.Member.log? with
    | some log =>
      let (s, r) := s.recordRun log
      (s, r.map fun _ => log)
    | none => (s, .error Store.locked)
  set s
  let log ← orFault log
  pure (.ofValue log.toWire)

def run (id : String) (r : RunRequest) : StateM Service Response := do
  match ← (startRun id r).run with
  | .error e => pure (Response.ofMishap (← get).manual "starting the workflow run" (← get).now e)
  | .ok b =>
    if r.wait then
      match ← (awaitRun b).run with
      | .ok response => pure response
      | .error e => pure (Response.ofMishap (← get).manual "running the workflow" (← get).now e)
    else
      modify fun s => { s with background := s.background ++ [b] }
      let runId := (((← get).memberAt? b.position).map Session.Member.id).getD ""
      pure ⟨202, .data (.object [("executionId", .text runId), ("status", .text "running")])⟩

def runsOf (id : String) : Work Response := do
  let _ ← consult (Store.workflowRecord · id)
  pure (.ofValue (.list ((← consult (Store.runsOf · id)).map RunRecord.log)))

def notActive (id : String) (r : RunRecord) : Response :=
  .refuseWith 409 "ExecutionNotActive" ("Execution '" ++ id ++ "' is not running")
    [("status", .text r.status.name)]

def cancel (id : String) : StateM Service Response := do
  let s ← get
  let (session, wasActive) := s.session.cancel id
  if wasActive then
    set { s with session }
    pure <| .ofValue <| .object
      [("executionId", .text id), ("message", .text "Cancellation requested")]
  else
    answering "cancelling the execution" do
      pure (notActive id (← consult (Store.run · id)))

/-! Other forms -/

def targetNamed? (format : String) : Option CompileTarget :=
  if format = "n8n" then some .external
  else [CompileTarget.external, CompileTarget.runtime].find? fun t => t.name = format

def unsupported (format : String) : Response :=
  .refuseWith 400 "UnsupportedFormat" ("Unsupported compile format: " ++ format)
    [("supported", .ofTexts ["external", "n8n", "runtime"])]

def compileFor (id : String) (target : CompileTarget) : Work Response := do
  let w ← storedWorkflow id
  let s ← get
  orFault (s.registry.require (some target) w)
  let emitted ← orFail (s.emitter.emit target w)
  if emitted.succeeded then pure (.ofValue emitted.toWire)
  else
    pure <| .refuseWith 422 "CompilationFailed"
      ("Workflow '" ++ id ++ "' could not be compiled to " ++ target.name)
      [("errors", .ofTexts emitted.errors)]

def capability (c : Capability) : Value :=
  .object
    [("name", .text c.name), ("nodeType", .ofOption (fun t => .text (NodeType.name t)) c.nodeType),
     ("description", .text c.description),
     ("targets", .ofTexts ((CompileTarget.all.filter c.supports).map CompileTarget.name))]

/-! Meeting requests -/

/-- Go on with the body of a request when it can be understood. -/
def withBody {α : Type} (body : Option Value) (read : Option Value → Reading α)
    (go : α → StateM Service Response) : StateM Service Response :=
  match read body with
  | .accepted a => go a
  | .rejected issues => pure (Response.notUnderstood issues)

def meet (e : Endpoint) (request : Request) (body : Option Value) : StateM Service Response :=
  match e with
  | .generate => do
    match (← get).suggester with
    | none => pure noSuggester
    | some suggester =>
      withBody body (Payload.record Payload.generate) fun r =>
        answering "generating the workflow" (generate suggester r)
  | .createWorkflow =>
    withBody body (Payload.record Payload.create) fun r => answering "storing the workflow" (create r)
  | .listWorkflows =>
    answering "listing workflows" do
      let records ← consult (Store.workflowRecords · (request.parameter? "user_id"))
      pure (.ofValue (.list (records.map summary)))
  | .workflow id =>
    answering "retrieving the workflow" do
      pure (.ofValue (← consult (Store.workflowRecord · id)).workflow)
  | .validate =>
    withBody body Payload.table fun fs => pure (.ofValue (Flowgraph.validate (.object fs)).toWire)
  | .edit id =>
    withBody body (Payload.record Payload.edit) fun r => answering "editing the workflow" (edit id r)
  | .run id => withBody body (Payload.record Payload.run) (run id)
  | .runsOf id => answering "listing executions" (runsOf id)
  | .execution id =>
    answering "retrieving the execution" do
      pure (.ofValue (← consult (Store.run · id)).log)
  | .cancel id => cancel id
  | .compile id =>
    withBody body (Payload.record Payload.compile) fun r =>
      match targetNamed? r.format with
      | none => pure (unsupported r.format)
      | some target => answering "compiling the workflow" (compileFor id target)
  | .capabilities => do
    pure (.ofValue (.list ((← get).registry.list.map capability)))
  | .root => pure (.ofValue (.object [("message", .text "autoflow is running")]))
  | .health => pure (.ofValue (.object [("status", .text "healthy"), ("service", .text "autoflow")]))

/-- Whether an endpoint looks at the body of a request. -/
def readsBody : Endpoint → Bool
  | .generate | .createWorkflow | .validate | .edit _ | .run _ | .compile _ => true
  | _ => false

/-- Meet a request in the present instant. -/
def handle (s : Service) (request : Request) : Service × Response :=
  match Endpoint.find request.method request.path with
  | .nowhere => (s, .refuse 404 (.text "Not Found"))
  | .wrongMethod => (s, .refuse 405 (.text "Method Not Allowed"))
  | .elsewhere => (s, ⟨307, .text ""⟩)
  | .found e =>
    match if readsBody e then request.body.value? else .ok none with
    | .error fault => (s, Response.notJson fault)
    | .ok body =>
      let (response, s) := (meet e request body).run s
      (s.recordEnded, response)

end Service

end Flowgraph
