import Flowgraph.Moment
import Flowgraph.Number
import Flowgraph.Text.Blank
import Flowgraph.Value

/-! Workflows: typed steps, the directed connections between them, variables and settings. -/

namespace Flowgraph

inductive NodeType where
  | trigger
  | action
  | condition
  | loop
  | transform
  | api
  | database
  | notification
  | integration
  deriving DecidableEq, Repr, Inhabited

def NodeType.name : NodeType → String
  | trigger => "trigger"
  | action => "action"
  | condition => "condition"
  | loop => "loop"
  | transform => "transform"
  | api => "api"
  | database => "database"
  | notification => "notification"
  | integration => "integration"

def NodeType.all : List NodeType :=
  [trigger, action, condition, loop, transform, api, database, notification, integration]

/-- How a connection depends on the outcome of its source. -/
inductive EdgeType where
  | plain
  | conditional
  | error
  | success
  deriving DecidableEq, Repr, Inhabited

def EdgeType.name : EdgeType → String
  | plain => "default"
  | conditional => "conditional"
  | error => "error"
  | success => "success"

def EdgeType.all : List EdgeType :=
  [plain, conditional, error, success]

/-- What a failed step does to the rest of a run. -/
inductive ErrorHandling where
  | stopOnError
  | continueOnError
  | retry
  deriving DecidableEq, Repr, Inhabited

def ErrorHandling.name : ErrorHandling → String
  | stopOnError => "stopOnError"
  | continueOnError => "continueOnError"
  | retry => "retry"

def ErrorHandling.all : List ErrorHandling :=
  [stopOnError, continueOnError, retry]

inductive VariableType where
  | string
  | number
  | boolean
  | array
  | object
  | null
  deriving DecidableEq, Repr, Inhabited

def VariableType.name : VariableType → String
  | string => "string"
  | number => "number"
  | boolean => "boolean"
  | array => "array"
  | object => "object"
  | null => "null"

def VariableType.all : List VariableType :=
  [string, number, boolean, array, object, null]

inductive VariableScope where
  | global
  | workflow
  | node
  deriving DecidableEq, Repr, Inhabited

def VariableScope.name : VariableScope → String
  | global => "global"
  | workflow => "workflow"
  | node => "node"

def VariableScope.all : List VariableScope :=
  [global, workflow, node]

/-- The member of an enumeration with a given name. -/
def memberNamed? {α : Type} (members : List α) (name : α → String) (s : String) : Option α :=
  members.find? fun m => name m = s

def Number.toValue : Number → Value
  | int n => .int n
  | float x => .float x

/-- Where a step is drawn. A coordinate that was not given is the whole number zero. -/
structure Position where
  x : Number := .int 0
  y : Number := .int 0
  deriving Inhabited

/-- A step's own execution policy: a time limit in milliseconds, further attempts after the first,
and whether its failure is contained. -/
structure NodeRuntime where
  timeout : Option Nat := none
  retries : Option Nat := none
  continueOnError : Bool := false
  deriving DecidableEq, Repr, Inhabited

structure Credentials where
  id : Option String := none
  name : Option String := none
  deriving DecidableEq, Repr, Inhabited

/-- A guard that is evaluated against the variables of a run. -/
structure Condition where
  enabled : Bool := true
  expression : Option String := none
  deriving DecidableEq, Repr, Inhabited

/-- The expression of a guard that is enabled and not blank. -/
def Condition.active? (c : Condition) : Option String :=
  if c.enabled then c.expression.filter (fun e => !Text.allBlank e) else none

def Condition.active (c : Condition) : Bool :=
  c.active?.isSome

structure Node where
  id : String
  type : NodeType
  provider : String
  operation : String
  name : Option String := none
  description : Option String := none
  position : Option Position := none
  inputs : Fields := []
  outputs : Option Fields := none
  runtime : NodeRuntime := {}
  credentials : Option Credentials := none
  condition : Option Condition := none
  deriving Inhabited

/-- Provider and operation joined by a point. -/
def Node.capabilityName (n : Node) : String :=
  n.provider ++ "." ++ n.operation

/-- The expression that must hold before the step runs, if there is one. -/
def Node.guard? (n : Node) : Option String :=
  n.condition.bind Condition.active?

/-- The name shown for a step: its own, unless that is missing or empty. -/
def Node.label (n : Node) : String :=
  match n.name with
  | some name => if name = "" then n.id else name
  | none => n.id

structure Edge where
  id : String
  source : String
  target : String
  sourceHandle : Option String := none
  targetHandle : Option String := none
  type : EdgeType := .plain
  condition : Option Condition := none
  label : Option String := none
  deriving DecidableEq, Repr, Inhabited

/-- The expression that gates a conditional connection, if it has an active one. -/
def Edge.guard? (e : Edge) : Option String :=
  if e.type = .conditional then e.condition.bind Condition.active? else none

structure Variable where
  id : String
  name : String
  type : VariableType
  value : Value := .null
  description : Option String := none
  scope : VariableScope := .workflow
  mutable : Bool := true
  deriving Inhabited

structure Settings where
  errorHandling : ErrorHandling := .stopOnError
  maxRetries : Option Nat := none
  /-- The time limit of steps that set none, in milliseconds. -/
  timeout : Option Nat := none
  deriving DecidableEq, Repr, Inhabited

structure Metadata where
  createdAt : Option String := none
  updatedAt : Option String := none
  createdBy : Option String := none
  tags : List String := []
  deriving DecidableEq, Repr, Inhabited

structure Workflow where
  id : String
  name : String
  description : Option String := none
  version : String
  settings : Settings := {}
  nodes : List Node
  edges : List Edge := []
  vars : List Variable := []
  metadata : Option Metadata := none
  deriving Inhabited

namespace Workflow

def nodeIds (w : Workflow) : List String :=
  w.nodes.map Node.id

def edgeIds (w : Workflow) : List String :=
  w.edges.map Edge.id

/-- The first step with an id. -/
def node? (w : Workflow) (id : String) : Option Node :=
  w.nodes.find? fun n => n.id = id

def edge? (w : Workflow) (id : String) : Option Edge :=
  w.edges.find? fun e => e.id = id

end Workflow

inductive EditAction where
  | editNode
  | addNode
  | removeNode
  | reorderNodes
  | addEdge
  | removeEdge
  | updateNodePosition
  deriving DecidableEq, Repr, Inhabited

def EditAction.name : EditAction → String
  | editNode => "editNode"
  | addNode => "addNode"
  | removeNode => "removeNode"
  | reorderNodes => "reorderNodes"
  | addEdge => "addEdge"
  | removeEdge => "removeEdge"
  | updateNodePosition => "updateNodePosition"

def EditAction.all : List EditAction :=
  [editNode, addNode, removeNode, reorderNodes, addEdge, removeEdge, updateNodePosition]

structure EditOperation where
  action : EditAction
  data : Fields := []
  deriving Inhabited

inductive NodeStatus where
  | pending
  | running
  | success
  | failed
  | skipped
  deriving DecidableEq, Repr, Inhabited

def NodeStatus.name : NodeStatus → String
  | pending => "pending"
  | running => "running"
  | success => "success"
  | failed => "failed"
  | skipped => "skipped"

def NodeStatus.all : List NodeStatus :=
  [pending, running, success, failed, skipped]

inductive RunStatus where
  | running
  | success
  | failed
  | cancelled
  deriving DecidableEq, Repr, Inhabited

def RunStatus.name : RunStatus → String
  | running => "running"
  | success => "success"
  | failed => "failed"
  | cancelled => "cancelled"

def RunStatus.all : List RunStatus :=
  [running, success, failed, cancelled]

/-- The record of one step within a run. -/
structure NodeLog where
  nodeId : String
  startTime : Option Moment := none
  endTime : Option Moment := none
  status : NodeStatus := .pending
  inputs : Option Fields := none
  outputs : Option Fields := none
  error : Option String := none
  retries : Int := 0
  deriving Inhabited

/-- The record of a whole run. -/
structure ExecutionLog where
  executionId : String
  workflowId : String
  startTime : Moment
  endTime : Option Moment := none
  status : RunStatus := .running
  error : Option String := none
  nodeLogs : List NodeLog := []
  deriving Inhabited

namespace ExecutionLog

def nodeLog? (log : ExecutionLog) (nodeId : String) : Option NodeLog :=
  log.nodeLogs.find? fun entry => entry.nodeId = nodeId

def isFinished (log : ExecutionLog) : Bool :=
  log.status ≠ .running

end ExecutionLog

end Flowgraph
