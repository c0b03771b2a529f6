import Flowgraph.Decimal.Notation
import Flowgraph.Workflow.Basic

/-! The canonical payload of a workflow: camel-case fields in a fixed order, defaults written
out, missing parts left out. Free-form objects are copied as they are, except that numbers
without a decimal text become null; coordinates are numbers by their type and stay what they are. -/

namespace Flowgraph

def finiteOrNull (x : Float) : Value :=
  if Decimal.isFinite x then .float x else .null

mutual

/-- A value as it stands in a payload. -/
def Value.toWire : Value → Value
  | .float x => finiteOrNull x
  | .list items => .list (itemsToWire items)
  | .object fields => .object (fieldsToWire fields)
  | v => v

def itemsToWire : List Value → List Value
  | [] => []
  | v :: rest => v.toWire :: itemsToWire rest

def fieldsToWire : List (String × Value) → List (String × Value)
  | [] => []
  | (key, v) :: rest => (key, v.toWire) :: fieldsToWire rest

end

/-- The fields that are present. -/
def present (fields : List (String × Option Value)) : Fields :=
  fields.filterMap fun entry => entry.2.map fun v => (entry.1, v)

def Number.asFloat : Number → Float
  | .int n => Decimal.nearestInt n
  | .float x => x

def Number.toWire (x : Number) : Value :=
  .float x.asFloat

def wireText (s : Option String) : Option Value :=
  s.map .text

def wireNat (n : Option Nat) : Option Value :=
  n.map .ofNat

def Position.toWire (p : Position) : Value :=
  .object [("x", p.x.toWire), ("y", p.y.toWire)]

def NodeRuntime.toWire (r : NodeRuntime) : Value :=
  .object <| present
    [("timeout", wireNat r.timeout),
     ("retries", wireNat r.retries),
     ("continueOnError", some (.bool r.continueOnError))]

def Credentials.toWire (c : Credentials) : Value :=
  .object (present [("id", wireText c.id), ("name", wireText c.name)])

def Condition.toWire (c : Condition) : Value :=
  .object (present [("enabled", some (.bool c.enabled)), ("expression", wireText c.expression)])

def Node.wireFields (n : Node) : Fields :=
  present
    [("id", some (.text n.id)),
     ("type", some (.text n.type.name)),
     ("provider", some (.text n.provider)),
     ("operation", some (.text n.operation)),
     ("name", wireText n.name),
     ("description", wireText n.description),
     ("position", n.position.map Position.toWire),
     ("inputs", some (.object (fieldsToWire n.inputs))),
     ("outputs", n.outputs.map fun fs => .object (fieldsToWire fs)),
     ("runtime", some n.runtime.toWire),
     ("credentials", n.credentials.map Credentials.toWire),
     ("condition", n.condition.map Condition.toWire)]

def Node.toWire (n : Node) : Value :=
  .object n.wireFields

def Edge.toWire (e : Edge) : Value :=
  .object <| present
    [("id", some (.text e.id)),
     ("source", some (.text e.source)),
     ("target", some (.text e.target)),
     ("sourceHandle", wireText e.sourceHandle),
     ("targetHandle", wireText e.targetHandle),
     ("type", some (.text e.type.name)),
     ("condition", e.condition.map Condition.toWire),
     ("label", wireText e.label)]

def Variable.toWire (v : Variable) : Value :=
  .object <| present
    [("id", some (.text v.id)),
     ("name", some (.text v.name)),
     ("type", some (.text v.type.name)),
     ("value", if v.value.isNull then none else some v.value.toWire),
     ("description", wireText v.description),
     ("scope", some (.text v.scope.name)),
     ("mutable", some (.bool v.mutable))]

def Settings.toWire (s : Settings) : Value :=
  .object <| present
    [("errorHandling", some (.text s.errorHandling.name)),
     ("maxRetries", wireNat s.maxRetries),
     ("timeout", wireNat s.timeout)]

def Metadata.toWire (m : Metadata) : Value :=
  .object <| present
    [("createdAt", wireText m.createdAt),
     ("updatedAt", wireText m.updatedAt),
     ("createdBy", wireText m.createdBy),
     ("tags", some (.ofTexts m.tags))]

def Workflow.wireFields (w : Workflow) : Fields :=
  present
    [("id", some (.text w.id)),
     ("name", some (.text w.name)),
     ("description", wireText w.description),
     ("version", some (.text w.version)),
     ("settings", some w.settings.toWire),
     ("nodes", some (.list (w.nodes.map Node.toWire))),
     ("edges", some (.list (w.edges.map Edge.toWire))),
     ("variables", some (.list (w.vars.map Variable.toWire))),
     ("metadata", w.metadata.map Metadata.toWire)]

def Workflow.toWire (w : Workflow) : Value :=
  .object w.wireFields

def EditOperation.toWire (o : EditOperation) : Value :=
  .object [("action", .text o.action.name), ("data", .object (fieldsToWire o.data))]

def Moment.toWire (m : Moment) : Value :=
  .text m.text

def NodeLog.toWire (l : NodeLog) : Value :=
  .object <| present
    [("nodeId", some (.text l.nodeId)),
     ("startTime", l.startTime.map Moment.toWire),
     ("endTime", l.endTime.map Moment.toWire),
     ("status", some (.text l.status.name)),
     ("inputs", l.inputs.map fun fs => .object (fieldsToWire fs)),
     ("outputs", l.outputs.map fun fs => .object (fieldsToWire fs)),
     ("error", wireText l.error),
     ("retries", some (.int l.retries))]

def ExecutionLog.toWire (l : ExecutionLog) : Value :=
  .object <| present
    [("executionId", some (.text l.executionId)),
     ("workflowId", some (.text l.workflowId)),
     ("startTime", some l.startTime.toWire),
     ("endTime", l.endTime.map Moment.toWire),
     ("status", some (.text l.status.name)),
     ("error", wireText l.error),
     ("nodeLogs", some (.list (l.nodeLogs.map NodeLog.toWire)))]

end Flowgraph
