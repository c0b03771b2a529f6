import Flowgraph.Graph
import Flowgraph.Validation.Cycle
import Flowgraph.Validation.Report
import Flowgraph.Value.Literal
import Flowgraph.Workflow.Wire

/-! Validation of workflows as payloads. All findings are collected: required fields, kinds of
values, duplicate ids, unknown references, cycles, and the trigger that every workflow needs. -/

namespace Flowgraph.Validation

/-- A field of an object; null when it is not given. -/
def fieldOf (fs : Fields) (name : String) : Value :=
  Table.getD fs name .null

/-- Null and blank text count as missing. -/
def isMissing : Value → Bool
  | .null => true
  | .text s => Text.allBlank s
  | _ => false

def isMember (names : List String) : Value → Bool
  | .text s => names.contains s
  | _ => false

def sortedNames (names : List String) : List String :=
  names.mergeSort fun a b => !(b < a)

def expected (names : List String) : String :=
  "Expected one of: " ++ ", ".intercalate (sortedNames names)

/-- The id of a node, when it is a text that is not blank. -/
def nodeId? (node : Value) : Option String :=
  match node.field? "id" with
  | some (.text s) => if Text.allBlank s then none else some s
  | _ => none

def requireFields (lead : String) (names : List String) (fs : Fields) : Report :=
  Report.join <| names.map fun name =>
    Report.errorIf (isMissing (fieldOf fs name)) (lead ++ name) ("Missing required field '" ++ name ++ "'")

def isNatural : Value → Bool
  | .int n => 0 ≤ n
  | _ => false

/-- A number that is not zero or below; not-a-number passes. -/
def isPositive : Value → Bool
  | .int n => 0 < n
  | .float x => !(x ≤ 0)
  | _ => false

def checkNatural (path : String) (v : Value) : Report :=
  Report.errorIf (!v.isNull && !isNatural v) path "Must be a non-negative integer"

def checkPositive (path : String) (v : Value) : Report :=
  Report.errorIf (!v.isNull && !isPositive v) path "Must be a positive number"

def checkSettings : Value → Report
  | .null => Report.empty
  | .object fs =>
    let modes := ErrorHandling.all.map ErrorHandling.name
    let mode := fieldOf fs "errorHandling"
    Report.errorIf (!mode.isNull && !isMember modes mode) "settings.errorHandling"
        ("Unknown error handling mode '" ++ mode.display ++ "'. " ++ expected modes)
      ++ checkNatural "settings.maxRetries" (fieldOf fs "maxRetries")
      ++ checkPositive "settings.timeout" (fieldOf fs "timeout")
  | _ => Report.error "settings" "'settings' must be an object"

def checkRuntime (path : String) : Value → Report
  | .null => Report.empty
  | .object fs =>
    checkNatural (path ++ ".runtime.retries") (fieldOf fs "retries")
      ++ checkPositive (path ++ ".runtime.timeout") (fieldOf fs "timeout")
  | _ => Report.error (path ++ ".runtime") "'runtime' must be an object"

/-- A guard is enabled unless it says otherwise. -/
def isEnabled (guard : Fields) : Bool :=
  (Table.getD guard "enabled" (.bool true)).truthy

def checkNodeGuard (path : String) : Value → Report
  | .null => Report.empty
  | .object fs =>
    Report.warningIf (isEnabled fs && isMissing (fieldOf fs "expression")) (path ++ ".condition")
      "Node condition is enabled but has no expression; it will be ignored"
  | _ => Report.error (path ++ ".condition") "'condition' must be an object"

def checkNode (path : String) (node : Value) : Report :=
  match node with
  | .object fs =>
    let types := NodeType.all.map NodeType.name
    let type := fieldOf fs "type"
    requireFields (path ++ ".") ["id", "type", "provider", "operation"] fs
      ++ Report.errorIf (!isMissing type && !isMember types type) (path ++ ".type")
        ("Invalid node type '" ++ type.display ++ "'. " ++ expected types)
      ++ checkRuntime path (fieldOf fs "runtime")
      ++ checkNodeGuard path (fieldOf fs "condition")
      ++ Report.errorIf (!isMissing (fieldOf fs "id") && (nodeId? node).isNone) (path ++ ".id")
        "Node id must be a string"
  | _ => Report.error path "Node must be an object"

/-- A list field; null stands for no items. -/
def listOf (name : String) : Value → Report × List Value
  | .null => (Report.empty, [])
  | .list items => (Report.empty, items)
  | _ => (Report.error name ("'" ++ name ++ "' must be a list"), [])

def indexed (name : String) (index : Nat) : String :=
  name ++ "[" ++ toString index ++ "]"

/-- Check nodes one by one; `seen` are the ids of the earlier ones. -/
def checkNodes (index : Nat) (seen : List String) : List Value → Report
  | [] => Report.empty
  | node :: rest =>
    let path := indexed "nodes" index
    let id := nodeId? node
    let repeated := id.filter seen.contains
    checkNode path node
      ++ Report.errorIf repeated.isSome (path ++ ".id")
        ("Duplicate node id '" ++ id.getD "" ++ "'")
      ++ checkNodes (index + 1) (seen ++ id.toList) rest

def checkEnd (known : List String) (path name : String) (v : Value) : Report :=
  if isMissing v then Report.empty
  else
    match v with
    | .text s =>
      Report.errorIf (!known.contains s) (path ++ "." ++ name)
        ("Edge " ++ name ++ " '" ++ s ++ "' is an unknown node reference")
    | _ => Report.error (path ++ "." ++ name) ("Edge " ++ name ++ " must be a node id string")

def guardFields : Value → Fields
  | .object fs => fs
  | _ => []

def checkEdgeGuard (path : String) (type guard : Value) : Report :=
  Report.errorIf (!guard.isNull && guard.fields?.isNone) (path ++ ".condition")
      "'condition' must be an object"
    ++ Report.warningIf
      (isMember [EdgeType.name .conditional] type
        && (!isEnabled (guardFields guard) || isMissing (fieldOf (guardFields guard) "expression")))
      (path ++ ".condition")
      "Conditional edge has no active expression; it behaves like a default edge"

/-- Check one connection. Its ends are looked up when the known ids are given. -/
def checkEdge (known : Option (List String)) (path : String) : Value → Report
  | .object fs =>
    let types := EdgeType.all.map EdgeType.name
    let type := fieldOf fs "type"
    let ends :=
      match known with
      | some ids =>
        checkEnd ids path "source" (fieldOf fs "source") ++ checkEnd ids path "target" (fieldOf fs "target")
      | none => Report.empty
    requireFields (path ++ ".") ["id", "source", "target"] fs
      ++ ends
      ++ Report.errorIf (!type.isNull && !isMember types type) (path ++ ".type")
        ("Invalid edge type '" ++ type.display ++ "'. " ++ expected types)
      ++ checkEdgeGuard path type (fieldOf fs "condition")
  | _ => Report.error path "Edge must be an object"

def edgeId? (edge : Value) : Option String :=
  (edge.field? "id").bind Value.text?

def checkEdges (known : List String) (index : Nat) (seen : List String) : List Value → Report
  | [] => Report.empty
  | edge :: rest =>
    let path := indexed "edges" index
    let id := edgeId? edge
    let repeated := id.filter seen.contains
    checkEdge (some known) path edge
      ++ Report.errorIf repeated.isSome (path ++ ".id")
        ("Duplicate edge id '" ++ id.getD "" ++ "'")
      ++ checkEdges known (index + 1) (seen ++ id.toList) rest

def checkVariable (path : String) : Value → Report
  | .object fs =>
    let type := fieldOf fs "type"
    let scope := fieldOf fs "scope"
    requireFields (path ++ ".") ["id", "name", "type"] fs
      ++ Report.errorIf
        (!isMissing type && !isMember (VariableType.all.map VariableType.name) type) (path ++ ".type")
        ("Invalid variable type '" ++ type.display ++ "'")
      ++ Report.errorIf
        (!scope.isNull && !isMember (VariableScope.all.map VariableScope.name) scope) (path ++ ".scope")
        ("Invalid variable scope '" ++ scope.display ++ "'")
  | _ => Report.error path "Variable must be an object"

def checkVariables (vs : List Value) : Report :=
  Report.join <| vs.zipIdx.map fun (v, index) => checkVariable (indexed "variables" index) v

/-- Both ends of a connection, when they are texts. -/
def ends? (edge : Value) : Option (String × String) :=
  match edge.field? "source", edge.field? "target" with
  | some (.text s), some (.text t) => some (s, t)
  | _, _ => none

def links (nodes edges : List Value) : Links :=
  let ids := distinct (nodes.filterMap nodeId?)
  { nodes := ids
    arcs := (edges.filterMap ends?).filter fun (s, t) => ids.contains s && ids.contains t }

def cycleMessage (cycle : List String) : String :=
  "Circular dependency detected: " ++ " -> ".intercalate cycle

/-- Connections of every kind count. -/
def checkCycles (nodes edges : List Value) : Report :=
  Report.join ((links nodes edges).cycles.map fun c => Report.error "edges" (cycleMessage c))

def triggerMessage : String :=
  "Workflow must contain at least one trigger node"

def isTrigger (node : Value) : Bool :=
  isMember [NodeType.name .trigger] ((node.field? "type").getD .null)

def checkTrigger (nodes : List Value) : Report :=
  Report.errorIf (!nodes.any isTrigger) "nodes" triggerMessage

/-- Texts that stand as an end of a connection. -/
def endTexts (edges : List Value) : List String :=
  edges.flatMap fun e => [e.field? "source", e.field? "target"].filterMap fun v => v.bind Value.text?

/-- Nodes other than triggers without any connection are worth a warning. -/
def checkIsolated (nodes edges : List Value) : Report :=
  let connected := endTexts edges
  if (distinct (nodes.filterMap nodeId?)).length < 2 then Report.empty
  else
    Report.join <| nodes.zipIdx.map fun (node, index) =>
      match nodeId? node with
      | some id =>
        Report.warningIf (!isTrigger node && !connected.contains id) (indexed "nodes" index)
          ("Isolated node '" ++ id ++ "'")
      | none => Report.empty

/-- Check a workflow given as fields. -/
def checkFields (fs : Fields) : Report :=
  let (nodesReport, nodes) := listOf "nodes" (fieldOf fs "nodes")
  let (edgesReport, edges) := listOf "edges" (fieldOf fs "edges")
  let (variablesReport, vs) := listOf "variables" (fieldOf fs "variables")
  let known := nodes.filterMap nodeId?
  requireFields "" ["id", "name", "version", "nodes"] fs
    ++ checkSettings (fieldOf fs "settings")
    ++ nodesReport ++ edgesReport ++ variablesReport
    ++ checkNodes 0 [] nodes
    ++ checkEdges known 0 [] edges
    ++ checkVariables vs
    ++ checkCycles nodes edges
    ++ checkTrigger nodes
    ++ checkIsolated nodes edges

end Flowgraph.Validation

namespace Flowgraph

/-- Check a workflow given as a payload. -/
def validate : Value → Report
  | .object fs => Validation.checkFields fs
  | _ => Report.error "" "Workflow must be an object"

def Workflow.validate (w : Workflow) : Report :=
  Flowgraph.validate w.toWire

def validateNode (node : Value) : Report :=
  Validation.checkNode "node" node

def validateEdge (edge : Value) : Report :=
  Validation.checkEdge none "edge" edge

end Flowgraph
