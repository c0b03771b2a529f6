import Flowgraph.Workflow.Wire

/-! Documents for an external automation tool: nodes with unique names, and links from an output
slot of one name to another name. -/

namespace Flowgraph

namespace Document

inductive OnError where
  | regularOutput
  | errorOutput
  deriving DecidableEq, Repr

def OnError.name : OnError → String
  | regularOutput => "continueRegularOutput"
  | errorOutput => "continueErrorOutput"

/-- The output slots of a node. -/
inductive Slot where
  | main
  | error
  deriving DecidableEq, Repr

def Slot.index : Slot → Nat
  | main => 0
  | error => 1

structure Node where
  id : String
  name : String
  type : String
  typeVersion : Number
  x : Number
  y : Number
  parameters : Fields
  /-- How often the node is tried in all and the milliseconds in between, if it is retried. -/
  tries : Option (Nat × Int) := none
  onError : Option OnError := none
  credentials : Option (String × Credentials) := none
  /-- The guard of the step, which a document can only mention. -/
  note : Option String := none

structure Link where
  source : String
  slot : Slot
  target : String
  deriving DecidableEq, Repr

end Document

structure Document where
  name : String
  nodes : List Document.Node
  links : List Document.Link
  /-- Seconds for the whole execution. -/
  timeout : Option Nat
  workflowId : String
  version : String

namespace Document

def Node.toValue (n : Node) : Value :=
  .object <| present
    [("id", some (.text n.id)),
     ("name", some (.text n.name)),
     ("type", some (.text n.type)),
     ("typeVersion", some n.typeVersion.toValue),
     ("position", some (.list [n.x.toValue, n.y.toValue])),
     ("parameters", some (.object n.parameters)),
     ("retryOnFail", n.tries.map fun _ => .bool true),
     ("maxTries", n.tries.map fun t => .ofNat t.1),
     ("waitBetweenTries", n.tries.map fun t => .int t.2),
     ("onError", n.onError.map fun e => .text e.name),
     ("credentials", n.credentials.map fun c => .object [(c.1, c.2.toWire)]),
     ("notes", n.note.map .text),
     ("notesInFlow", n.note.map fun _ => .bool true)]

def targetValue (name : String) : Value :=
  .object [("node", .text name), ("type", .text "main"), ("index", .ofNat 0)]

/-- The targets in one slot of a name, in the order of the links. -/
def targetsIn (links : List Link) (source : String) (slot : Slot) : List String :=
  (links.filter fun l => l.source = source && l.slot = slot).map Link.target

/-- The slots of a name up to the last one that is used. -/
def slotsValue (links : List Link) (source : String) : Value :=
  let main := targetsIn links source .main
  let error := targetsIn links source .error
  let used := if error.isEmpty then [main] else [main, error]
  .object [("main", .list (used.map fun names => .list (names.map targetValue)))]

def connectionsValue (links : List Link) : Value :=
  .object (Table.ofPairs (links.map fun l => (l.source, slotsValue links l.source)))

def toWire (d : Document) : Value :=
  let timeout := d.timeout.map fun s => ("executionTimeout", Value.ofNat s)
  Value.toWire <| .object
    [("name", .text d.name),
     ("nodes", .list (d.nodes.map Node.toValue)),
     ("connections", connectionsValue d.links),
     ("active", .bool false),
     ("settings", .object (("executionOrder", .text "v1") :: timeout.toList)),
     ("meta", .object [("workflowId", .text d.workflowId), ("version", .text d.version)])]

end Document

end Flowgraph
