import Flowgraph.Graph
import Flowgraph.Numbering
import Flowgraph.Value.Collect
import Flowgraph.Workflow.Decode
import Flowgraph.Workflow.Wire

/-! Edits of workflows. An edit gives a new workflow or is refused; steps and connections come as
raw payloads or as read ones, and the ids that say where to edit are raw values. -/

namespace Flowgraph

/-- A step, a connection or a position that is to be put into a workflow. -/
inductive Draft (α : Type) where
  | raw (v : Value)
  | made (a : α)

namespace Edit

def refuse {α : Type} (action : EditAction) (message : String) : Numbered α :=
  .of (Mishap.raise .edit message [("action", .text action.name)])

def ofFailure {α : Type} (r : Except Failure α) : Numbered α :=
  .of (Mishap.ofFailure r)

/-- What was read, or the first problem behind a head. -/
def accept {α : Type} (action : EditAction) (head : String) : Reading α → Numbered α
  | .accepted a => pure a
  | .rejected issues => refuse action (head ++ ": " ++ Issue.firstMessage issues)

/-- A payload with an id; one is generated when it has none. -/
def withId (kind : String) (fs : Fields) : Numbered Fields := do
  if (fs.getD "id" .null).truthy then pure fs
  else
    let id ← Numbering.stamped kind
    pure (fs.set "id" (.text id))

def nodeOf (action : EditAction) : Draft Node → Numbered Node
  | .made n => pure n
  | .raw v => do
    let fs ← withId "node" (← ofFailure v.entries)
    accept action "Invalid node definition" (Node.ofValue (.object fs))

def edgeOf (action : EditAction) : Draft Edge → Numbered Edge
  | .made e => pure e
  | .raw v => do
    let fs ← withId "edge" (← ofFailure v.entries)
    accept action "Invalid edge definition" (Edge.ofValue (.object fs))

def positionOf (action : EditAction) : Draft Position → Numbered Position
  | .made p => pure p
  | .raw v => accept action "Invalid position" (Position.ofValue v)

end Edit

namespace Workflow

open Edit

/-- The first step whose id is the given value. -/
def nodeAt? (w : Workflow) (id : Value) : Option Node :=
  id.text?.bind w.node?

def nodeAt (w : Workflow) (id : Value) (action : EditAction) : Numbered Node :=
  match w.nodeAt? id with
  | some n => pure n
  | none => refuse action ("Node '" ++ id.display ++ "' not found in workflow " ++ w.id)

/-- Put a step behind the first one with an id. -/
def insertAfter (id : String) (n : Node) : List Node → List Node
  | [] => []
  | m :: rest => if m.id = id then m :: n :: rest else m :: insertAfter id n rest

/-- Add a step: at the end, or behind another one with a connection from it. -/
def addNode (w : Workflow) (draft : Draft Node) (after : Value) : Numbered Workflow := do
  let n ← nodeOf .addNode draft
  if (w.node? n.id).isSome then refuse .addNode ("Node '" ++ n.id ++ "' already exists")
  else if after.isNull then pure { w with nodes := w.nodes ++ [n] }
  else
    let anchor ← w.nodeAt after .addNode
    let id ← Numbering.stamped "edge"
    pure
      { w with
        nodes := insertAfter anchor.id n w.nodes
        edges := w.edges ++ [{ id, source := anchor.id, target := n.id }] }

/-- Remove all steps with an id and the connections at them. -/
def removeNode (w : Workflow) (id : Value) : Workflow :=
  match w.nodeAt? id with
  | none => w
  | some n =>
    { w with
      nodes := w.nodes.filter fun m => m.id ≠ n.id
      edges := w.edges.filter fun e => e.source ≠ n.id && e.target ≠ n.id }

/-- Put the steps with the given ids first; of several with one id only the last is kept. -/
def withFirst (w : Workflow) (ids : List String) : Workflow :=
  let last (id : String) := w.nodes.reverse.find? fun n => n.id = id
  { w with
    nodes := (distinct ids).filterMap last ++ w.nodes.filter fun n => !ids.contains n.id }

/-- Texts with commas between them; everything else is refused. -/
def joinTexts (vs : List Value) : Except Failure String := do
  let texts ← vs.zipIdx.mapM fun (v, index) =>
    match v with
    | .text s => .ok s
    | v =>
      Failure.badType
        ("sequence item " ++ toString index ++ ": expected str instance, " ++ v.kindName ++ " found")
  pure (", ".intercalate texts)

def reorderNodes (w : Workflow) (order : Value) : Numbered Workflow := do
  let ids ← ofFailure order.members
  let unknown := ids.filter fun v => (w.nodeAt? v).isNone
  if unknown.isEmpty then pure (w.withFirst (ids.filterMap Value.text?))
  else refuse .reorderNodes ("Unknown nodes in reorder: " ++ (← ofFailure (joinTexts unknown)))

def addEdge (w : Workflow) (draft : Draft Edge) : Numbered Workflow := do
  let e ← edgeOf .addEdge draft
  let _ ← w.nodeAt (.text e.source) .addEdge
  let _ ← w.nodeAt (.text e.target) .addEdge
  if (w.edge? e.id).isSome then refuse .addEdge ("Edge '" ++ e.id ++ "' already exists")
  else pure { w with edges := w.edges ++ [e] }

def removeEdge (w : Workflow) (id : Value) : Numbered Workflow :=
  match id.text?.bind w.edge? with
  | none => refuse .removeEdge ("Edge '" ++ id.display ++ "' not found in workflow " ++ w.id)
  | some e => pure { w with edges := w.edges.filter fun f => f.id ≠ e.id }

/-- Change the first step with an id. -/
def modifyFirst (id : String) (f : Node → Node) : List Node → List Node
  | [] => []
  | n :: rest => if n.id = id then f n :: rest else n :: modifyFirst id f rest

def moveNode (w : Workflow) (id : Value) (draft : Draft Position) : Numbered Workflow := do
  let n ← w.nodeAt id .updateNodePosition
  let p ← positionOf .updateNodePosition draft
  pure { w with nodes := modifyFirst n.id (fun n => { n with position := some p }) w.nodes }

/-- Put a step in the place of all steps with an id; it takes over their id. -/
def replaceNode (w : Workflow) (id : Value) (draft : Draft Node) : Numbered Workflow := do
  let current ← w.nodeAt id .editNode
  let draft := match draft with
    | .raw (.object fs) => .raw (.object (Table.set fs "id" (.text current.id)))
    | d => d
  let n ← nodeOf .editNode draft
  let n := { n with id := current.id }
  pure { w with nodes := w.nodes.map fun m => if m.id = current.id then n else m }

/-- Write fields into the payload of a step and read it again. -/
def updateNode (w : Workflow) (id updates : Value) : Numbered Workflow := do
  let current ← w.nodeAt id .editNode
  match updates with
  | .object fs =>
    if (Table.getD fs "id" id).text? = some current.id then
      w.replaceNode id (.raw (.object (current.wireFields.merge fs)))
    else refuse .editNode "Node id cannot be changed by an update"
  | v => ofFailure (.error ⟨.noAttribute, "'" ++ v.kindName ++ "' object has no attribute 'get'"⟩)

/-! Operations -/

/-- A field of an operation that must be given. -/
def needed (data : Fields) (key : String) (action : EditAction) : Numbered Value :=
  match data.getD key .null with
  | .null => refuse action ("Edit '" ++ action.name ++ "' requires '" ++ key ++ "'")
  | v => pure v

def apply (w : Workflow) (o : EditOperation) : Numbered Workflow := do
  let given (key : String) := o.data.getD key .null
  match o.action with
  | .editNode => do
    let id ← needed o.data "nodeId" .editNode
    if (given "node").isNull then w.updateNode id (← needed o.data "updates" .editNode)
    else w.replaceNode id (.raw (given "node"))
  | .addNode => do w.addNode (.raw (← needed o.data "node" .addNode)) (given "afterNodeId")
  | .removeNode => do pure (w.removeNode (← needed o.data "nodeId" .removeNode))
  | .reorderNodes =>
    let key := if (given "nodeOrder").isNull && !(given "nodeIds").isNull then "nodeIds" else "nodeOrder"
    do w.reorderNodes (← needed o.data key .reorderNodes)
  | .addEdge =>
    let edge := given "edge"
    w.addEdge (.raw (if edge.isNull then .object (o.data.erase "edge") else edge))
  | .removeEdge => do w.removeEdge (← needed o.data "edgeId" .removeEdge)
  | .updateNodePosition => do
    let id ← needed o.data "nodeId" .updateNodePosition
    w.moveNode id (.raw (← needed o.data "position" .updateNodePosition))

/-- Apply an operation that comes as a payload. -/
def applyRaw (w : Workflow) (v : Value) : Numbered Workflow :=
  match EditOperation.ofValue v with
  | .accepted o => w.apply o
  | .rejected issues => .of (Mishap.raise .edit ("Invalid edit operation: " ++ Issue.firstMessage issues))

end Workflow

end Flowgraph
