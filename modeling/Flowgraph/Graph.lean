import Flowgraph.Workflow.Basic

/-! The graph of a workflow: its distinct steps, the first of each id, and the connections both of
whose ends are among them. -/

namespace Flowgraph

structure Graph where
  nodes : List Node
  edges : List Edge
  deriving Inhabited

/-- The first node of every id, in order. -/
def firstOfEach (nodes : List Node) : List Node :=
  nodes.foldl (fun kept n => if kept.any (fun k => k.id = n.id) then kept else kept ++ [n]) []

def Graph.ofWorkflow (w : Workflow) : Graph :=
  let nodes := firstOfEach w.nodes
  let known (id : String) := nodes.any fun n => n.id = id
  { nodes, edges := w.edges.filter fun e => known e.source && known e.target }

/-- Distinct members, each at its first place. -/
def distinct (ids : List String) : List String :=
  ids.foldl (fun kept id => if kept.contains id then kept else kept ++ [id]) []

namespace Graph

def nodeIds (g : Graph) : List String :=
  g.nodes.map Node.id

def node? (g : Graph) (id : String) : Option Node :=
  g.nodes.find? fun n => n.id = id

def incoming (g : Graph) (id : String) : List Edge :=
  g.edges.filter fun e => e.target = id

def outgoing (g : Graph) (id : String) : List Edge :=
  g.edges.filter fun e => e.source = id

/-- The distinct nodes that lead to a node, in the order of the connections. -/
def sources (g : Graph) (id : String) : List String :=
  distinct ((g.incoming id).map Edge.source)

def targets (g : Graph) (id : String) : List String :=
  distinct ((g.outgoing id).map Edge.target)

/-- Nodes without an incoming connection. -/
def roots (g : Graph) : List String :=
  g.nodeIds.filter fun id => (g.incoming id).isEmpty

/-- The place of a node in the node list. -/
def position (g : Graph) (id : String) : Nat :=
  g.nodeIds.idxOf id

def sortByPosition (g : Graph) (ids : List String) : List String :=
  ids.mergeSort fun a b => g.position a ≤ g.position b

/-- The first node that is not placed although all its sources are. -/
def next? (g : Graph) (placed : List String) : Option String :=
  g.nodeIds.find? fun id => !placed.contains id && (g.sources id).all placed.contains

/-- Place nodes one by one until none is free to be placed. -/
def extend (g : Graph) : Nat → List String → List String
  | 0, placed => placed
  | steps + 1, placed =>
    match g.next? placed with
    | some id => g.extend steps (placed ++ [id])
    | none => placed

/-- An order in which every source comes before its targets and the node list decides otherwise,
or else the nodes that cannot be placed. -/
def topologicalOrder (g : Graph) : Except (List String) (List String) :=
  let placed := g.extend g.nodes.length []
  let blocked := g.nodeIds.filter fun id => !placed.contains id
  if blocked.isEmpty then .ok placed else .error blocked

def circularMessage (blocked : List String) : String :=
  "Circular dependency detected among nodes: " ++ ", ".intercalate blocked

/-- The depth of each node: one more than that of its deepest source. -/
def depths (g : Graph) (order : List String) : Table Nat :=
  order.foldl
    (fun depth id =>
      let deepest := (g.sources id).foldl (fun d s => max d (Table.getD depth s 0 + 1)) 0
      Table.set depth id deepest)
    []

/-- Nodes of equal depth, shallowest first, each group in the order of the node list. -/
def stagesOf (g : Graph) (order : List String) : List (List String) :=
  let depth := g.depths order
  let height := depth.values.foldl (fun h d => max h (d + 1)) 0
  (List.range height).map fun level => g.nodeIds.filter fun id => Table.get? depth id = some level

def stages (g : Graph) : Except (List String) (List (List String)) :=
  g.topologicalOrder.map g.stagesOf

end Graph

end Flowgraph
