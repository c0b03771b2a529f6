import Flowgraph.Run.Basic
import Flowgraph.Scope.Guard

/-! The frontier of a run: a node is decided once all its sources have been resolved, and then it
either may run or is skipped, which resolves it in turn. -/

namespace Flowgraph

/-- What a connection means once its source has ended in this way. -/
def EdgeState.after (e : Edge) : NodeStatus → EdgeState
  | .success =>
    match e.type with
    | .error => .dead
    | _ => if e.guard?.isSome then .gated else .satisfied
  | .failed => if e.type = .error then .satisfied else .dead
  | _ => .dead

namespace Run

def edgeState (r : Run) (e : Edge) : EdgeState :=
  r.edgeStates.getD e.id .dead

/-- Evaluate the condition of a connection that its guard decides. -/
def gateHolds (r : Run) (e : Edge) : Except Failure Bool :=
  match e.condition with
  | none => .error ⟨.noAttribute, "'NoneType' object has no attribute 'expression'"⟩
  | some c =>
    match c.expression with
    | none => .ok true
    | some text => r.scope.evaluate none text

/-- Whether the incoming connections let a node run; `satisfied` says that an earlier one did. -/
def pathsOpen (r : Run) (satisfied : Bool) : List Edge → Except Failure Bool
  | [] => .ok satisfied
  | e :: rest =>
    match r.edgeState e with
    | .dead => r.pathsOpen satisfied rest
    | .satisfied => r.pathsOpen true rest
    | .gated =>
      match r.gateHolds e with
      | .error f => .error f
      | .ok true => r.pathsOpen true rest
      | .ok false => .ok false

/-- Whether a node may run: some incoming connection is satisfied, none is closed by its guard,
and the node's own guard holds. -/
def decide (r : Run) (id : String) : Except Failure Bool := do
  let incoming := r.graph.incoming id
  let reached ← if incoming.isEmpty then .ok true else r.pathsOpen false incoming
  if !reached then .ok false
  else
    match (r.graph.node? id).bind Node.guard? with
    | none => .ok true
    | some text => r.scope.evaluate none text

/-- Record what a finished node means for its outgoing connections. -/
def settleEdges (r : Run) (id : String) (status : NodeStatus) : Run :=
  { r with
    edgeStates := (r.graph.outgoing id).foldl
      (fun states e => states.set e.id (EdgeState.after e status)) r.edgeStates }

/-- One source less for a node; tells whether it was the last one. -/
def resolveOne (r : Run) (target : String) : Run × Bool :=
  let left := r.unresolved.getD target 0
  ({ r with unresolved := r.unresolved.set target (left - 1) }, left = 1)

/-- One source less for each of the targets, with those for which it was the last. -/
def resolveTargets (r : Run) : List String → Run × List String
  | [] => (r, [])
  | t :: rest =>
    let (r, last) := r.resolveOne t
    let (r, freed) := r.resolveTargets rest
    (r, if last then t :: freed else freed)

/-- A node has finished: settle its connections, and tell which nodes can be decided now. -/
def resolveOutgoing (r : Run) (id : String) (status : NodeStatus) : Run × List String :=
  (r.settleEdges id status).resolveTargets (r.graph.targets id)

def skip (r : Run) (id : String) : Run :=
  r.addEntry { nodeId := id, status := .skipped }

def internalError (r : Run) (f : Failure) : Run :=
  r.stopWith .failed ("Internal error: " ++ f.message)

/-- Decide nodes until none is left; `steps` bounds their number. A condition that cannot be
evaluated stops the run. -/
def decideAll : Nat → List String → Run → Run
  | steps + 1, id :: rest, r =>
    match r.decide id with
    | .error f => r.internalError f
    | .ok true => decideAll steps rest { r with ready := r.ready ++ [id] }
    | .ok false =>
      let (r, freed) := (r.skip id).resolveOutgoing id .skipped
      decideAll steps (r.graph.sortByPosition (rest ++ freed)) r
  | _, _, r => r

/-- Decide nodes in the order of the node list, and whatever that makes decidable. -/
def admitAll (r : Run) (ids : List String) : Run :=
  decideAll (r.graph.nodes.length + ids.length) (r.graph.sortByPosition ids) r

end Run

end Flowgraph
