import Flowgraph.Document
import Flowgraph.Emission
import Flowgraph.Naming

/-! Workflows as documents. Every step becomes a node, in an order that respects the connections.
A guarded connection leads through a node of its own; an error connection leaves by the second
slot, or is dropped with a warning where a step has none. -/

namespace Flowgraph

namespace Document

/-- The key under which credentials are given; none for keys that cannot be. -/
def credentialKey? : Value → Option String
  | .null => some "None"
  | .bool b => some (if b then "true" else "false")
  | .text s => some s
  | .list _ | .object _ => none
  | v => some v.literal

/-- Spellings of a name: the name itself, then the name with a number. -/
def spelling (name : String) (k : Nat) : String :=
  if k = 0 then name else name ++ " " ++ toString k

def spacing : Int := 220

def continues (w : Workflow) (n : Flowgraph.Node) : Bool :=
  n.runtime.continueOnError || w.settings.errorHandling = .continueOnError

def positionOf (n : Flowgraph.Node) (index : Nat) : Number × Number :=
  match n.position with
  | some p => (p.x, p.y)
  | none => (.int (250 + index * spacing), .int 300)

/-- What is known about a step before its node is built. -/
structure Step where
  node : Flowgraph.Node
  capability : Capability
  form : ExternalForm
  index : Nat
  name : String

/-- Whether an error connection can leave a step. -/
def Step.hasErrorSlot (s : Step) : Bool :=
  s.node.type ≠ .trigger && s.form.supportsErrorOutput

/-- The steps in order, with their names; those without an external form are left out. -/
def stepsOf (r : Registry) (g : Graph) (order : List String) : List Step :=
  let known := order.filterMap fun id => do
    let n ← g.node? id
    let c ← r.find? n
    let f ← c.external
    pure (n, c, f)
  let names := freshNames (fun n => spelling (Node.label n)) (known.map fun k => k.1) []
  (known.zip names).zipIdx.map fun ((entry, name), index) =>
    { node := entry.1, capability := entry.2.1, form := entry.2.2, index, name }

def errorEdges (g : Graph) (id : String) : List Edge :=
  (g.outgoing id).filter fun e => e.type = .error

def onErrorOf (w : Workflow) (g : Graph) (s : Step) : Option OnError :=
  if s.hasErrorSlot && !(errorEdges g s.node.id).isEmpty then some .errorOutput
  else if continues w s.node then some .regularOutput
  else none

def credentialsOf (s : Step) : Except Failure (Option (String × Credentials)) :=
  match s.node.credentials with
  | none => .ok none
  | some c =>
    match credentialKey? (s.capability.metadata.getD "credential_type" (.text s.node.provider)) with
    | some key => .ok (some (key, c))
    | none => Failure.badType "unhashable type"

def nodeOf (e : Emitter) (w : Workflow) (g : Graph) (s : Step) : Except Failure Node := do
  let policy := Policy.resolve w s.node e.defaultTimeout
  let (x, y) := positionOf s.node s.index
  let parameters ← s.form.parameters s.node
  let tries ←
    if policy.retries = 0 then pure none
    else do
      let wait ← (← e.retryBase.mul (.int 1000)).truncate
      pure (some (policy.retries + 1, wait))
  let credentials ← credentialsOf s
  pure
    { id := s.node.id, name := s.name, type := s.form.nodeType, typeVersion := s.form.typeVersion, x, y
      parameters, tries, onError := onErrorOf w g s, credentials
      note := s.node.guard?.map fun e => "Runs only when: " ++ e }

/-! Connections -/

/-- What becomes of a connection between two steps. -/
inductive Route where
  | direct (slot : Slot)
  | guarded (expression : String)
  | dropped
  deriving DecidableEq, Repr

def routeOf (source : Step) (e : Edge) : Route :=
  if e.type = .error then (if source.hasErrorSlot then .direct .error else .dropped)
  else
    match e.guard? with
    | some expression => .guarded expression
    | none => .direct .main

def midpoint (a b : Number) : Except Failure Number := do
  (← a.add b).divide (.int 2)

def guardOf (e : Edge) (expression name : String) (source target : Node) : Except Failure Node := do
  let x ← midpoint source.x target.x
  let y ← midpoint source.y target.y
  pure
    { id := e.id ++ "-guard", name, type := "n8n-nodes-base.if", typeVersion := .int 1, x, y
      parameters :=
        [("conditions", .object
          [("boolean", .list
            [.object [("value1", .text ("=" ++ expression)), ("value2", .bool true)]])])] }

/-- The wiring of a document so far. -/
structure Wiring where
  guards : List Node := []
  links : List Link := []
  warnings : List String := []

def droppedWarning (e : Edge) : String :=
  "Edge '" ++ e.id ++ "': error route from '" ++ e.source ++ "' cannot be expressed and was dropped"

def Wiring.link (w : Wiring) (source : String) (slot : Slot) (target : String) : Wiring :=
  { w with links := w.links ++ [⟨source, slot, target⟩] }

/-- Wire one connection between two steps. Names of steps and of earlier guards are taken. -/
def wire (steps : List (Step × Node)) (w : Wiring) (e : Edge) : Except Failure Wiring :=
  let find (id : String) := steps.find? fun s => s.1.node.id = id
  match find e.source, find e.target with
  | some (step, source), some (_, target) =>
    match routeOf step e with
    | .direct slot => .ok (w.link source.name slot target.name)
    | .dropped => .ok { w with warnings := w.warnings ++ [droppedWarning e] }
    | .guarded expression => do
      let taken := steps.map (fun s => s.2.name) ++ w.guards.map Node.name
      let name := freshName taken (spelling ("If " ++ target.name))
      let guard ← guardOf e expression name source target
      let w := { w with guards := w.guards ++ [guard] }
      pure ((w.link source.name .main name).link name .main target.name)
  | _, _ => .ok w

def guardWarning (n : Flowgraph.Node) : String :=
  "Node '" ++ n.id ++ "': node-level condition is not enforced by the external format"

/-- The document of a workflow whose steps have been ordered. -/
def assemble (e : Emitter) (w : Workflow) (g : Graph) (order : List String) :
    Except Failure (Document × List String) := do
  let steps := stepsOf e.registry g order
  let nodes ← steps.mapM (nodeOf e w g)
  let wiring ← (order.flatMap g.outgoing).foldlM (wire (steps.zip nodes)) {}
  let guarded := (steps.map Step.node).filter fun n => n.guard?.isSome
  let document : Document :=
    { name := w.name
      nodes := nodes ++ wiring.guards
      links := wiring.links
      timeout := (w.settings.timeout.filter (· ≠ 0)).map fun ms => max 1 (ms / 1000)
      workflowId := w.id
      version := w.version }
  pure (document, guarded.map guardWarning ++ wiring.warnings)

end Document

/-- Emit a workflow as a document. Warnings are listed among the errors, too. -/
def Emitter.document (e : Emitter) (w : Workflow) : Except Failure (Emission Document) :=
  let objections := e.registry.objections (some .external) w
  if !objections.isEmpty then .ok (Emission.refused objections)
  else
    let g := Graph.ofWorkflow w
    match g.topologicalOrder with
    | .error blocked => .ok (Emission.refused [Graph.circularMessage blocked])
    | .ok order => do
      let (document, warnings) ← Document.assemble e w g order
      pure { form := some document, errors := warnings, warnings }

end Flowgraph
