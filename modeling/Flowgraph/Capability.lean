import Flowgraph.Scope

/-! Capabilities: what steps can do. A capability is known by provider and operation, for one kind
of step or for all; it may have an executor, a form in the external document, and a name under
which an emitted program calls it. -/

namespace Flowgraph

/-- What an executor is given for one attempt of one step. -/
structure Invocation where
  node : Node
  inputs : Fields
  credentials : Value
  runId : String
  attempt : Nat

/-- What an attempt does to the variables of its run, and how it ends. -/
abbrev Action := Scope → Scope × Except Failure Value

/-- An attempt acts at once, or after waiting for a number of seconds. -/
inductive Effort where
  | now (act : Action)
  | after (seconds : Number) (act : Action)

structure Executor where
  isAsync : Bool
  perform : Invocation → Effort

namespace Effort

def done (outputs : Fields) : Effort :=
  now fun s => (s, .ok (.object outputs))

def failed (f : Failure) : Effort :=
  now fun s => (s, .error f)

end Effort

namespace Executor

/-- The inputs are the outputs. -/
def echo (isAsync : Bool) : Executor :=
  { isAsync, perform := fun i => Effort.done i.inputs }

end Executor

inductive CompileTarget where
  | execute
  | external
  | runtime
  deriving DecidableEq, Repr

namespace CompileTarget

def name : CompileTarget → String
  | execute => "execute"
  | external => "external"
  | runtime => "runtime"

def all : List CompileTarget :=
  [execute, external, runtime]

end CompileTarget

/-- The form of a capability in the external document. -/
structure ExternalForm where
  nodeType : String
  typeVersion : Number := .int 1
  parameters : Node → Except Failure Fields := fun n => .ok n.inputs
  supportsErrorOutput : Bool := true

structure Capability where
  provider : String
  operation : String
  nodeType : Option NodeType := none
  executor : Option Executor := none
  external : Option ExternalForm := none
  /-- The name under which an emitted program calls it. -/
  runtimeCall : Option String := none
  description : String := ""
  metadata : Fields := []

structure CapabilityKey where
  nodeType : Option NodeType
  provider : String
  operation : String
  deriving DecidableEq

namespace Capability

def name (c : Capability) : String :=
  c.provider ++ "." ++ c.operation

def key (c : Capability) : CapabilityKey :=
  ⟨c.nodeType, c.provider, c.operation⟩

def registryFault {α : Type} (message : String) (given : Fields := []) : Except Fault α :=
  .error (Fault.of .registry message given)

/-- Blanks around the names are dropped; what can be executed can be called by its name. -/
def normalize (c : Capability) : Except Fault Capability :=
  if Text.allBlank c.provider then registryFault "Capability provider cannot be empty"
  else if Text.allBlank c.operation then registryFault "Capability operation cannot be empty"
  else
    let c := { c with provider := Text.trim c.provider, operation := Text.trim c.operation }
    let call := if c.executor.isSome then some c.name else none
    .ok { c with runtimeCall := c.runtimeCall <|> call }

def notCallable {α : Type} (c : Capability) : Except Fault α :=
  registryFault ("Executor for '" ++ c.name ++ "' must be callable") [("capability", .text c.name)]

def isAsync (c : Capability) : Bool :=
  c.executor.any Executor.isAsync

def supports (c : Capability) : CompileTarget → Bool
  | .execute => c.executor.isSome
  | .external => c.external.isSome
  | .runtime => c.runtimeCall.isSome

end Capability

/-- Capabilities with distinct keys, in the order in which their keys came. -/
structure Registry where
  capabilities : List Capability := []

namespace Registry

def empty : Registry := {}

def size (r : Registry) : Nat :=
  r.capabilities.length

def get? (r : Registry) (key : CapabilityKey) : Option Capability :=
  r.capabilities.find? fun c => c.key = key

def put (r : Registry) (c : Capability) : Registry :=
  if (r.get? c.key).isSome then
    { capabilities := r.capabilities.map fun d => if d.key = c.key then c else d }
  else { capabilities := r.capabilities ++ [c] }

/-- Add a capability. A known key is refused unless it is to be replaced. -/
def register (r : Registry) (c : Capability) (replace : Bool) : Except Fault Registry :=
  if (r.get? c.key).isSome && !replace then
    Capability.registryFault ("Capability '" ++ c.name ++ "' is already registered")
      [("capability", .text c.name)]
  else .ok (r.put c)

/-- The capability for a kind of step, or else the one for every kind. -/
def lookup (r : Registry) (type : Option NodeType) (provider operation : String) : Option Capability :=
  r.get? ⟨type, provider, operation⟩ <|> r.get? ⟨none, provider, operation⟩

def find? (r : Registry) (n : Node) : Option Capability :=
  r.lookup (some n.type) n.provider n.operation

def resolve (r : Registry) (n : Node) : Except Fault Capability :=
  match r.find? n with
  | some c => .ok c
  | none =>
    Capability.registryFault
      ("No capability registered for '" ++ n.capabilityName ++ "' (type '" ++ n.type.name ++ "')")
      [("capability", .text n.capabilityName)]

/-- Remove a capability; says whether it was there. -/
def unregister (r : Registry) (key : CapabilityKey) : Registry × Bool :=
  ({ capabilities := r.capabilities.filter fun c => c.key ≠ key }, (r.get? key).isSome)

def typeText (c : Capability) : String :=
  (c.nodeType.map NodeType.name).getD ""

/-- By name, then by kind of step. -/
def comesBefore (a b : Capability) : Bool :=
  if a.name = b.name then !(typeText b < typeText a) else a.name < b.name

def list (r : Registry) : List Capability :=
  r.capabilities.mergeSort comesBefore

def describe (r : Registry) : Table String :=
  Table.ofPairs (r.list.map fun c => (c.name, c.description))

def containsName (r : Registry) (name : String) : Bool :=
  r.capabilities.any fun c => c.name = name

end Registry

end Flowgraph
