import Flowgraph.Fault

/-! The variables of a run in three layers: those of the whole run, those that steps produce for
each other, and those of a step while it runs; beside them the run's inputs and the outputs that
steps have recorded. -/

namespace Flowgraph

structure Scope where
  inputs : Fields
  globals : Fields
  /-- Declared globals that steps may write. -/
  writable : List String
  shared : Fields
  /-- What every step's own layer starts with. -/
  defaults : Fields
  /-- The layers of the steps that are running. -/
  layers : Table Fields
  outputs : Table Fields
  /-- Which step produced a shared variable. -/
  writers : Table String
  deriving Inhabited

namespace Scope

def declare (s : Scope) (v : Variable) : Scope :=
  match v.scope with
  | .global =>
    { s with
      globals := s.globals.set v.name v.value
      writable := if v.mutable then s.writable ++ [v.name] else s.writable }
  | .node => { s with defaults := s.defaults.set v.name v.value }
  | .workflow => { s with shared := s.shared.set v.name v.value }

/-- Declared variables, the globals among them overridden by the run's inputs. -/
def make (vars : List Variable) (inputs : Fields) : Scope :=
  let declared := vars.foldl declare
    { inputs, globals := [], writable := [], shared := [], defaults := [], layers := [], outputs := [],
      writers := [] }
  { declared with globals := declared.globals.merge inputs }

/-- The layer of a step; empty unless the step is running. -/
def layer (s : Scope) (node : String) : Fields :=
  s.layers.getD node []

def isRunning (s : Scope) (node : String) : Bool :=
  s.layers.contains node

def enter (s : Scope) (node : String) (values : Fields) : Scope :=
  { s with layers := s.layers.set node (s.defaults.merge values) }

def exit (s : Scope) (node : String) : Scope :=
  { s with layers := s.layers.erase node }

def recordOutput (s : Scope) (node : String) (outputs : Fields) : Scope :=
  { s with outputs := s.outputs.set node outputs }

def scopeFault {α : Type} (message name layer : String) : Except Fault α :=
  .error (Fault.of .scope message [("variable", .text name), ("scope", .text layer)])

/-- Write a variable on behalf of a step. Globals must be writable, a name that is global in any
way is written there, and a shared variable belongs to the step that wrote it first. -/
def write (s : Scope) (name : String) (value : Value) (node : String) (layer : VariableScope) :
    Except Fault Scope :=
  if layer = .node then
    if s.isRunning node then
      .ok { s with layers := s.layers.modify node (fun fs => fs.set name value) }
    else scopeFault ("Node '" ++ node ++ "' is not running") name VariableScope.node.name
  else if layer = .global || s.globals.contains name then
    if s.writable.contains name then .ok { s with globals := s.globals.set name value }
    else scopeFault ("Global variable '" ++ name ++ "' is read-only") name VariableScope.global.name
  else
    match s.writers.get? name with
    | some writer =>
      if writer = node then .ok { s with shared := s.shared.set name value }
      else
        scopeFault ("Workflow variable '" ++ name ++ "' was already produced by node '" ++ writer ++ "'")
          name VariableScope.workflow.name
    | none =>
      .ok { s with writers := s.writers.set name node, shared := s.shared.set name value }

def layerOf (s : Scope) (node : Option String) : Fields :=
  (node.map s.layer).getD []

/-- A variable by name: the step's own layer first, then the shared one, then the globals. -/
def lookup? (s : Scope) (node : Option String) (name : String) : Option Value :=
  ((s.layerOf node).get? name <|> s.shared.get? name) <|> s.globals.get? name

/-- All variables in one table; inner layers win. -/
def merged (s : Scope) (node : Option String) : Fields :=
  ((Table.merge [] s.globals).merge s.shared).merge (s.layerOf node)

def outputsValue (s : Scope) : Value :=
  .object (s.outputs.mapValues Value.object)

/-- The names that expressions see. -/
def names (s : Scope) (node : Option String) : Fields :=
  let vars := s.merged node
  ((vars.set "vars" (.object vars)).set "nodes" s.outputsValue).set "inputs" (.object s.inputs)

end Scope

end Flowgraph
