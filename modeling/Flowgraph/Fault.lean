import Flowgraph.Failure
import Flowgraph.Moment
import Flowgraph.Value
import Flowgraph.Workflow.Basic
import Flowgraph.Workflow.Issue

/-! Faults of the engine: what kind of thing was refused, how grave it is, and the particulars
that go into reports and responses. -/

namespace Flowgraph

inductive Severity where
  | low
  | medium
  | high
  | critical
  deriving DecidableEq, Repr

def Severity.name : Severity → String
  | low => "low"
  | medium => "medium"
  | high => "high"
  | critical => "critical"

def Severity.all : List Severity :=
  [low, medium, high, critical]

inductive FaultCategory where
  | validation
  | dependency
  | execution
  | compilation
  | storage
  | configuration
  | externalService
  deriving DecidableEq, Repr

def FaultCategory.name : FaultCategory → String
  | validation => "validation"
  | dependency => "dependency"
  | execution => "execution"
  | compilation => "compilation"
  | storage => "storage"
  | configuration => "configuration"
  | externalService => "external_service"

def FaultCategory.all : List FaultCategory :=
  [validation, dependency, execution, compilation, storage, configuration, externalService]

inductive FaultKind where
  | engine
  | validation
  | edit
  | dependency
  | execution
  | timeout
  | compilation
  | registry
  | scope
  | storage
  | suggestion
  | configuration
  deriving DecidableEq, Repr

namespace FaultKind

def label : FaultKind → String
  | engine => "WorkflowEngineError"
  | validation => "GraphValidationError"
  | edit => "GraphEditError"
  | dependency => "DependencyError"
  | execution => "NodeExecutionError"
  | timeout => "NodeTimeoutError"
  | compilation => "CompilationError"
  | registry => "CapabilityRegistryError"
  | scope => "VariableScopeError"
  | storage => "StorageError"
  | suggestion => "AISuggestionError"
  | configuration => "ConfigurationError"

def all : List FaultKind :=
  [engine, validation, edit, dependency, execution, timeout, compilation, registry, scope, storage,
   suggestion, configuration]

def severity : FaultKind → Severity
  | execution | timeout | storage | configuration => .high
  | _ => .medium

def category : FaultKind → FaultCategory
  | engine | execution | timeout | scope => .execution
  | validation | edit => .validation
  | dependency => .dependency
  | compilation => .compilation
  | registry | configuration => .configuration
  | storage => .storage
  | suggestion => .externalService

def recoverable : FaultKind → Bool
  | execution | timeout | suggestion | storage => true
  | _ => false

end FaultKind

/-- Where a particular of a fault is reported, and whether an empty one counts as not given. -/
structure Particular where
  name : String
  inContext : Bool
  keepEmpty : Bool := false

namespace FaultKind

/-- The particulars that a kind of fault takes. -/
def particulars : FaultKind → List Particular
  | engine => []
  | validation => [⟨"workflow_id", true, false⟩, ⟨"validation_errors", false, false⟩]
  | edit => [⟨"workflow_id", true, false⟩, ⟨"validation_errors", false, false⟩, ⟨"action", true, false⟩]
  | dependency => [⟨"target", true, false⟩, ⟨"unresolved", false, false⟩]
  | execution => [⟨"node_id", true, false⟩, ⟨"run_id", true, false⟩, ⟨"attempt", false, true⟩]
  | timeout =>
    [⟨"node_id", true, false⟩, ⟨"run_id", true, false⟩, ⟨"attempt", false, true⟩,
     ⟨"timeout_ms", false, true⟩]
  | compilation => [⟨"target", true, false⟩]
  | registry => [⟨"capability", true, false⟩]
  | scope => [⟨"variable", true, false⟩, ⟨"scope", true, false⟩]
  | storage => [⟨"operation", true, false⟩, ⟨"table", true, false⟩]
  | suggestion => [⟨"operation", true, false⟩]
  | configuration => [⟨"config_key", true, false⟩]

/-- What a fault of a kind carries besides its report, with the value when it was not given. -/
def carried : FaultKind → List (String × Value)
  | validation | edit => [("validation_errors", .list [])]
  | dependency => [("unresolved", .list [])]
  | execution | timeout => [("node_id", .null)]
  | storage => [("not_found", .bool false)]
  | _ => []

/-- Whether reports of a kind fix the severity and category, and whether they fix recoverability. -/
def fixesGravity : FaultKind → Bool
  | engine => false
  | _ => true

def fixesRecovery : FaultKind → Bool
  | execution | timeout | storage | suggestion => true
  | _ => false

end FaultKind

structure Fault where
  kind : FaultKind
  message : String
  code : String
  severity : Severity
  category : FaultCategory
  recoverable : Bool
  details : Fields
  context : Fields
  /-- Facts for the caller that are not part of the report. -/
  carried : Fields

namespace Fault

def isGiven (p : Particular) (v : Value) : Bool :=
  if p.keepEmpty then !v.isNull else v.truthy

def addParticular (given : Fields) (f : Fault) (p : Particular) : Fault :=
  match Table.get? given p.name with
  | none => f
  | some v =>
    if !isGiven p v then f
    else if p.inContext then { f with context := Table.set f.context p.name v }
    else { f with details := Table.set f.details p.name v }

/-- What a fault carries: a list stands for itself unless it is empty. -/
def carriedFrom (kind : FaultKind) (given : Fields) : Fields :=
  kind.carried.map fun (name, fallback) =>
    match Table.get? given name, fallback with
    | some v, .list _ => (name, if v.truthy then v else fallback)
    | some v, _ => (name, v)
    | none, _ => (name, fallback)

def plain (kind : FaultKind) (message : String) : Fault :=
  { kind, message, code := kind.label, severity := kind.severity, category := kind.category,
    recoverable := kind.recoverable, details := [], context := [], carried := carriedFrom kind [] }

/-- A fault with its particulars. A record that was not found is not worth another attempt. -/
def withParticulars (kind : FaultKind) (message : String) (given : Fields) (start : Fault) : Fault :=
  let notFound := (Table.getD given "not_found" (.bool false)).truthy
  let base :=
    { start with
      kind, message
      carried := carriedFrom kind given
      recoverable := if kind = .storage then !notFound else start.recoverable }
  kind.particulars.foldl (addParticular given) base

def of (kind : FaultKind) (message : String) (given : Fields := []) : Fault :=
  withParticulars kind message given (plain kind message)

/-- Names of the particulars and settings that a fault of a kind can be given. -/
def accepts (kind : FaultKind) : List String :=
  kind.particulars.map Particular.name ++ kind.carried.map Prod.fst ++ ["error_code", "details", "context"]
    ++ (if kind.fixesGravity then [] else ["severity", "category"])
    ++ (if kind.fixesRecovery then [] else ["recoverable"])

def givenFields (given : Fields) (name : String) : Except Failure Fields :=
  match Table.get? given name with
  | none => .ok []
  | some (.object fs) => .ok fs
  | some v => if v.truthy then Failure.badType (name ++ " must be an object") else .ok []

def givenMember {α : Type} (members : List α) (name : α → String) (enumeration : String)
    (fallback : α) : Option Value → Except Failure α
  | none => .ok fallback
  | some v =>
    match v.text?.bind (memberNamed? members name) with
    | some m => .ok m
    | none => Failure.badValue (v.literal ++ " is not a valid " ++ enumeration)

/-- A fault from particulars and settings that come as data. -/
def make (kind : FaultKind) (message : String) (given : Fields) : Except Failure Fault := do
  let severity ← givenMember Severity.all Severity.name "ErrorSeverity" kind.severity
    (Table.get? given "severity")
  let category ← givenMember FaultCategory.all FaultCategory.name "ErrorCategory" kind.category
    (Table.get? given "category")
  if !given.keys.all (accepts kind).contains then Failure.badType "unexpected particular"
  else
    let details ← givenFields given "details"
    let context ← givenFields given "context"
    let code := ((Table.get? given "error_code").bind Value.text?).getD ""
    let recoverable := (Table.get? given "recoverable").map Value.truthy
    .ok <| withParticulars kind message given
      { plain kind message with
        severity, category, details, context
        code := if code = "" then kind.label else code
        recoverable := recoverable.getD kind.recoverable }

def addContext (f : Fault) (more : Fields) : Fault :=
  { f with context := Table.merge f.context more }

def addDetails (f : Fault) (more : Fields) : Fault :=
  { f with details := Table.merge f.details more }

/-- The full report of a fault. -/
def report (f : Fault) (now : Moment) : Fields :=
  [("error_code", .text f.code),
   ("message", .text f.message),
   ("severity", .text f.severity.name),
   ("category", .text f.category.name),
   ("details", .object f.details),
   ("recoverable", .bool f.recoverable),
   ("context", .object f.context),
   ("timestamp", .text now.text),
   ("exception_type", .text f.kind.label)]

/-- The body with which a request is answered that ended in a fault. -/
def response (f : Fault) (now : Moment) : Fields :=
  let gravity : Fields :=
    [("severity", .text f.severity.name),
     ("category", .text f.category.name),
     ("recoverable", .bool f.recoverable),
     ("timestamp", .text now.text)]
  [("error", .text f.code),
   ("message", .text f.message),
   ("details", .object (Table.merge f.details gravity)),
   ("context", .object f.context)]

end Fault

/-- What can keep an operation from giving a result: a fault of the engine, a failed evaluation,
or a payload that cannot be read as the model that was asked for. -/
inductive Mishap where
  | fault (f : Fault)
  | failure (f : Failure)
  | unreadable (model : String) (issues : List Issue)

namespace Mishap

def raise {α : Type} (kind : FaultKind) (message : String) (given : Fields := []) : Except Mishap α :=
  .error (.fault (Fault.of kind message given))

def ofReading {α : Type} (model : String) : Reading α → Except Mishap α
  | .accepted a => .ok a
  | .rejected issues => .error (.unreadable model issues)

def ofFailure {α : Type} : Except Failure α → Except Mishap α
  | .ok a => .ok a
  | .error f => .error (.failure f)

/-- The text of an unreadable payload: a head line, then the lines about each issue. -/
def issuesText (manual model : String) (issues : List Issue) : String :=
  let head := toString issues.length ++ " validation error" ++ (if issues.length = 1 then "" else "s")
    ++ " for " ++ model
  "\n".intercalate (head :: issues.flatMap (Issue.lines manual))

def text (manual : String) : Mishap → String
  | fault f => f.message
  | failure f => f.message
  | unreadable model issues => issuesText manual model issues

end Mishap

end Flowgraph
