import Flowgraph.Capability
import Flowgraph.Decimal.Numeral
import Flowgraph.Scope.Guard
import Flowgraph.Text.LetterCase
import Flowgraph.Value.Collect

/-! The capabilities that every engine has: triggers, variables, conditions, messages, pauses, and
a web request that only emitted workflows can make. -/

namespace Flowgraph.Builtin

/-- A failed write to the variables of a run, as the failure of an attempt. -/
def failureOf (f : Fault) : Failure :=
  ⟨.runtime, f.message⟩

/-- The inputs of the run, overlaid with those of the step. -/
def passThrough (i : Invocation) : Effort :=
  .now fun s => (s, .ok (.object (s.inputs.merge i.inputs)))

/-- Write variables until one is refused. -/
def writeAll (node : String) (s : Scope) : List (String × Value) → Scope × Except Failure Unit
  | [] => (s, .ok ())
  | (name, v) :: rest =>
    match s.write name v node .workflow with
    | .ok s => writeAll node s rest
    | .error f => (s, .error (failureOf f))

def setVariables (i : Invocation) : Effort :=
  .now fun s =>
    let (s, r) := writeAll i.node.id s i.inputs
    (s, r.map fun _ => .object i.inputs)

def noOp (i : Invocation) : Effort :=
  Effort.done i.inputs

/-- An expression that is a truth value already stands for itself, every other is evaluated as
text; without one the input `value` decides. -/
def conditionHolds (s : Scope) (node : String) (inputs : Fields) : Except Failure Bool :=
  match inputs.getD "expression" .null with
  | .null => .ok (inputs.getD "value" .null).truthy
  | .bool b => .ok b
  | e => s.evaluate (some node) e.display

def condition (i : Invocation) : Effort :=
  .now fun s =>
    (s, (conditionHolds s i.node.id i.inputs).map fun b => .object [("result", .bool b)])

def logMessage (i : Invocation) : Effort :=
  Effort.done [("message", .text (i.inputs.getD "message" (.text "")).display)]

/-- A floating-point number from a value. -/
def toFloat : Value → Except Failure Float
  | .bool b => .ok (if b then 1 else 0)
  | .int n => (Number.int n).toFloat
  | .float x => .ok x
  | .text s =>
    match Decimal.readFloat s.toList with
    | some x => .ok x
    | none => Failure.badValue ("could not convert string to float: " ++ Text.quoted s)
  | v =>
    Failure.badType
      ("float() argument must be a string or a real number, not '" ++ v.kindName ++ "'")

def wait (i : Invocation) : Effort :=
  match toFloat (i.inputs.getD "seconds" (.int 0)) with
  | .error f => Effort.failed f
  | .ok x =>
    if x < 0 then Effort.failed ⟨.badValue, "Wait duration cannot be negative"⟩
    else .after (.float x) fun s => (s, .ok (.object [("waited", .float x)]))

/-! External forms -/

def noParameters (_ : Node) : Except Failure Fields :=
  .ok []

def upperText (v : Value) : Value :=
  .text (Text.upper v.display)

def webhookParameters (n : Node) : Except Failure Fields :=
  .ok
    [("path", n.inputs.getD "path" (.text n.id)),
     ("httpMethod", upperText (n.inputs.getD "method" (.text "POST")))]

def scheduleParameters (n : Node) : Except Failure Fields :=
  let interval : Fields :=
    match n.inputs.get? "cron" with
    | some cron => [("field", .text "cronExpression"), ("expression", cron)]
    | none => [("field", .text "minutes"), ("minutesInterval", n.inputs.getD "minutes" (.int 5))]
  .ok [("rule", .object [("interval", .list [.object interval])])]

def setParameters (n : Node) : Except Failure Fields :=
  let assignment (entry : String × Value) : Value :=
    .object [("name", .text entry.1), ("value", entry.2), ("type", .text (entry.2.kindName))]
  .ok
    [("mode", .text "manual"),
     ("assignments", .object [("assignments", .list (n.inputs.map assignment))])]

def ifParameters (n : Node) : Except Failure Fields :=
  let expression := n.inputs.getD "expression" (n.inputs.getD "value" (.bool false))
  .ok
    [("conditions", .object
      [("boolean", .list
        [.object [("value1", .text ("=" ++ expression.display)), ("value2", .bool true)]])])]

def waitParameters (n : Node) : Except Failure Fields :=
  .ok [("amount", n.inputs.getD "seconds" (.int 0)), ("unit", .text "seconds")]

def headerList : Value → Except Failure (List Value)
  | .object fs => .ok (fs.map fun (key, v) => .object [("name", .text key), ("value", v)])
  | v => .error ⟨.noAttribute, "'" ++ v.kindName ++ "' object has no attribute 'items'"⟩

def httpParameters (n : Node) : Except Failure Fields := do
  let base : Fields :=
    [("url", n.inputs.getD "url" (.text "")),
     ("method", upperText (n.inputs.getD "method" (.text "GET")))]
  let body := n.inputs.getD "body" .null
  let withBody : Fields :=
    if body.isNull then [] else [("sendBody", .bool true), ("jsonBody", body)]
  let headers := n.inputs.getD "headers" .null
  let withHeaders : Fields ←
    if headers.truthy then do
      let items ← headerList headers
      pure [("sendHeaders", Value.bool true), ("headerParameters", .object [("parameters", .list items)])]
    else pure []
  pure (base ++ withBody ++ withHeaders)

def sync (perform : Invocation → Effort) : Option Executor :=
  some { isAsync := false, perform }

def trigger (operation description : String) (external : ExternalForm) : Capability where
  provider := "trigger"
  operation := operation
  nodeType := some .trigger
  executor := sync passThrough
  external := some external
  description := description
  runtimeCall := some ("trigger." ++ operation)

def core (operation description : String) (executor : Option Executor) (external : ExternalForm) :
    Capability where
  provider := "core"
  operation := operation
  executor := executor
  external := some external
  description := description
  runtimeCall := some ("core." ++ operation)

def capabilities : List Capability :=
  [trigger "manual" "Start a run on demand"
     { nodeType := "n8n-nodes-base.manualTrigger", parameters := noParameters, supportsErrorOutput := false },
   trigger "webhook" "Start a run from an incoming HTTP request"
     { nodeType := "n8n-nodes-base.webhook", typeVersion := .int 2, parameters := webhookParameters,
       supportsErrorOutput := false },
   trigger "schedule" "Start a run on a schedule"
     { nodeType := "n8n-nodes-base.scheduleTrigger", typeVersion := .float 1.2,
       parameters := scheduleParameters, supportsErrorOutput := false },
   core "set" "Write workflow variables" (sync setVariables)
     { nodeType := "n8n-nodes-base.set", typeVersion := .float 3.4, parameters := setParameters },
   core "noop" "Pass inputs through unchanged" (sync noOp)
     { nodeType := "n8n-nodes-base.noOp", parameters := noParameters },
   { provider := "logic", operation := "if", nodeType := some .condition, executor := sync condition
     external := some { nodeType := "n8n-nodes-base.if", parameters := ifParameters }
     description := "Evaluate a boolean expression", runtimeCall := some "logic.if" },
   core "log" "Write a message to the engine log" (sync logMessage)
     { nodeType := "n8n-nodes-base.noOp", parameters := noParameters },
   core "wait" "Pause for a number of seconds" (some { isAsync := true, perform := wait })
     { nodeType := "n8n-nodes-base.wait", typeVersion := .float 1.1, parameters := waitParameters },
   { provider := "http", operation := "request"
     external := some
       { nodeType := "n8n-nodes-base.httpRequest", typeVersion := .float 4.2, parameters := httpParameters }
     runtimeCall := some "http.request", description := "HTTP request (compile targets only)"
     metadata := [("credential_type", .text "httpHeaderAuth")] }]

/-- Register all of them. What came before one that is refused stays registered. -/
def register (r : Registry) (replace : Bool) : Registry × Except Fault Unit :=
  capabilities.foldl
    (fun acc c =>
      match acc with
      | (r, .ok ()) =>
        match r.register c replace with
        | .ok r => (r, .ok ())
        | .error f => (r, .error f)
      | stopped => stopped)
    (r, .ok ())

def registry : Registry :=
  { capabilities := capabilities }

end Flowgraph.Builtin
