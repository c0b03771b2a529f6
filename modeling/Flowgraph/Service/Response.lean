import Flowgraph.Fault
import Flowgraph.Value.Json
import Flowgraph.Workflow.Wire

/-! Responses: a status, and data or text. -/

namespace Flowgraph

inductive Content where
  | data (v : Value)
  | text (s : String)

structure Response where
  status : Nat
  content : Content

namespace Response

def ofValue (v : Value) : Response :=
  ⟨200, .data v.toWire⟩

def created (v : Value) : Response :=
  ⟨201, .data v.toWire⟩

def refuse (status : Nat) (detail : Value) : Response :=
  ⟨status, .data (.object [("detail", detail)])⟩

def refuseWith (status : Nat) (error message : String) (details : Fields) : Response :=
  refuse status
    (.object [("error", .text error), ("message", .text message), ("details", .object details)])

/-- Whether a request was refused. -/
def isRefusal (r : Response) : Bool :=
  400 ≤ r.status

/-! Requests that cannot be understood -/

def segmentValue : Segment → Value
  | .field name => .text name
  | .item index => .ofNat index

def issueValue (i : Issue) : Value :=
  let particulars := i.problem.particulars
  .object <|
    [("type", .text i.problem.code),
     ("loc", .list (.text "body" :: i.location.map segmentValue)),
     ("msg", .text i.problem.message),
     ("input", i.input)]
      ++ if particulars.isEmpty then [] else [("ctx", .object particulars)]

def notUnderstood (issues : List Issue) : Response :=
  refuse 422 (.list (issues.map issueValue))

/-- The body is no JSON text. -/
def notJson (at_ : Json.Fault.At) : Response :=
  refuse 422 <| .list [.object
    [("type", .text "json_invalid"),
     ("loc", .list [.text "body", .ofNat at_.position]),
     ("msg", .text "JSON decode error"),
     ("input", .object []),
     ("ctx", .object [("error", .text at_.fault.message)])]]

/-! Requests that cannot be met -/

/-- The status for a kind of fault. -/
def faultStatus (f : Fault) : Nat :=
  match f.kind with
  | .storage => if (f.carried.getD "not_found" (.bool false)).truthy then 404 else 500
  | .validation | .edit | .scope => 400
  | .dependency | .compilation => 422
  | .suggestion => 502
  | _ => 500

/-- What kept a request from being met, while something was being done. -/
def ofMishap (manual doing : String) (now : Moment) (e : Mishap) : Response :=
  match e with
  | .fault f => refuse (faultStatus f) (.object (f.response now))
  | _ =>
    refuse 500 <| .object
      [("error", .text "InternalError"),
       ("message", .text ("An unexpected error occurred while " ++ doing)),
       ("details", .object [("original_error", .text (e.text manual))]),
       ("timestamp", .text now.text)]

end Response

end Flowgraph
