import Flowgraph.Service.Request
import Flowgraph.Workflow.Decode

/-! What the bodies of requests ask for. -/

namespace Flowgraph

structure GenerateRequest where
  prompt : String
  context : Option Fields
  userId : Option String

structure CreateRequest where
  workflow : Fields
  userId : Option String

structure EditRequest where
  action : EditAction
  data : Fields
  instruction : Option String

structure RunRequest where
  inputs : Fields
  secrets : Fields
  wait : Bool

structure CompileRequest where
  format : String

namespace Payload

open Reading

def userId : FieldName := ⟨"userId", "user_id"⟩

def prompt (v : Value) : Reading String :=
  (text v).andThen fun s => if s = "" then reject (.tooShort 1) v else accepted s

def generate (fs : Fields) : Reading GenerateRequest :=
  GenerateRequest.mk
    <$> required fs (.word "prompt") prompt
    <*> perhaps fs (.word "context") fields
    <*> perhaps fs userId text

def create (fs : Fields) : Reading CreateRequest :=
  CreateRequest.mk
    <$> required fs (.word "workflow") fields
    <*> perhaps fs userId text

def edit (fs : Fields) : Reading EditRequest :=
  EditRequest.mk
    <$> required fs (.word "action") (member EditAction.all EditAction.name)
    <*> optional fs (.word "data") [] fields
    <*> perhaps fs (.word "instruction") text

def run (fs : Fields) : Reading RunRequest :=
  RunRequest.mk
    <$> optional fs (.word "inputs") [] fields
    <*> optional fs (.word "secrets") [] fields
    <*> optional fs (.word "wait") true boolean

def compile (fs : Fields) : Reading CompileRequest :=
  CompileRequest.mk <$> optional fs (.word "format") "external" text

/-- The data of a body; it has to be there. -/
def given {α : Type} (read : Value → Reading α) : Option Value → Reading α
  | none | some .null => reject .missing .null
  | some v => read v

/-- A body with fields. -/
def record {α : Type} (read : Fields → Reading α) : Option Value → Reading α :=
  given fun v =>
    match v.fields? with
    | some fs => read fs
    | none => reject .notFields v

/-- A body that is a table itself. -/
def table : Option Value → Reading Fields :=
  given fields

end Payload

namespace Body

/-- The data of a body; an empty text is none. -/
def value? : Body → Except Json.Fault.At (Option Value)
  | absent => .ok none
  | data v => .ok (some v)
  | text s => if s = "" then .ok none else (Json.parse s).map some

end Body

end Flowgraph
