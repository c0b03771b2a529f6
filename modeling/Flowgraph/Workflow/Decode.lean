import Flowgraph.Workflow.Scalar

/-! Workflows read from payloads. Every field may be spelt in camel case or with low lines; the
first spelling wins when both are given. Unknown fields are ignored, missing ones take their
defaults, and every issue is reported in the order of the fields. -/

namespace Flowgraph

/-- A field's name in payloads and its spelling with low lines. -/
structure FieldName where
  camel : String
  snake : String

/-- A field of one word is spelt in one way. -/
def FieldName.word (name : String) : FieldName :=
  ⟨name, name⟩

namespace Reading

/-- The spelling under which a field is given, and its value. -/
def find? (fs : Fields) (name : FieldName) : Option (String × Value) :=
  match Table.get? fs name.camel with
  | some v => some (name.camel, v)
  | none => (Table.get? fs name.snake).map fun v => (name.snake, v)

def required {α : Type} (fs : Fields) (name : FieldName) (read : Value → Reading α) : Reading α :=
  match find? fs name with
  | some (spelling, v) => (read v).under (.field spelling)
  | none => rejected [⟨[.field name.camel], .missing, .object fs⟩]

def optional {α : Type} (fs : Fields) (name : FieldName) (fallback : α) (read : Value → Reading α) :
    Reading α :=
  match find? fs name with
  | some (spelling, v) => (read v).under (.field spelling)
  | none => accepted fallback

/-- A field that may be missing or null. -/
def perhaps {α : Type} (fs : Fields) (name : FieldName) (read : Value → Reading α) :
    Reading (Option α) :=
  optional fs name none (nullable read)

def record {α : Type} (model : String) (read : Fields → Reading α) (v : Value) : Reading α :=
  match v.fields? with
  | some fs => read fs
  | none => reject (.notRecord model) v

end Reading

open Reading

def Number.reading (v : Value) : Reading Number :=
  (Reading.float v).map Number.float

def Position.ofFields (fs : Fields) : Reading Position :=
  Position.mk
    <$> optional fs (.word "x") (.int 0) Number.reading
    <*> optional fs (.word "y") (.int 0) Number.reading

def Position.ofValue : Value → Reading Position :=
  record "Position" Position.ofFields

def NodeRuntime.ofFields (fs : Fields) : Reading NodeRuntime :=
  NodeRuntime.mk
    <$> perhaps fs (.word "timeout") positive
    <*> perhaps fs (.word "retries") natural
    <*> optional fs ⟨"continueOnError", "continue_on_error"⟩ false boolean

def NodeRuntime.ofValue : Value → Reading NodeRuntime :=
  record "NodeRuntime" NodeRuntime.ofFields

def Credentials.ofFields (fs : Fields) : Reading Credentials :=
  Credentials.mk
    <$> perhaps fs (.word "id") text
    <*> perhaps fs (.word "name") text

def Credentials.ofValue : Value → Reading Credentials :=
  record "Credentials" Credentials.ofFields

def Condition.ofFields (fs : Fields) : Reading Condition :=
  Condition.mk
    <$> optional fs (.word "enabled") true boolean
    <*> perhaps fs (.word "expression") text

def Condition.ofValue : Value → Reading Condition :=
  record "Condition" Condition.ofFields

def Node.ofFields (fs : Fields) : Reading Node :=
  Node.mk
    <$> required fs (.word "id") identifier
    <*> required fs (.word "type") (member NodeType.all NodeType.name)
    <*> required fs (.word "provider") identifier
    <*> required fs (.word "operation") identifier
    <*> perhaps fs (.word "name") text
    <*> perhaps fs (.word "description") text
    <*> perhaps fs (.word "position") Position.ofValue
    <*> optional fs (.word "inputs") [] fields
    <*> perhaps fs (.word "outputs") fields
    <*> optional fs (.word "runtime") {} NodeRuntime.ofValue
    <*> perhaps fs (.word "credentials") Credentials.ofValue
    <*> perhaps fs (.word "condition") Condition.ofValue

def Node.ofValue : Value → Reading Node :=
  record "Node" Node.ofFields

def Edge.ofFields (fs : Fields) : Reading Edge :=
  Edge.mk
    <$> required fs (.word "id") identifier
    <*> required fs (.word "source") identifier
    <*> required fs (.word "target") identifier
    <*> perhaps fs ⟨"sourceHandle", "source_handle"⟩ text
    <*> perhaps fs ⟨"targetHandle", "target_handle"⟩ text
    <*> optional fs (.word "type") .plain (member EdgeType.all EdgeType.name)
    <*> perhaps fs (.word "condition") Condition.ofValue
    <*> perhaps fs (.word "label") text

def Edge.ofValue : Value → Reading Edge :=
  record "Edge" Edge.ofFields

def Variable.ofFields (fs : Fields) : Reading Variable :=
  Variable.mk
    <$> required fs (.word "id") text
    <*> required fs (.word "name") text
    <*> required fs (.word "type") (member VariableType.all VariableType.name)
    <*> optional fs (.word "value") .null anything
    <*> perhaps fs (.word "description") text
    <*> optional fs (.word "scope") .workflow (member VariableScope.all VariableScope.name)
    <*> optional fs (.word "mutable") true boolean

def Variable.ofValue : Value → Reading Variable :=
  record "Variable" Variable.ofFields

def Settings.ofFields (fs : Fields) : Reading Settings :=
  Settings.mk
    <$> optional fs ⟨"errorHandling", "error_handling"⟩ .stopOnError
      (member ErrorHandling.all ErrorHandling.name)
    <*> perhaps fs ⟨"maxRetries", "max_retries"⟩ natural
    <*> perhaps fs (.word "timeout") positive

def Settings.ofValue : Value → Reading Settings :=
  record "WorkflowSettings" Settings.ofFields

def Metadata.ofFields (fs : Fields) : Reading Metadata :=
  Metadata.mk
    <$> perhaps fs ⟨"createdAt", "created_at"⟩ text
    <*> perhaps fs ⟨"updatedAt", "updated_at"⟩ text
    <*> perhaps fs ⟨"createdBy", "created_by"⟩ text
    <*> optional fs (.word "tags") [] (items text)

def Metadata.ofValue : Value → Reading Metadata :=
  record "WorkflowMetadata" Metadata.ofFields

def Workflow.ofFields (fs : Fields) : Reading Workflow :=
  Workflow.mk
    <$> required fs (.word "id") text
    <*> required fs (.word "name") text
    <*> perhaps fs (.word "description") text
    <*> required fs (.word "version") text
    <*> optional fs (.word "settings") {} Settings.ofValue
    <*> required fs (.word "nodes") (items Node.ofValue)
    <*> optional fs (.word "edges") [] (items Edge.ofValue)
    <*> optional fs (.word "variables") [] (items Variable.ofValue)
    <*> perhaps fs (.word "metadata") Metadata.ofValue

def Workflow.ofValue : Value → Reading Workflow :=
  record "Workflow" Workflow.ofFields

def EditOperation.ofFields (fs : Fields) : Reading EditOperation :=
  EditOperation.mk
    <$> required fs (.word "action") (member EditAction.all EditAction.name)
    <*> optional fs (.word "data") [] fields

def EditOperation.ofValue : Value → Reading EditOperation :=
  record "EditOperation" EditOperation.ofFields

def NodeLog.ofFields (fs : Fields) : Reading NodeLog :=
  NodeLog.mk
    <$> required fs ⟨"nodeId", "node_id"⟩ text
    <*> perhaps fs ⟨"startTime", "start_time"⟩ moment
    <*> perhaps fs ⟨"endTime", "end_time"⟩ moment
    <*> optional fs (.word "status") .pending (member NodeStatus.all NodeStatus.name)
    <*> perhaps fs (.word "inputs") fields
    <*> perhaps fs (.word "outputs") fields
    <*> perhaps fs (.word "error") text
    <*> optional fs (.word "retries") 0 integer

def NodeLog.ofValue : Value → Reading NodeLog :=
  record "NodeExecutionLog" NodeLog.ofFields

def ExecutionLog.ofFields (fs : Fields) : Reading ExecutionLog :=
  ExecutionLog.mk
    <$> required fs ⟨"executionId", "execution_id"⟩ text
    <*> required fs ⟨"workflowId", "workflow_id"⟩ text
    <*> required fs ⟨"startTime", "start_time"⟩ moment
    <*> perhaps fs ⟨"endTime", "end_time"⟩ moment
    <*> optional fs (.word "status") .running (member RunStatus.all RunStatus.name)
    <*> perhaps fs (.word "error") text
    <*> optional fs ⟨"nodeLogs", "node_logs"⟩ [] (items NodeLog.ofValue)

def ExecutionLog.ofValue : Value → Reading ExecutionLog :=
  record "WorkflowExecutionLog" ExecutionLog.ofFields

end Flowgraph
