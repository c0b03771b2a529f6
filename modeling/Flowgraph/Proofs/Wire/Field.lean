import Flowgraph.Proofs.Validation.Reading
import Flowgraph.Workflow.Wire
import Mathlib.Data.List.DropRight

/-! Records are read field by field: a reading is accepted exactly when each of its fields is. The fields
of a canonical payload are found under their names, and single values are read from it as they were. -/

namespace Flowgraph

namespace Table

@[simp] theorem get?_present_nil (key : String) : get? (present []) key = none := rfl

@[simp] theorem get?_present_cons (name key : String) (o : Option Value) (rest : List (String × Option Value)) :
    get? (present ((name, o) :: rest)) key =
      if name = key then o.or (get? (present rest) key) else get? (present rest) key := by
  cases o <;> by_cases h : name = key <;> simp [present, get?, h]

end Table

/-! Trimmed texts -/

namespace Text

/-- Neither empty nor with a blank at one of its ends. -/
def Trimmed (s : String) : Prop :=
  trim s = s ∧ s ≠ ""

instance (s : String) : Decidable (Trimmed s) :=
  inferInstanceAs (Decidable (_ ∧ _))

theorem trimRight_eq (cs : List Char) : trimRight cs = cs.rdropWhile isBlank := rfl

/-- Taking the blanks off the end leaves none at the front if there was none. -/
theorem trimLeft_trimRight {cs : List Char} (h : trimLeft cs = cs) : trimLeft (trimRight cs) = trimRight cs := by
  rw [trimLeft, List.dropWhile_eq_self_iff] at h ⊢
  intro hpos
  have hfront : trimRight cs <+: cs := List.rdropWhile_prefix isBlank cs
  rw [hfront.getElem hpos]
  exact h (hpos.trans_le hfront.length_le)

theorem trim_trim (s : String) : trim (trim s) = trim s := by
  have hleft : trimLeft (trimLeft s.toList) = trimLeft s.toList := List.dropWhile_idempotent isBlank _
  rw [trim, trim, String.toList_ofList, trimChars, trimChars, trimLeft_trimRight hleft, trimRight_eq, trimRight_eq,
    List.rdropWhile_idempotent]

theorem trimmed_trim {s : String} (h : trim s ≠ "") : Trimmed (trim s) :=
  ⟨trim_trim s, h⟩

end Text

namespace Reading

section
variable {α β : Type} {fs : Fields} {name : FieldName} {read : Value → Reading α} {v : Value} {a : α}

theorem required_of_get? (hv : Table.get? fs name.camel = some v) (h : read v = accepted a) :
    required fs name read = accepted a := by
  rw [required, find?, hv]
  exact under_eq_accepted.2 h

theorem optional_of_get? {fallback : α} (hv : Table.get? fs name.camel = some v) (h : read v = accepted a) :
    optional fs name fallback read = accepted a := by
  rw [optional, find?, hv]
  exact under_eq_accepted.2 h

theorem perhaps_of_missing (hcamel : Table.get? fs name.camel = none) (hsnake : Table.get? fs name.snake = none) :
    perhaps fs name read = accepted none := by
  rw [perhaps, optional, find?, hcamel, hsnake]
  rfl

theorem nullable_eq_accepted {o : Option α} :
    nullable read v = accepted o ↔
      v.isNull = true ∧ o = none ∨ v.isNull = false ∧ ∃ a, read v = accepted a ∧ o = some a := by
  unfold nullable
  cases v.isNull with
  | true => simp [eq_comm]
  | false => cases read v <;> simp [Reading.map, eq_comm]

/-- A part that is written unless it is missing is read back as what its payload gives. -/
theorem perhaps_of_written {write : β → Value} {f : β → α} {o : Option β}
    (hcamel : Table.get? fs name.camel = o.map write) (hsnake : Table.get? fs name.snake = none ∨ name.snake = name.camel)
    (hread : ∀ b ∈ o, (write b).isNull = false ∧ read (write b) = accepted (f b)) :
    perhaps fs name read = accepted (o.map f) := by
  cases o with
  | none => exact perhaps_of_missing hcamel (hsnake.elim id fun he => he ▸ hcamel)
  | some b =>
    obtain ⟨hnull, hb⟩ := hread b rfl
    exact optional_of_get? hcamel (nullable_eq_accepted.2 (Or.inr ⟨hnull, f b, hb, rfl⟩))

theorem perhaps_of_written_self {write : α → Value} {o : Option α} (hcamel : Table.get? fs name.camel = o.map write)
    (hsnake : Table.get? fs name.snake = none ∨ name.snake = name.camel)
    (hread : ∀ a ∈ o, (write a).isNull = false ∧ read (write a) = accepted a) : perhaps fs name read = accepted o := by
  rw [perhaps_of_written hcamel hsnake (f := id) hread, Option.map_id]
  rfl

/-- A part that was read without a word about null was not null. -/
theorem perhaps_some_of_get? {o : Option α} (hv : Table.get? fs name.camel = some v) (hnull : v.isNull = false)
    (h : perhaps fs name read = accepted o) : ∃ a, read v = accepted a ∧ o = some a := by
  rw [perhaps, optional, find?, hv] at h
  rcases nullable_eq_accepted.1 (under_eq_accepted.1 h) with ⟨hyes, -⟩ | ⟨-, ha⟩
  · rw [hnull] at hyes
    cases hyes
  · exact ha

end

/-! Single values -/

theorem text_text (s : String) : text (.text s) = accepted s := rfl

theorem boolean_bool (b : Bool) : boolean (.bool b) = accepted b := rfl

theorem fields_object (fs : Fields) : fields (.object fs) = accepted fs := rfl

theorem identifier_text {s : String} (h : Text.Trimmed s) : identifier (.text s) = accepted s := by
  rw [identifier, text_text]
  change (if Text.trim s = "" then _ else accepted (Text.trim s)) = _
  rw [h.1, if_neg h.2]

theorem natural_ofNat (n : Nat) : natural (.ofNat n) = accepted n := by
  simp [natural, integer, andThen, Value.ofNat]

theorem positive_ofNat {n : Nat} (h : n ≠ 0) : positive (.ofNat n) = accepted n := by
  simp [positive, integer, andThen, Value.ofNat, Nat.pos_of_ne_zero h]

theorem member_name {α : Type} {members : List α} {name : α → String} {m : α}
    (h : memberNamed? members name (name m) = some m) : member members name (.text (name m)) = accepted m := by
  rw [member, Value.text?, Option.bind_some, h]

theorem member_nodeType (t : NodeType) : member NodeType.all NodeType.name (.text t.name) = accepted t :=
  member_name (by cases t <;> rfl)

theorem member_edgeType (t : EdgeType) : member EdgeType.all EdgeType.name (.text t.name) = accepted t :=
  member_name (by cases t <;> rfl)

theorem member_errorHandling (m : ErrorHandling) :
    member ErrorHandling.all ErrorHandling.name (.text m.name) = accepted m :=
  member_name (by cases m <;> rfl)

theorem member_variableType (t : VariableType) :
    member VariableType.all VariableType.name (.text t.name) = accepted t :=
  member_name (by cases t <;> rfl)

theorem member_variableScope (s : VariableScope) :
    member VariableScope.all VariableScope.name (.text s.name) = accepted s :=
  member_name (by cases s <;> rfl)

section
variable {fs : Fields} {name : FieldName}

theorem perhaps_wireText {o : Option String} (hcamel : Table.get? fs name.camel = wireText o)
    (hsnake : Table.get? fs name.snake = none ∨ name.snake = name.camel) : perhaps fs name text = accepted o :=
  perhaps_of_written_self hcamel hsnake fun s _ => ⟨rfl, text_text s⟩

theorem perhaps_wireNat {o : Option Nat} (hcamel : Table.get? fs name.camel = wireNat o)
    (hsnake : Table.get? fs name.snake = none ∨ name.snake = name.camel) : perhaps fs name natural = accepted o :=
  perhaps_of_written_self hcamel hsnake fun n _ => ⟨rfl, natural_ofNat n⟩

theorem perhaps_wirePositive {o : Option Nat} (hcamel : Table.get? fs name.camel = wireNat o)
    (hsnake : Table.get? fs name.snake = none ∨ name.snake = name.camel) (h : o ≠ some 0) :
    perhaps fs name positive = accepted o :=
  perhaps_of_written_self hcamel hsnake fun _ hn => ⟨rfl, positive_ofNat fun h0 => h (h0 ▸ hn)⟩

end

theorem items_texts (texts : List String) : items text (.ofTexts texts) = accepted texts := by
  rw [Value.ofTexts, items_eq_accepted]
  refine ⟨_, rfl, List.forall₂_map_left_iff.2 (List.forall₂_same.2 fun s _ => text_text s)⟩

end Reading

/-! The fields that a record is made of -/

open Reading

variable {fs : Fields}

@[mk_iff]
structure Position.MadeOf (fs : Fields) (p : Position) : Prop where
  x : optional fs (.word "x") (.int 0) Number.reading = accepted p.x
  y : optional fs (.word "y") (.int 0) Number.reading = accepted p.y

@[mk_iff]
structure NodeRuntime.MadeOf (fs : Fields) (r : NodeRuntime) : Prop where
  timeout : perhaps fs (.word "timeout") positive = accepted r.timeout
  retries : perhaps fs (.word "retries") natural = accepted r.retries
  continueOnError :
    optional fs ⟨"continueOnError", "continue_on_error"⟩ false boolean = accepted r.continueOnError

@[mk_iff]
structure Credentials.MadeOf (fs : Fields) (c : Credentials) : Prop where
  id : perhaps fs (.word "id") text = accepted c.id
  name : perhaps fs (.word "name") text = accepted c.name

@[mk_iff]
structure Condition.MadeOf (fs : Fields) (c : Condition) : Prop where
  enabled : optional fs (.word "enabled") true boolean = accepted c.enabled
  expression : perhaps fs (.word "expression") text = accepted c.expression

@[mk_iff]
structure Node.MadeOf (fs : Fields) (n : Node) : Prop where
  id : required fs (.word "id") identifier = accepted n.id
  type : required fs (.word "type") (member NodeType.all NodeType.name) = accepted n.type
  provider : required fs (.word "provider") identifier = accepted n.provider
  operation : required fs (.word "operation") identifier = accepted n.operation
  name : perhaps fs (.word "name") text = accepted n.name
  description : perhaps fs (.word "description") text = accepted n.description
  position : perhaps fs (.word "position") Position.ofValue = accepted n.position
  inputs : optional fs (.word "inputs") [] fields = accepted n.inputs
  outputs : perhaps fs (.word "outputs") fields = accepted n.outputs
  runtime : optional fs (.word "runtime") {} NodeRuntime.ofValue = accepted n.runtime
  credentials : perhaps fs (.word "credentials") Credentials.ofValue = accepted n.credentials
  condition : perhaps fs (.word "condition") Condition.ofValue = accepted n.condition

@[mk_iff]
structure Edge.MadeOf (fs : Fields) (e : Edge) : Prop where
  id : required fs (.word "id") identifier = accepted e.id
  source : required fs (.word "source") identifier = accepted e.source
  target : required fs (.word "target") identifier = accepted e.target
  sourceHandle : perhaps fs ⟨"sourceHandle", "source_handle"⟩ text = accepted e.sourceHandle
  targetHandle : perhaps fs ⟨"targetHandle", "target_handle"⟩ text = accepted e.targetHandle
  type : optional fs (.word "type") .plain (member EdgeType.all EdgeType.name) = accepted e.type
  condition : perhaps fs (.word "condition") Condition.ofValue = accepted e.condition
  label : perhaps fs (.word "label") text = accepted e.label

@[mk_iff]
structure Variable.MadeOf (fs : Fields) (v : Variable) : Prop where
  id : required fs (.word "id") text = accepted v.id
  name : required fs (.word "name") text = accepted v.name
  type : required fs (.word "type") (member VariableType.all VariableType.name) = accepted v.type
  value : optional fs (.word "value") .null anything = accepted v.value
  description : perhaps fs (.word "description") text = accepted v.description
  scope : optional fs (.word "scope") .workflow (member VariableScope.all VariableScope.name) = accepted v.scope
  mutable : optional fs (.word "mutable") true boolean = accepted v.mutable

@[mk_iff]
structure Settings.MadeOf (fs : Fields) (s : Settings) : Prop where
  errorHandling :
    optional fs ⟨"errorHandling", "error_handling"⟩ .stopOnError (member ErrorHandling.all ErrorHandling.name) =
      accepted s.errorHandling
  maxRetries : perhaps fs ⟨"maxRetries", "max_retries"⟩ natural = accepted s.maxRetries
  timeout : perhaps fs (.word "timeout") positive = accepted s.timeout

@[mk_iff]
structure Metadata.MadeOf (fs : Fields) (m : Metadata) : Prop where
  createdAt : perhaps fs ⟨"createdAt", "created_at"⟩ text = accepted m.createdAt
  updatedAt : perhaps fs ⟨"updatedAt", "updated_at"⟩ text = accepted m.updatedAt
  createdBy : perhaps fs ⟨"createdBy", "created_by"⟩ text = accepted m.createdBy
  tags : optional fs (.word "tags") [] (items text) = accepted m.tags

@[mk_iff]
structure Workflow.MadeOf (fs : Fields) (w : Workflow) : Prop where
  id : required fs (.word "id") text = accepted w.id
  name : required fs (.word "name") text = accepted w.name
  description : perhaps fs (.word "description") text = accepted w.description
  version : required fs (.word "version") text = accepted w.version
  settings : optional fs (.word "settings") {} Settings.ofValue = accepted w.settings
  nodes : required fs (.word "nodes") (items Node.ofValue) = accepted w.nodes
  edges : optional fs (.word "edges") [] (items Edge.ofValue) = accepted w.edges
  vars : optional fs (.word "variables") [] (items Variable.ofValue) = accepted w.vars
  metadata : perhaps fs (.word "metadata") Metadata.ofValue = accepted w.metadata

theorem Position.ofFields_eq_accepted {p : Position} : Position.ofFields fs = accepted p ↔ p.MadeOf fs := by
  cases p
  simp [Position.ofFields, apply_eq_accepted, Position.madeOf_iff]

theorem NodeRuntime.ofFields_eq_accepted {r : NodeRuntime} : NodeRuntime.ofFields fs = accepted r ↔ r.MadeOf fs := by
  cases r
  simp [NodeRuntime.ofFields, apply_eq_accepted, NodeRuntime.madeOf_iff, -Bool.exists_bool]

theorem Credentials.ofFields_eq_accepted {c : Credentials} : Credentials.ofFields fs = accepted c ↔ c.MadeOf fs := by
  cases c
  simp [Credentials.ofFields, apply_eq_accepted, Credentials.madeOf_iff]

theorem Condition.ofFields_eq_accepted {c : Condition} : Condition.ofFields fs = accepted c ↔ c.MadeOf fs := by
  cases c
  simp [Condition.ofFields, apply_eq_accepted, Condition.madeOf_iff, -Bool.exists_bool]

theorem Node.ofFields_eq_accepted {n : Node} : Node.ofFields fs = accepted n ↔ n.MadeOf fs := by
  cases n
  simp [Node.ofFields, apply_eq_accepted, Node.madeOf_iff, and_assoc]

theorem Edge.ofFields_eq_accepted {e : Edge} : Edge.ofFields fs = accepted e ↔ e.MadeOf fs := by
  cases e
  simp [Edge.ofFields, apply_eq_accepted, Edge.madeOf_iff, and_assoc]

theorem Variable.ofFields_eq_accepted {v : Variable} : Variable.ofFields fs = accepted v ↔ v.MadeOf fs := by
  cases v
  simp [Variable.ofFields, apply_eq_accepted, Variable.madeOf_iff, -Bool.exists_bool, and_assoc]

theorem Settings.ofFields_eq_accepted {s : Settings} : Settings.ofFields fs = accepted s ↔ s.MadeOf fs := by
  cases s
  simp [Settings.ofFields, apply_eq_accepted, Settings.madeOf_iff]

theorem Metadata.ofFields_eq_accepted {m : Metadata} : Metadata.ofFields fs = accepted m ↔ m.MadeOf fs := by
  cases m
  simp [Metadata.ofFields, apply_eq_accepted, Metadata.madeOf_iff, and_assoc]

theorem Workflow.ofFields_eq_accepted {w : Workflow} : Workflow.ofFields fs = accepted w ↔ w.MadeOf fs := by
  cases w
  simp [Workflow.ofFields, apply_eq_accepted, Workflow.madeOf_iff, and_assoc]

end Flowgraph
