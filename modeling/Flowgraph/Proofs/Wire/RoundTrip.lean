import Flowgraph.Proofs.Decimal.Order
import Flowgraph.Proofs.Validation.Normal
import Flowgraph.Proofs.Wire.Field
import Mathlib

/-! A workflow that was read is written as a payload, and the payload is read again. It gives back the
workflow exactly when its free-form numbers are finite, since only they have a decimal text, and no
coordinate is undefined. Parts are equal as they are, except that a coordinate may come back as another
number of the same value. -/

namespace Flowgraph

open Reading

/-! Finite numbers -/

namespace Number

def isFinite (x : Number) : Bool :=
  Decimal.isFinite x.asFloat

/-- Whether the nearest floating-point number is equal to itself, as all are but one. -/
def isDefinite (x : Number) : Bool :=
  x.asFloat == x.asFloat

/-- What reading makes of a coordinate: zero where none was given, a floating-point number elsewhere. -/
def Coordinate (x : Number) : Prop :=
  x = .int 0 ∨ ∃ y, x = .float y

theorem coordinate_of_read {fs : Fields} {name : FieldName} {x : Number}
    (h : Reading.optional fs name (.int 0) reading = accepted x) : x.Coordinate := by
  unfold Reading.optional at h
  split at h
  · rw [under_eq_accepted, reading] at h
    revert h
    cases Reading.float _ with
    | accepted y => exact fun h => Or.inr ⟨y, (accepted.inj h).symm⟩
    | rejected issues => exact fun h => nomatch h
  · exact Or.inl (accepted.inj h).symm

theorem not_lt_of_beq {x y : Float} (h : (x == y) = true) : ¬ x < y := by
  intro hlt
  have heq : x.toModel.unpack.compare y.toModel.unpack = some .eq := eq_of_beq h
  have hless := Decimal.lt_iff.1 hlt
  rw [heq] at hless
  cases hless

theorem isDefinite_of_isFinite {x : Number} (h : x.isFinite = true) : x.isDefinite = true := by
  refine Float.beq_self_iff.2 fun hnan => ?_
  rw [isFinite, hnan] at h
  exact absurd h (by decide +kernel)

theorem equal_float_self (x : Float) : equal (.float x) (.float x) = (x == x) := by
  cases hbeq : x == x with
  | true => simp [equal, compare?, not_lt_of_beq hbeq, hbeq]
  | false =>
    obtain rfl : x = Float.nan := by
      by_contra hx
      exact absurd (Float.beq_self_iff.2 hx) (by simp [hbeq])
    decide +kernel

theorem Coordinate.equal_asFloat {x : Number} (hx : x.Coordinate) : equal x (.float x.asFloat) = x.isDefinite := by
  obtain rfl | ⟨y, rfl⟩ := hx
  · decide +kernel
  · exact equal_float_self y

end Number

mutual

/-- Whether every floating-point number in a value is finite. -/
def Value.isFinite : Value → Bool
  | .float x => Decimal.isFinite x
  | .list items => itemsFinite items
  | .object fields => fieldsFinite fields
  | _ => true

def itemsFinite : List Value → Bool
  | [] => true
  | v :: rest => v.isFinite && itemsFinite rest

def fieldsFinite : List (String × Value) → Bool
  | [] => true
  | (_, v) :: rest => v.isFinite && fieldsFinite rest

end

mutual

/-- Nothing but a number that is not finite is written as something else. -/
theorem Value.toWire_eq_self : (v : Value) → (v.toWire = v ↔ v.isFinite = true)
  | .null | .bool _ | .int _ | .text _ => by simp [Value.toWire, Value.isFinite]
  | .float x => by
    rw [Value.toWire, finiteOrNull, Value.isFinite]
    split_ifs with h <;> simp [h]
  | .list items => by rw [Value.toWire, Value.list.injEq, itemsToWire_eq_self items, Value.isFinite]
  | .object fields => by rw [Value.toWire, Value.object.injEq, fieldsToWire_eq_self fields, Value.isFinite]

theorem itemsToWire_eq_self : (vs : List Value) → (itemsToWire vs = vs ↔ itemsFinite vs = true)
  | [] => by simp [itemsToWire, itemsFinite]
  | v :: rest => by
    rw [itemsToWire, List.cons.injEq, Value.toWire_eq_self v, itemsToWire_eq_self rest, itemsFinite, Bool.and_eq_true]

theorem fieldsToWire_eq_self : (fs : List (String × Value)) → (fieldsToWire fs = fs ↔ fieldsFinite fs = true)
  | [] => by simp [fieldsToWire, fieldsFinite]
  | (key, v) :: rest => by
    rw [fieldsToWire, List.cons.injEq, Prod.mk.injEq, Value.toWire_eq_self v, fieldsToWire_eq_self rest, fieldsFinite,
      Bool.and_eq_true, eq_self, true_and]

end

def Position.isFinite (p : Position) : Bool :=
  p.x.isFinite && p.y.isFinite

def Node.isPlaced (n : Node) : Bool :=
  n.position.all Position.isFinite

def Node.isFinite (n : Node) : Bool :=
  n.isPlaced && fieldsFinite n.inputs && n.outputs.all fieldsFinite

def Workflow.isFinite (w : Workflow) : Bool :=
  w.nodes.all Node.isFinite && w.vars.all fun v => v.value.isFinite

/-! What survives being written -/

def Position.isDefinite (p : Position) : Bool :=
  p.x.isDefinite && p.y.isDefinite

/-- Coordinates may be infinite, what is free-form may not. -/
def Node.isLasting (n : Node) : Bool :=
  n.position.all Position.isDefinite && fieldsFinite n.inputs && n.outputs.all fieldsFinite

def Workflow.isLasting (w : Workflow) : Bool :=
  w.nodes.all Node.isLasting && w.vars.all fun v => v.value.isFinite

theorem Position.isDefinite_of_isFinite {p : Position} (h : p.isFinite = true) : p.isDefinite = true := by
  rw [isFinite, Bool.and_eq_true] at h
  rw [isDefinite, Number.isDefinite_of_isFinite h.1, Number.isDefinite_of_isFinite h.2, Bool.true_and]

theorem Node.isLasting_of_isFinite {n : Node} (h : n.isFinite = true) : n.isLasting = true := by
  rw [isFinite, isPlaced, Bool.and_eq_true, Bool.and_eq_true, Option.all_eq_true] at h
  rw [isLasting, Bool.and_eq_true, Bool.and_eq_true, Option.all_eq_true]
  exact ⟨⟨fun p hp => Position.isDefinite_of_isFinite (h.1.1 p hp), h.1.2⟩, h.2⟩

theorem Workflow.isLasting_of_isFinite {w : Workflow} (h : w.isFinite = true) : w.isLasting = true := by
  rw [isFinite, Bool.and_eq_true, List.all_eq_true] at h
  rw [isLasting, Bool.and_eq_true, List.all_eq_true]
  exact ⟨fun n hn => Node.isLasting_of_isFinite (h.1 n hn), h.2⟩

/-! What reading brings about -/

structure Position.Normal (p : Position) : Prop where
  x : p.x.Coordinate
  y : p.y.Coordinate

structure Node.Normal (n : Node) : Prop where
  id : Text.Trimmed n.id
  provider : Text.Trimmed n.provider
  operation : Text.Trimmed n.operation
  timeout : n.runtime.timeout ≠ some 0
  position : ∀ p ∈ n.position, p.Normal

structure Edge.Normal (e : Edge) : Prop where
  id : Text.Trimmed e.id
  source : Text.Trimmed e.source
  target : Text.Trimmed e.target

structure Workflow.Normal (w : Workflow) : Prop where
  timeout : w.settings.timeout ≠ some 0
  nodes : ∀ n ∈ w.nodes, n.Normal
  edges : ∀ e ∈ w.edges, e.Normal

theorem Reading.required_trimmed {fs : Fields} {name s : String}
    (h : required fs (.word name) identifier = accepted s) : Text.Trimmed s := by
  obtain ⟨v, -, hv⟩ := required_eq_accepted.1 h
  obtain ⟨raw, -, hraw, rfl⟩ := identifier_eq_accepted.1 hv
  exact Text.trimmed_trim hraw

/-- What holds of all that is read holds of a part that is read unless it is missing or null. -/
theorem Reading.forall_of_perhaps {α : Type} {P : α → Prop} {fs : Fields} {name : String} {read : Value → Reading α}
    {o : Option α} (hread : ∀ v a, read v = accepted a → P a) (h : perhaps fs (.word name) read = accepted o) :
    ∀ a ∈ o, P a := by
  rintro a rfl
  obtain ⟨-, hno⟩ | ⟨v, -, hv⟩ := optional_eq_accepted.1 h
  · cases hno
  · obtain ⟨-, hno⟩ | ⟨-, b, hb, hab⟩ := nullable_eq_accepted.1 hv
    · cases hno
    · exact Option.some.inj hab ▸ hread v b hb

theorem Position.normal_of_read {v : Value} {p : Position} (h : ofValue v = accepted p) : p.Normal := by
  obtain ⟨fs, -, h⟩ := record_eq_accepted.1 h
  have hmade := ofFields_eq_accepted.1 h
  exact ⟨Number.coordinate_of_read hmade.x, Number.coordinate_of_read hmade.y⟩

theorem Node.normal_of_read {v : Value} {n : Node} (h : ofValue v = accepted n) : n.Normal := by
  have htimeout := (readFrom h).filled.timeout
  obtain ⟨fs, -, h⟩ := record_eq_accepted.1 h
  have hmade := ofFields_eq_accepted.1 h
  exact ⟨required_trimmed hmade.id, required_trimmed hmade.provider, required_trimmed hmade.operation, htimeout,
    forall_of_perhaps (fun _ _ => Position.normal_of_read) hmade.position⟩

theorem Edge.normal_of_read {v : Value} {e : Edge} (h : ofValue v = accepted e) : e.Normal := by
  obtain ⟨fs, -, h⟩ := record_eq_accepted.1 h
  have hmade := ofFields_eq_accepted.1 h
  exact ⟨required_trimmed hmade.id, required_trimmed hmade.source, required_trimmed hmade.target⟩

theorem Workflow.normal_of_read {v : Value} {w : Workflow} (h : ofValue v = accepted w) : w.Normal := by
  have hread := readFrom h
  obtain ⟨ns, -, hns⟩ := hread.nodes
  obtain ⟨es, -, hes⟩ := hread.edges
  refine ⟨hread.timeout, fun n hn => ?_, fun e he => ?_⟩
  · obtain ⟨v, -, hv⟩ := forall₂_mem_right hns n hn
    exact Node.normal_of_read hv
  · obtain ⟨v, -, hv⟩ := forall₂_mem_right hes e he
    exact Edge.normal_of_read hv

/-! What is read back -/

def Position.written (p : Position) : Position :=
  ⟨.float p.x.asFloat, .float p.y.asFloat⟩

def Node.written (n : Node) : Node :=
  { n with
    position := n.position.map Position.written
    inputs := fieldsToWire n.inputs
    outputs := n.outputs.map fieldsToWire }

def Variable.written (v : Variable) : Variable :=
  { v with value := v.value.toWire }

def Workflow.written (w : Workflow) : Workflow :=
  { w with nodes := w.nodes.map Node.written, vars := w.vars.map Variable.written }

theorem Position.ofValue_toWire (p : Position) : ofValue p.toWire = accepted p.written := rfl

theorem NodeRuntime.ofValue_toWire {r : NodeRuntime} (h : r.timeout ≠ some 0) : ofValue r.toWire = accepted r := by
  refine record_eq_accepted.2 ⟨_, rfl, ofFields_eq_accepted.2 ⟨perhaps_wirePositive ?_ (Or.inr rfl) h,
    perhaps_wireNat ?_ (Or.inr rfl), optional_of_get? ?_ (boolean_bool _)⟩⟩
  all_goals simp [FieldName.word]

theorem Credentials.ofValue_toWire (c : Credentials) : ofValue c.toWire = accepted c := by
  refine record_eq_accepted.2 ⟨_, rfl, ofFields_eq_accepted.2 ⟨perhaps_wireText ?_ (Or.inr rfl),
    perhaps_wireText ?_ (Or.inr rfl)⟩⟩
  all_goals simp [FieldName.word]

theorem Condition.ofValue_toWire (c : Condition) : ofValue c.toWire = accepted c := by
  refine record_eq_accepted.2 ⟨_, rfl, ofFields_eq_accepted.2 ⟨optional_of_get? ?_ (boolean_bool _),
    perhaps_wireText ?_ (Or.inr rfl)⟩⟩
  all_goals simp [FieldName.word]

theorem Node.ofValue_toWire {n : Node} (h : n.Normal) : ofValue n.toWire = accepted n.written := by
  refine record_eq_accepted.2 ⟨n.wireFields, rfl, ofFields_eq_accepted.2
    { id := required_of_get? ?_ (identifier_text h.id)
      type := required_of_get? ?_ (member_nodeType n.type)
      provider := required_of_get? ?_ (identifier_text h.provider)
      operation := required_of_get? ?_ (identifier_text h.operation)
      name := perhaps_wireText ?_ (Or.inr rfl)
      description := perhaps_wireText ?_ (Or.inr rfl)
      position := perhaps_of_written ?_ (Or.inr rfl) fun p _ => ⟨rfl, p.ofValue_toWire⟩
      inputs := optional_of_get? ?_ (fields_object _)
      outputs := perhaps_of_written ?_ (Or.inr rfl) fun _ _ => ⟨rfl, fields_object _⟩
      runtime := optional_of_get? ?_ (NodeRuntime.ofValue_toWire h.timeout)
      credentials := perhaps_of_written_self ?_ (Or.inr rfl) fun c _ => ⟨rfl, c.ofValue_toWire⟩
      condition := perhaps_of_written_self ?_ (Or.inr rfl) fun c _ => ⟨rfl, c.ofValue_toWire⟩ }⟩
  all_goals simp [wireFields, written, FieldName.word]

theorem Edge.ofValue_toWire {e : Edge} (h : e.Normal) : ofValue e.toWire = accepted e := by
  refine record_eq_accepted.2 ⟨_, rfl, ofFields_eq_accepted.2
    { id := required_of_get? ?_ (identifier_text h.id)
      source := required_of_get? ?_ (identifier_text h.source)
      target := required_of_get? ?_ (identifier_text h.target)
      sourceHandle := perhaps_wireText ?_ (Or.inl ?_)
      targetHandle := perhaps_wireText ?_ (Or.inl ?_)
      type := optional_of_get? ?_ (member_edgeType e.type)
      condition := perhaps_of_written_self ?_ (Or.inr rfl) fun c _ => ⟨rfl, c.ofValue_toWire⟩
      label := perhaps_wireText ?_ (Or.inr rfl) }⟩
  all_goals simp [FieldName.word]

theorem Variable.ofValue_toWire (v : Variable) : ofValue v.toWire = accepted v.written := by
  refine record_eq_accepted.2 ⟨_, rfl, ofFields_eq_accepted.2
    { id := required_of_get? ?_ (text_text _)
      name := required_of_get? ?_ (text_text _)
      type := required_of_get? ?_ (member_variableType v.type)
      value := ?value
      description := perhaps_wireText ?_ (Or.inr rfl)
      scope := optional_of_get? ?_ (member_variableScope v.scope)
      mutable := optional_of_get? ?_ (boolean_bool _) }⟩
  case value =>
    rw [optional_eq_accepted]
    cases hnull : v.value.isNull with
    | true =>
      cases hv : v.value with
      | null => simp [written, hv, Value.toWire]
      | _ => simp [hv, Value.isNull] at hnull
    | false => simp [written, anything]
  all_goals simp [written, FieldName.word]

theorem Settings.ofValue_toWire {s : Settings} (h : s.timeout ≠ some 0) : ofValue s.toWire = accepted s := by
  refine record_eq_accepted.2 ⟨_, rfl, ofFields_eq_accepted.2
    { errorHandling := optional_of_get? ?_ (member_errorHandling s.errorHandling)
      maxRetries := perhaps_wireNat ?_ (Or.inl ?_)
      timeout := perhaps_wirePositive ?_ (Or.inr rfl) h }⟩
  all_goals simp [FieldName.word]

theorem Metadata.ofValue_toWire (m : Metadata) : ofValue m.toWire = accepted m := by
  refine record_eq_accepted.2 ⟨_, rfl, ofFields_eq_accepted.2
    { createdAt := perhaps_wireText ?_ (Or.inl ?_)
      updatedAt := perhaps_wireText ?_ (Or.inl ?_)
      createdBy := perhaps_wireText ?_ (Or.inl ?_)
      tags := optional_of_get? ?_ (items_texts m.tags) }⟩
  all_goals simp [FieldName.word]

theorem Reading.items_map {α β : Type} {read : Value → Reading β} {write : α → Value} {f : α → β} {as : List α}
    (h : ∀ a ∈ as, read (write a) = accepted (f a)) : items read (.list (as.map write)) = accepted (as.map f) := by
  refine items_eq_accepted.2 ⟨_, rfl, ?_⟩
  rw [List.forall₂_map_left_iff, List.forall₂_map_right_iff, List.forall₂_same]
  exact h

/-- What is read from the payload of a workflow that was read. -/
theorem Workflow.ofValue_toWire {w : Workflow} (h : w.Normal) : ofValue w.toWire = accepted w.written := by
  refine record_eq_accepted.2 ⟨w.wireFields, rfl, ofFields_eq_accepted.2
    { id := required_of_get? ?_ (text_text _)
      name := required_of_get? ?_ (text_text _)
      description := perhaps_wireText ?_ (Or.inr rfl)
      version := required_of_get? ?_ (text_text _)
      settings := optional_of_get? ?_ (Settings.ofValue_toWire h.timeout)
      nodes := required_of_get? ?_ (items_map fun n hn => Node.ofValue_toWire (h.nodes n hn))
      edges := optional_of_get? ?_
        ((items_map fun e he => Edge.ofValue_toWire (h.edges e he)).trans (congrArg accepted (List.map_id _)))
      vars := optional_of_get? ?_ (items_map fun v _ => v.ofValue_toWire)
      metadata := perhaps_of_written_self ?_ (Or.inr rfl) fun m _ => ⟨rfl, m.ofValue_toWire⟩ }⟩
  all_goals simp [wireFields, written, FieldName.word]

/-! Equality by value -/

structure Position.Same (p q : Position) : Prop where
  x : Number.equal p.x q.x = true
  y : Number.equal p.y q.y = true

structure Node.Same (m n : Node) : Prop where
  position : Option.Rel Position.Same m.position n.position
  rest : { m with position := n.position } = n

/-- All parts are equal, coordinates as numbers. -/
structure Workflow.Same (w v : Workflow) : Prop where
  nodes : List.Forall₂ Node.Same w.nodes v.nodes
  rest : { w with nodes := v.nodes } = v

theorem Position.same_written {p : Position} (h : p.Normal) : p.Same p.written ↔ p.isDefinite = true := by
  rw [isDefinite, Bool.and_eq_true, ← h.x.equal_asFloat, ← h.y.equal_asFloat]
  exact ⟨fun hs => ⟨hs.x, hs.y⟩, fun hs => ⟨hs.1, hs.2⟩⟩

theorem Node.rel_same_written {n : Node} (h : n.Normal) :
    Option.Rel Position.Same n.position (n.position.map Position.written) ↔
      n.position.all Position.isDefinite = true := by
  cases hpos : n.position with
  | none => simp
  | some p => simp [Position.same_written (h.position p hpos)]

theorem map_fieldsToWire_eq_self (o : Option Fields) : o.map fieldsToWire = o ↔ o.all fieldsFinite = true := by
  cases o with
  | none => simp
  | some fs => simp [fieldsToWire_eq_self]

theorem Node.same_written {n : Node} (h : n.Normal) : n.Same n.written ↔ n.isLasting = true := by
  have hrest : { n with position := n.written.position } = n.written ↔
      fieldsToWire n.inputs = n.inputs ∧ n.outputs.map fieldsToWire = n.outputs := by
    cases n
    simp [written, eq_comm]
  rw [isLasting, Bool.and_eq_true, Bool.and_eq_true, and_assoc, ← fieldsToWire_eq_self, ← map_fieldsToWire_eq_self,
    ← hrest, ← rel_same_written h]
  exact ⟨fun hs => ⟨hs.position, hs.rest⟩, fun hs => ⟨hs.1, hs.2⟩⟩

theorem Variable.written_eq_self {v : Variable} : v.written = v ↔ v.value.isFinite = true := by
  rw [← Value.toWire_eq_self]
  cases v
  simp [written]

theorem Workflow.same_written {w : Workflow} (h : w.Normal) : w.Same w.written ↔ w.isLasting = true := by
  have hnodes : List.Forall₂ Node.Same w.nodes w.written.nodes ↔ ∀ n ∈ w.nodes, n.isLasting = true := by
    change List.Forall₂ _ w.nodes (w.nodes.map Node.written) ↔ _
    rw [List.forall₂_map_right_iff, List.forall₂_same]
    exact forall₂_congr fun n hn => Node.same_written (h.nodes n hn)
  have hrest : { w with nodes := w.written.nodes } = w.written ↔ ∀ v ∈ w.vars, v.value.isFinite = true := by
    have hvars : { w with nodes := w.written.nodes } = w.written ↔ w.vars.map Variable.written = w.vars := by
      cases w
      simp [written, eq_comm]
    rw [hvars, ← List.forall₂_eq_eq_eq, List.forall₂_map_left_iff, List.forall₂_same]
    exact forall₂_congr fun v _ => Variable.written_eq_self
  rw [isLasting, Bool.and_eq_true, List.all_eq_true, List.all_eq_true, ← hnodes, ← hrest]
  exact ⟨fun hs => ⟨hs.nodes, hs.rest⟩, fun hs => ⟨hs.1, hs.2⟩⟩

/-- A payload is read back as the same workflow if and only if what is free-form in the workflow is finite and
its coordinates are definite. -/
theorem Workflow.reads_back_iff {w : Workflow} (h : w.Normal) :
    (∃ v, ofValue w.toWire = accepted v ∧ w.Same v) ↔ w.isLasting = true := by
  rw [ofValue_toWire h, ← same_written h]
  exact ⟨fun ⟨_, hread, hsame⟩ => accepted.inj hread ▸ hsame, fun hsame => ⟨_, rfl, hsame⟩⟩

/-- Writing and reading again changes nothing in a workflow that was read and whose numbers are finite. -/
theorem Workflow.read_toWire_of_read {v : Value} {w : Workflow} (hw : ofValue v = accepted w)
    (hf : w.isFinite = true) : ∃ w', ofValue w.toWire = accepted w' ∧ w.Same w' :=
  (reads_back_iff (normal_of_read hw)).2 (isLasting_of_isFinite hf)

def roughPayload : Value :=
  let node (id : String) (more : Fields) : Value :=
    .object ([("id", .text id), ("type", .text "action"), ("provider", .text "p "), ("operation", .text "o")] ++ more)
  .object
    [("id", .text "w"), ("name", .text " w "), ("version", .text "1"), ("description", .null),
     ("settings", .object [("error_handling", .text "retry"), ("max_retries", .text "2"), ("timeout", .float 5000)]),
     ("nodes", .list
       [node " a" [("position", .object []), ("inputs", .object [("x", .null), ("y", .list [.float 0.5, .null])])],
        node "b" [("position", .object [("x", .float 3)]), ("outputs", .object []), ("credentials", .object []),
          ("runtime", .object [("timeout", .bool true), ("continue_on_error", .text "yes")]),
          ("condition", .object [("enabled", .int 0), ("unknown", .int 1)])]]),
     ("edges", .list [.object [("id", .text "e"), ("source", .text "a "), ("target", .text "b"),
       ("source_handle", .text "out"), ("label", .null)]]),
     ("variables", .list [.object [("id", .text "v"), ("name", .text "n"), ("type", .text "number")]]),
     ("metadata", .object [("created_at", .text "today")])]

theorem roughPayload_read_again :
    ∃ w w', (Workflow.ofValue roughPayload = accepted w ∧ w.isFinite = true) ∧ Workflow.ofValue w.toWire = accepted w' ∧ w.Same w' := by
  obtain ⟨w, hw, hf⟩ : ∃ w, Workflow.ofValue roughPayload = accepted w ∧ w.isFinite = true :=
    value?_eq_some (by decide +kernel)
  obtain ⟨w', hread, hsame⟩ := Workflow.read_toWire_of_read hw hf
  exact ⟨w, w', ⟨hw, hf⟩, hread, hsame⟩

end Flowgraph
