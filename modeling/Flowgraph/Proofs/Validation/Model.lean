import Flowgraph.Proofs.Graph
import Flowgraph.Proofs.Validation.Payload

/-! The validation of a workflow that has been read. Its payload passes exactly when no text is blank
that must not be, no time limit is zero, and the connections wire distinct nodes without a cycle, one
of them a trigger. -/

namespace Flowgraph

/-! Texts that must not be blank, and limits that must not be zero -/

structure Node.Filled (n : Node) : Prop where
  id : Text.allBlank n.id = false
  provider : Text.allBlank n.provider = false
  operation : Text.allBlank n.operation = false
  timeout : n.runtime.timeout ≠ some 0

structure Edge.Filled (e : Edge) : Prop where
  id : Text.allBlank e.id = false
  source : Text.allBlank e.source = false
  target : Text.allBlank e.target = false

structure Variable.Filled (v : Variable) : Prop where
  id : Text.allBlank v.id = false
  name : Text.allBlank v.name = false

structure Workflow.Filled (w : Workflow) : Prop where
  id : Text.allBlank w.id = false
  name : Text.allBlank w.name = false
  version : Text.allBlank w.version = false
  timeout : w.settings.timeout ≠ some 0
  nodes : ∀ n ∈ w.nodes, n.Filled
  edges : ∀ e ∈ w.edges, e.Filled
  vars : ∀ v ∈ w.vars, v.Filled

/-- Connections between distinct nodes, without a cycle, and a trigger to begin with. -/
structure Workflow.Wired (w : Workflow) : Prop where
  nodup_nodes : w.nodeIds.Nodup
  nodup_edges : w.edgeIds.Nodup
  ends : ∀ e ∈ w.edges, e.source ∈ w.nodeIds ∧ e.target ∈ w.nodeIds
  acyclic : (Graph.ofWorkflow w).Acyclic
  trigger : ∃ n ∈ w.nodes, n.type = .trigger

namespace Validation

open Report

/-! Fields of canonical payloads -/

@[simp] theorem fieldOf_present_nil (name : String) : fieldOf (present []) name = .null := rfl

@[simp] theorem fieldOf_present_cons (key name : String) (v : Option Value) (rest : List (String × Option Value)) :
    fieldOf (present ((key, v) :: rest)) name =
      if key = name then v.getD (fieldOf (present rest) name) else fieldOf (present rest) name := by
  cases v with
  | none => simp [present]
  | some v =>
    by_cases h : key = name <;> simp [present, fieldOf, Table.getD, Table.get?, h]

@[simp] theorem isMissing_text (s : String) : isMissing (.text s) = Text.allBlank s := rfl

theorem natural_wireNat (n : Option Nat) :
    ((wireNat n).getD .null).isNull = true ∨ isNatural ((wireNat n).getD .null) = true := by
  cases n with
  | none => exact Or.inl rfl
  | some n => simp [wireNat, Value.ofNat, isNatural]

theorem positive_wireNat {n : Option Nat} :
    ((wireNat n).getD .null).isNull = true ∨ isPositive ((wireNat n).getD .null) = true ↔ n ≠ some 0 := by
  cases n with
  | none => simp [wireNat, Value.isNull]
  | some n => simp [wireNat, Value.ofNat, Value.isNull, isPositive, Nat.pos_iff_ne_zero]

theorem isMember_nodeType (t : NodeType) : isMember (NodeType.all.map NodeType.name) (.text t.name) = true := by
  cases t <;> decide

theorem isMember_edgeType (t : EdgeType) : isMember (EdgeType.all.map EdgeType.name) (.text t.name) = true := by
  cases t <;> decide

theorem isMember_errorHandling (m : ErrorHandling) :
    isMember (ErrorHandling.all.map ErrorHandling.name) (.text m.name) = true := by
  cases m <;> decide

theorem isMember_variableType (t : VariableType) :
    isMember (VariableType.all.map VariableType.name) (.text t.name) = true := by
  cases t <;> decide

theorem isMember_variableScope (s : VariableScope) :
    isMember (VariableScope.all.map VariableScope.name) (.text s.name) = true := by
  cases s <;> decide

theorem name_eq_trigger {t : NodeType} : t.name = NodeType.trigger.name ↔ t = .trigger := by
  cases t <;> decide

/-! Parts of a workflow -/

theorem valid_runtime_toWire {path : String} {r : NodeRuntime} :
    (checkRuntime path r.toWire).valid = true ↔ r.timeout ≠ some 0 := by
  rw [valid_checkRuntime, ← positive_wireNat]
  have hretries := natural_wireNat r.retries
  simp [NodeRuntime.toWire, hretries]

theorem valid_guard_toWire (path : String) (c : Option Condition) :
    (checkNodeGuard path ((c.map Condition.toWire).getD .null)).valid = true := by
  cases c with
  | none => rfl
  | some c => exact valid_checkNodeGuard.2 (Or.inr ⟨_, rfl⟩)

theorem nodeId?_toWire (n : Node) : nodeId? n.toWire = if Text.allBlank n.id then none else some n.id := by
  simp [nodeId?, Node.toWire, Node.wireFields, Value.field?, Value.fields?, present, Table.get?]

theorem goodNode_wireFields {n : Node} : GoodNode n.wireFields ↔ n.Filled := by
  have hgiven : Given ["id", "type", "provider", "operation"] n.wireFields ↔
      Text.allBlank n.id = false ∧ Text.allBlank n.provider = false ∧ Text.allBlank n.operation = false := by
    have htype : Text.allBlank n.type.name = false := by cases n.type <;> decide
    simp [Given, Node.wireFields, htype]
  have hid := nodeId?_toWire n
  rw [Node.toWire] at hid
  have hruntime : fieldOf n.wireFields "runtime" = n.runtime.toWire := by simp [Node.wireFields]
  have htype : fieldOf n.wireFields "type" = .text n.type.name := by simp [Node.wireFields]
  have hguard : fieldOf n.wireFields "condition" = (n.condition.map Condition.toWire).getD .null := by
    simp [Node.wireFields]
  constructor
  · intro h
    obtain ⟨h1, h2, h3⟩ := hgiven.1 h.given
    exact ⟨h1, h2, h3, valid_runtime_toWire.1 (hruntime ▸ h.runtime)⟩
  · intro h
    refine ⟨hgiven.2 ⟨h.id, h.provider, h.operation⟩, ?_, ?_, ?_, ?_⟩
    · rw [htype]
      exact isMember_nodeType n.type
    · rw [hruntime]
      exact valid_runtime_toWire.2 h.timeout
    · rw [hguard]
      exact valid_guard_toWire "" n.condition
    · rw [hid, if_neg (by simp [h.id])]
      rfl

theorem goodNode_toWire {n : Node} : (∃ fs, n.toWire = .object fs ∧ GoodNode fs) ↔ n.Filled := by
  simp only [Node.toWire, Value.object.injEq, exists_eq_left', goodNode_wireFields]

theorem goodEdge_toWire {known : List String} {e : Edge} :
    (∃ fs, e.toWire = .object fs ∧ GoodEdge known fs) ↔ e.Filled ∧ e.source ∈ known ∧ e.target ∈ known := by
  simp only [Edge.toWire, Value.object.injEq, exists_eq_left']
  constructor
  · intro h
    have hgiven := h.given
    obtain ⟨s, hs, hsource⟩ := h.source
    obtain ⟨t, ht, htarget⟩ := h.target
    simp [Given] at hgiven hsource htarget
    obtain ⟨h1, h2, h3⟩ := hgiven
    exact ⟨⟨h1, h2, h3⟩, hsource ▸ hs, htarget ▸ ht⟩
  · rintro ⟨⟨h1, h2, h3⟩, hs, ht⟩
    refine ⟨?_, ⟨e.source, hs, ?_⟩, ⟨e.target, ht, ?_⟩, Or.inr ?_, ?_⟩
    · simp [Given, h1, h2, h3]
    · simp
    · simp
    · simpa using isMember_edgeType e.type
    · cases hc : e.condition <;> simp [Value.isNull, Condition.toWire, Value.fields?]

theorem goodVariable_toWire {v : Variable} : (∃ fs, v.toWire = .object fs ∧ GoodVariable fs) ↔ v.Filled := by
  have htype : Text.allBlank v.type.name = false := by cases v.type <;> decide
  have hgiven : ∀ fs, v.toWire = .object fs → (Given ["id", "name", "type"] fs ↔
      Text.allBlank v.id = false ∧ Text.allBlank v.name = false) := by
    rintro fs ⟨⟩
    simp [Given, htype]
  constructor
  · rintro ⟨fs, hfs, h⟩
    obtain ⟨h1, h2⟩ := (hgiven fs hfs).1 h.given
    exact ⟨h1, h2⟩
  · rintro ⟨h1, h2⟩
    refine ⟨_, rfl, (hgiven _ rfl).2 ⟨h1, h2⟩, ?_, Or.inr ?_⟩
    · simpa using isMember_variableType v.type
    · simpa using isMember_variableScope v.scope

theorem valid_settings_toWire {s : Settings} : (checkSettings s.toWire).valid = true ↔ s.timeout ≠ some 0 := by
  rw [valid_checkSettings, ← positive_wireNat]
  have hretries := natural_wireNat s.maxRetries
  have hmode := isMember_errorHandling s.errorHandling
  simp [Settings.toWire, hretries, hmode]

/-! The connections of a workflow and of its payload -/

theorem filterMap_nodeId?_toWire {nodes : List Node} (h : ∀ n ∈ nodes, n.Filled) :
    (nodes.map Node.toWire).filterMap nodeId? = nodes.map Node.id := by
  induction nodes with
  | nil => rfl
  | cons n rest ih =>
    have hn := h n (List.mem_cons_self ..)
    rw [List.map_cons, List.filterMap_cons_some (b := n.id), ih fun m hm => h m (List.mem_cons_of_mem _ hm)]
    · rfl
    · rw [nodeId?_toWire, if_neg (by simp [hn.id])]

theorem filterMap_edgeId?_toWire (edges : List Edge) :
    (edges.map Edge.toWire).filterMap edgeId? = edges.map Edge.id := by
  rw [List.filterMap_map, ← List.filterMap_eq_map]
  rfl

theorem filterMap_ends?_toWire (edges : List Edge) :
    (edges.map Edge.toWire).filterMap ends? = edges.map fun e => (e.source, e.target) := by
  rw [List.filterMap_map, ← List.filterMap_eq_map]
  rfl

/-- The payload of a workflow leads where its graph leads. -/
theorem leads_links_toWire {w : Workflow} (h : ∀ n ∈ w.nodes, n.Filled) :
    (links (w.nodes.map Node.toWire) (w.edges.map Edge.toWire)).Leads = (Graph.ofWorkflow w).Leads := by
  funext a b
  simp only [Links.Leads, links, filterMap_nodeId?_toWire h, filterMap_ends?_toWire, List.mem_filter, List.mem_map,
    Prod.mk.injEq, List.contains_eq_mem, mem_distinct, Bool.and_eq_true, decide_eq_true_eq, eq_iff_iff,
    Graph.Leads, Graph.mem_edges_ofWorkflow]
  constructor
  · rintro ⟨⟨e, he, rfl, rfl⟩, hs, ht⟩
    exact ⟨e, ⟨he, List.mem_map.2 hs, List.mem_map.2 ht⟩, rfl, rfl⟩
  · rintro ⟨e, ⟨he, hs, ht⟩, rfl, rfl⟩
    exact ⟨⟨e, he, rfl, rfl⟩, List.mem_map.1 hs, List.mem_map.1 ht⟩

theorem isTrigger_toWire {n : Node} : isTrigger n.toWire = true ↔ n.type = .trigger := by
  rw [← name_eq_trigger]
  simp [isTrigger, isMember, Node.toWire, Node.wireFields, Value.field?, Value.fields?, present, Table.get?]

end Validation

namespace Workflow

open Validation

theorem fieldOf_wireFields (w : Workflow) :
    fieldOf w.wireFields "settings" = w.settings.toWire ∧
      fieldOf w.wireFields "nodes" = .list (w.nodes.map Node.toWire) ∧
      fieldOf w.wireFields "edges" = .list (w.edges.map Edge.toWire) ∧
      fieldOf w.wireFields "variables" = .list (w.vars.map Variable.toWire) := by
  simp [wireFields]

theorem given_wireFields {w : Workflow} : Given ["id", "name", "version", "nodes"] w.wireFields ↔
    Text.allBlank w.id = false ∧ Text.allBlank w.name = false ∧ Text.allBlank w.version = false := by
  simp [Given, wireFields, isMissing]

/-- A workflow is valid when nothing is left blank and its connections are well wired. -/
theorem valid_iff {w : Workflow} : w.validate.valid = true ↔ w.Filled ∧ w.Wired := by
  obtain ⟨hsettings, hnodes, hedges, hvars⟩ := w.fieldOf_wireFields
  change (checkFields w.wireFields).valid = true ↔ _
  rw [valid_checkFields]
  have heids : (w.edges.map Edge.toWire).filterMap edgeId? = w.edgeIds := filterMap_edgeId?_toWire w.edges
  constructor
  · rintro ⟨nodes, edges, vars, h⟩
    obtain rfl := Listed.unique (Or.inr hnodes) h.nodes_listed
    obtain rfl := Listed.unique (Or.inr hedges) h.edges_listed
    obtain rfl := Listed.unique (Or.inr hvars) h.vars_listed
    obtain ⟨hid, hname, hversion⟩ := given_wireFields.1 h.given
    have hfilled : ∀ n ∈ w.nodes, n.Filled := fun n hn =>
      goodNode_toWire.1 (h.good_nodes _ (List.mem_map_of_mem hn))
    have hids : (w.nodes.map Node.toWire).filterMap nodeId? = w.nodeIds := filterMap_nodeId?_toWire hfilled
    have hgood : ∀ e ∈ w.edges, e.Filled ∧ e.source ∈ w.nodeIds ∧ e.target ∈ w.nodeIds := fun e he =>
      goodEdge_toWire.1 (hids ▸ h.good_edges _ (List.mem_map_of_mem he))
    refine ⟨⟨hid, hname, hversion, valid_settings_toWire.1 (hsettings ▸ h.settings), hfilled,
      fun e he => (hgood e he).1, fun v hv => goodVariable_toWire.1 (h.good_vars _ (List.mem_map_of_mem hv))⟩, ?_⟩
    refine ⟨hids ▸ h.nodup_nodes, heids ▸ h.nodup_edges, fun e he => (hgood e he).2, ?_, ?_⟩
    · have hac := h.acyclic
      rw [Links.Acyclic, leads_links_toWire hfilled] at hac
      exact hac
    · obtain ⟨node, hnode, htrigger⟩ := h.trigger
      obtain ⟨n, hn, rfl⟩ := List.mem_map.1 hnode
      exact ⟨n, hn, isTrigger_toWire.1 htrigger⟩
  · rintro ⟨hf, hw⟩
    have hids : (w.nodes.map Node.toWire).filterMap nodeId? = w.nodeIds := filterMap_nodeId?_toWire hf.nodes
    refine ⟨_, _, _, given_wireFields.2 ⟨hf.id, hf.name, hf.version⟩, ?_, Or.inr hnodes, Or.inr hedges, Or.inr hvars,
      ?_, ?_, ?_, ?_, ?_, ?_, ?_⟩
    · rw [hsettings]
      exact valid_settings_toWire.2 hf.timeout
    · rw [List.forall_mem_map]
      exact fun n hn => goodNode_toWire.2 (hf.nodes n hn)
    · rw [hids]
      exact hw.nodup_nodes
    · rw [hids, List.forall_mem_map]
      exact fun e he => goodEdge_toWire.2 ⟨hf.edges e he, hw.ends e he⟩
    · rw [heids]
      exact hw.nodup_edges
    · rw [List.forall_mem_map]
      exact fun v hv => goodVariable_toWire.2 (hf.vars v hv)
    · rw [Links.Acyclic, leads_links_toWire hf.nodes]
      exact hw.acyclic
    · obtain ⟨n, hn, htrigger⟩ := hw.trigger
      exact ⟨_, List.mem_map_of_mem hn, isTrigger_toWire.2 htrigger⟩

end Workflow

end Flowgraph
