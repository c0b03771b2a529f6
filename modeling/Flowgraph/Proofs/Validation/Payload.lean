import Flowgraph.Proofs.Validation.Cycle
import Flowgraph.Validation

/-! What a payload is that the validation finds no error in: its parts pass their checks one by one,
ids do not repeat, the ends of the connections are known, there is a trigger, and no cycle. The places
that findings name do not count. -/

namespace Flowgraph

namespace Report

@[simp] theorem valid_empty : empty.valid = true := rfl

@[simp] theorem valid_error (path message : String) : (error path message).valid = false := rfl

@[simp] theorem valid_warningIf (flawed : Bool) (path message : String) :
    (warningIf flawed path message).valid = true := by
  cases flawed <;> rfl

end Report

namespace Validation

open Report

def Given (names : List String) (fs : Fields) : Prop :=
  ∀ name ∈ names, isMissing (fieldOf fs name) = false

theorem valid_requireFields {lead : String} {names : List String} {fs : Fields} :
    (requireFields lead names fs).valid = true ↔ Given names fs := by
  simp [requireFields, valid_join, valid_errorIf, Given]

theorem valid_checkNatural {path : String} {v : Value} :
    (checkNatural path v).valid = true ↔ v.isNull = true ∨ isNatural v = true := by
  simp [checkNatural, valid_errorIf]

theorem valid_checkPositive {path : String} {v : Value} :
    (checkPositive path v).valid = true ↔ v.isNull = true ∨ isPositive v = true := by
  simp [checkPositive, valid_errorIf]

/-- Null, or fields with these numbers of attempts and milliseconds. -/
theorem valid_checkRuntime {path : String} {v : Value} :
    (checkRuntime path v).valid = true ↔ v = .null ∨ ∃ fs, v = .object fs ∧
      ((fieldOf fs "retries").isNull = true ∨ isNatural (fieldOf fs "retries") = true) ∧
      ((fieldOf fs "timeout").isNull = true ∨ isPositive (fieldOf fs "timeout") = true) := by
  cases v <;> simp [checkRuntime, valid_append, valid_checkNatural, valid_checkPositive]

theorem valid_checkNodeGuard {path : String} {v : Value} :
    (checkNodeGuard path v).valid = true ↔ v = .null ∨ ∃ fs, v = .object fs := by
  cases v <;> simp [checkNodeGuard]

theorem valid_checkSettings {v : Value} :
    (checkSettings v).valid = true ↔ v = .null ∨ ∃ fs, v = .object fs ∧
      ((fieldOf fs "errorHandling").isNull = true ∨
        isMember (ErrorHandling.all.map ErrorHandling.name) (fieldOf fs "errorHandling") = true) ∧
      ((fieldOf fs "maxRetries").isNull = true ∨ isNatural (fieldOf fs "maxRetries") = true) ∧
      ((fieldOf fs "timeout").isNull = true ∨ isPositive (fieldOf fs "timeout") = true) := by
  cases v <;>
    simp [checkSettings, valid_append, valid_errorIf, valid_checkNatural, valid_checkPositive, and_assoc]

/-- A node whose check finds no error. -/
structure GoodNode (fs : Fields) : Prop where
  given : Given ["id", "type", "provider", "operation"] fs
  type : isMember (NodeType.all.map NodeType.name) (fieldOf fs "type") = true
  runtime : (checkRuntime "" (fieldOf fs "runtime")).valid = true
  guard : (checkNodeGuard "" (fieldOf fs "condition")).valid = true
  id : (nodeId? (.object fs)).isSome = true

theorem valid_checkNode {path : String} {node : Value} :
    (checkNode path node).valid = true ↔ ∃ fs, node = .object fs ∧ GoodNode fs := by
  cases node with
  | object fs =>
    have hpath : (checkRuntime path (fieldOf fs "runtime")).valid =
        (checkRuntime "" (fieldOf fs "runtime")).valid := by
      rw [Bool.eq_iff_iff, valid_checkRuntime, valid_checkRuntime]
    simp only [checkNode, valid_append, valid_errorIf, Bool.and_eq_true, valid_requireFields, hpath,
      valid_checkNodeGuard, Value.object.injEq, exists_eq_left']
    constructor
    · rintro ⟨⟨⟨⟨hgiven, htype⟩, hruntime⟩, hguard⟩, hid⟩
      have hid' := hgiven "id" (by simp)
      have htype' := hgiven "type" (by simp)
      simp only [hid', htype', Bool.not_false, Bool.true_and, Bool.not_not, Bool.not_eq_true',
        Option.isNone_eq_false_iff] at hid htype
      exact ⟨hgiven, htype, hruntime, valid_checkNodeGuard.2 hguard, hid⟩
    · rintro ⟨hgiven, htype, hruntime, hguard, hid⟩
      refine ⟨⟨⟨⟨hgiven, by simp [htype]⟩, hruntime⟩, valid_checkNodeGuard.1 hguard⟩, ?_⟩
      simp [Option.isNone_eq_false_iff.2 hid]
  | _ => simp [checkNode]

/-- The ends of a connection are texts among these. -/
theorem valid_checkEnd {known : List String} {path name : String} {v : Value} (h : isMissing v = false) :
    (checkEnd known path name v).valid = true ↔ ∃ s ∈ known, v = .text s := by
  unfold checkEnd
  rw [if_neg (by simp [h])]
  cases v <;> simp [valid_errorIf]

structure GoodEdge (known : List String) (fs : Fields) : Prop where
  given : Given ["id", "source", "target"] fs
  source : ∃ s ∈ known, fieldOf fs "source" = .text s
  target : ∃ s ∈ known, fieldOf fs "target" = .text s
  type : (fieldOf fs "type").isNull = true ∨
    isMember (EdgeType.all.map EdgeType.name) (fieldOf fs "type") = true
  guard : (fieldOf fs "condition").isNull = true ∨ (fieldOf fs "condition").fields?.isSome = true

theorem valid_checkEdge {known : List String} {path : String} {edge : Value} :
    (checkEdge (some known) path edge).valid = true ↔ ∃ fs, edge = .object fs ∧ GoodEdge known fs := by
  cases edge with
  | object fs =>
    simp only [checkEdge, checkEdgeGuard, valid_append, valid_errorIf, valid_warningIf, Bool.and_eq_true,
      valid_requireFields, Value.object.injEq, exists_eq_left', and_true]
    constructor
    · rintro ⟨⟨⟨hgiven, hsource, htarget⟩, htype⟩, hguard⟩
      refine ⟨hgiven, ?_, ?_, ?_, ?_⟩
      · exact (valid_checkEnd (hgiven "source" (by simp))).1 hsource
      · exact (valid_checkEnd (hgiven "target" (by simp))).1 htarget
      · simpa [or_iff_not_imp_left] using htype
      · simpa [or_iff_not_imp_left, Option.isSome_iff_ne_none] using hguard
    · rintro ⟨hgiven, hsource, htarget, htype, hguard⟩
      refine ⟨⟨⟨hgiven, ?_, ?_⟩, ?_⟩, ?_⟩
      · exact (valid_checkEnd (hgiven "source" (by simp))).2 hsource
      · exact (valid_checkEnd (hgiven "target" (by simp))).2 htarget
      · simpa [or_iff_not_imp_left] using htype
      · simpa [or_iff_not_imp_left, Option.isSome_iff_ne_none] using hguard
  | _ => simp [checkEdge]

structure GoodVariable (fs : Fields) : Prop where
  given : Given ["id", "name", "type"] fs
  type : isMember (VariableType.all.map VariableType.name) (fieldOf fs "type") = true
  scope : (fieldOf fs "scope").isNull = true ∨
    isMember (VariableScope.all.map VariableScope.name) (fieldOf fs "scope") = true

theorem valid_checkVariable {path : String} {v : Value} :
    (checkVariable path v).valid = true ↔ ∃ fs, v = .object fs ∧ GoodVariable fs := by
  cases v with
  | object fs =>
    simp only [checkVariable, valid_append, valid_errorIf, Bool.and_eq_true, valid_requireFields,
      Value.object.injEq, exists_eq_left']
    constructor
    · rintro ⟨⟨hgiven, htype⟩, hscope⟩
      have htype' := hgiven "type" (by simp)
      simp only [htype', Bool.not_false, Bool.true_and, Bool.not_not] at htype
      exact ⟨hgiven, htype, by simpa [or_iff_not_imp_left] using hscope⟩
    · rintro ⟨hgiven, htype, hscope⟩
      exact ⟨⟨hgiven, by simp [htype]⟩, by simpa [or_iff_not_imp_left] using hscope⟩
  | _ => simp [checkVariable]

/-! Lists of parts -/

/-- A part whose id was not seen before leaves ids of which none is repeated. -/
theorem nodup_seen {seen : List String} {id : Option String} (hseen : seen.Nodup) :
    (id.filter seen.contains).isSome = false ↔ (seen ++ id.toList).Nodup := by
  cases id with
  | none => simpa using hseen
  | some s =>
    rw [Option.toList_some, List.nodup_append_comm]
    simp [hseen]

theorem filterMap_eq_toList_append {f : Value → Option String} (v : Value) (rest : List Value) :
    (v :: rest).filterMap f = (f v).toList ++ rest.filterMap f := by
  rw [List.filterMap_cons]
  cases f v <;> rfl

theorem valid_checkNodes {index : Nat} {seen : List String} {nodes : List Value} (hseen : seen.Nodup) :
    (checkNodes index seen nodes).valid = true ↔
      (∀ node ∈ nodes, ∃ fs, node = .object fs ∧ GoodNode fs) ∧ (seen ++ nodes.filterMap nodeId?).Nodup := by
  induction nodes generalizing index seen with
  | nil => simp [checkNodes, hseen]
  | cons node rest ih =>
    simp only [checkNodes, valid_append, valid_errorIf, Bool.and_eq_true, valid_checkNode, List.forall_mem_cons,
      Bool.not_eq_true', nodup_seen hseen, filterMap_eq_toList_append]
    rw [← List.append_assoc]
    constructor
    · rintro ⟨⟨hnode, hid⟩, hrest⟩
      obtain ⟨hnodes, hids⟩ := (ih hid).1 hrest
      exact ⟨⟨hnode, hnodes⟩, hids⟩
    · rintro ⟨⟨hnode, hnodes⟩, hids⟩
      have hid := (List.nodup_append.1 hids).1
      exact ⟨⟨hnode, hid⟩, (ih hid).2 ⟨hnodes, hids⟩⟩

theorem valid_checkEdges {known : List String} {index : Nat} {seen : List String} {edges : List Value}
    (hseen : seen.Nodup) :
    (checkEdges known index seen edges).valid = true ↔
      (∀ edge ∈ edges, ∃ fs, edge = .object fs ∧ GoodEdge known fs) ∧
        (seen ++ edges.filterMap edgeId?).Nodup := by
  induction edges generalizing index seen with
  | nil => simp [checkEdges, hseen]
  | cons edge rest ih =>
    simp only [checkEdges, valid_append, valid_errorIf, Bool.and_eq_true, valid_checkEdge, List.forall_mem_cons,
      Bool.not_eq_true', nodup_seen hseen, filterMap_eq_toList_append]
    rw [← List.append_assoc]
    constructor
    · rintro ⟨⟨hedge, hid⟩, hrest⟩
      obtain ⟨hedges, hids⟩ := (ih hid).1 hrest
      exact ⟨⟨hedge, hedges⟩, hids⟩
    · rintro ⟨⟨hedge, hedges⟩, hids⟩
      have hid := (List.nodup_append.1 hids).1
      exact ⟨⟨hedge, hid⟩, (ih hid).2 ⟨hedges, hids⟩⟩

theorem valid_checkVariables {vs : List Value} :
    (checkVariables vs).valid = true ↔ ∀ v ∈ vs, ∃ fs, v = .object fs ∧ GoodVariable fs := by
  simp only [checkVariables, valid_join, List.all_map, List.all_eq_true, Function.comp_apply, valid_checkVariable]
  constructor
  · intro h v hv
    obtain ⟨index, hi⟩ := List.mem_iff_getElem?.1 hv
    exact h (v, index) (List.mk_mem_zipIdx_iff_getElem?.2 hi)
  · rintro h ⟨v, index⟩ hv
    exact h v (List.fst_mem_of_mem_zipIdx hv)

/-! The whole payload -/

theorem links_wellFormed (nodes edges : List Value) : (links nodes edges).WellFormed := by
  intro a b h
  simpa [links] using (List.mem_filter.1 h).2

theorem valid_checkCycles {nodes edges : List Value} :
    (checkCycles nodes edges).valid = true ↔ (links nodes edges).Acyclic := by
  rw [← Links.cycles_eq_nil_iff (links_wellFormed nodes edges)]
  simp only [checkCycles, valid_join, List.all_map, List.all_eq_true, Function.comp_apply, valid_error,
    Bool.false_eq_true, imp_false, List.eq_nil_iff_forall_not_mem]

theorem valid_checkTrigger {nodes : List Value} :
    (checkTrigger nodes).valid = true ↔ ∃ node ∈ nodes, isTrigger node = true := by
  simp [checkTrigger, valid_errorIf]

theorem valid_checkIsolated (nodes edges : List Value) : (checkIsolated nodes edges).valid = true := by
  unfold checkIsolated
  split_ifs
  · rfl
  · simp only [valid_join, List.all_map, List.all_eq_true, Function.comp_apply]
    intro p _
    split <;> simp

def Listed (v : Value) (items : List Value) : Prop :=
  v = .null ∧ items = [] ∨ v = .list items

theorem valid_listOf {name : String} {v : Value} :
    (listOf name v).1.valid = true ↔ Listed v (listOf name v).2 := by
  cases v <;> simp [listOf, Listed]

/-- A payload that the validation finds no error in. -/
structure GoodPayload (fs : Fields) (nodes edges vars : List Value) : Prop where
  given : Given ["id", "name", "version", "nodes"] fs
  settings : (checkSettings (fieldOf fs "settings")).valid = true
  nodes_listed : Listed (fieldOf fs "nodes") nodes
  edges_listed : Listed (fieldOf fs "edges") edges
  vars_listed : Listed (fieldOf fs "variables") vars
  good_nodes : ∀ node ∈ nodes, ∃ fs, node = .object fs ∧ GoodNode fs
  nodup_nodes : (nodes.filterMap nodeId?).Nodup
  good_edges : ∀ edge ∈ edges, ∃ fs, edge = .object fs ∧ GoodEdge (nodes.filterMap nodeId?) fs
  nodup_edges : (edges.filterMap edgeId?).Nodup
  good_vars : ∀ v ∈ vars, ∃ fs, v = .object fs ∧ GoodVariable fs
  acyclic : (links nodes edges).Acyclic
  trigger : ∃ node ∈ nodes, isTrigger node = true

theorem Listed.unique {v : Value} {items items' : List Value} (h : Listed v items) (h' : Listed v items') :
    items = items' := by
  rcases h with ⟨hv, rfl⟩ | hv
  · rcases h' with ⟨-, rfl⟩ | hv'
    · rfl
    · rw [hv] at hv'
      cases hv'
  · rcases h' with ⟨hv', -⟩ | hv'
    · rw [hv'] at hv
      cases hv
    · rw [hv] at hv'
      exact Value.list.inj hv'

theorem valid_checkFields {fs : Fields} :
    (checkFields fs).valid = true ↔ ∃ nodes edges vars, GoodPayload fs nodes edges vars := by
  have hnil : ([] : List String).Nodup := List.nodup_nil
  simp only [checkFields, valid_append, Bool.and_eq_true, valid_requireFields, valid_listOf,
    valid_checkNodes hnil, valid_checkEdges hnil, valid_checkVariables, valid_checkCycles, valid_checkTrigger,
    valid_checkIsolated, and_true, List.nil_append]
  constructor
  · rintro ⟨⟨⟨⟨⟨⟨⟨⟨⟨hgiven, hsettings⟩, hnl⟩, hel⟩, hvl⟩, hnodes, hids⟩, hedges, heids⟩, hvars⟩, hac⟩, htrigger⟩
    exact ⟨_, _, _, hgiven, hsettings, hnl, hel, hvl, hnodes, hids, hedges, heids, hvars, hac, htrigger⟩
  · rintro ⟨nodes, edges, vars, h⟩
    have hlisted : ∀ name v items, Listed v items → (listOf name v).2 = items := by
      rintro name v items (⟨rfl, rfl⟩ | rfl) <;> rfl
    rw [hlisted _ _ _ h.nodes_listed, hlisted _ _ _ h.edges_listed, hlisted _ _ _ h.vars_listed]
    exact ⟨⟨⟨⟨⟨⟨⟨⟨⟨h.given, h.settings⟩, h.nodes_listed⟩, h.edges_listed⟩, h.vars_listed⟩, h.good_nodes,
      h.nodup_nodes⟩, h.good_edges, h.nodup_edges⟩, h.good_vars⟩, h.acyclic⟩, h.trigger⟩

end Validation

end Flowgraph
