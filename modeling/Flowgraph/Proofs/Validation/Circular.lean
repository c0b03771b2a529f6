import Flowgraph.Proofs.Graph
import Flowgraph.Proofs.Validation.Payload
import Flowgraph.Proofs.Validation.Search

/-! Circular dependencies in a payload. The errors that speak of one are the cycles that the search
reports, in its order: no other check speaks so. And the search reports the simple cycles of the graph
that the payload draws between its ids. -/

namespace Flowgraph

open Relation (TransGen)

def Finding.isCircular (f : Finding) : Bool :=
  "Circular dependency".toList.isPrefixOf f.message.toList

namespace Report

def circular (r : Report) : List Finding :=
  r.errors.filter Finding.isCircular

section
variable {path message : String} {flawed : Bool}

theorem circular_append (a b : Report) : (a ++ b).circular = a.circular ++ b.circular := by
  rw [circular, errors_append, List.filter_append]
  rfl

@[simp] theorem circular_empty : empty.circular = [] := rfl

@[simp] theorem circular_warningIf : (warningIf flawed path message).circular = [] := by
  cases flawed <;> rfl

theorem isCircular_eq_false (h : message.toList.head? ≠ some 'C') :
    Finding.isCircular ⟨path, message⟩ = false := by
  unfold Finding.isCircular
  cases hm : message.toList with
  | nil => rfl
  | cons c rest =>
    have hc : c ≠ 'C' := by simpa [hm] using h
    simp [List.isPrefixOf, hc.symm]

theorem circular_error (h : message.toList.head? ≠ some 'C') : (error path message).circular = [] := by
  simp [circular, error, isCircular_eq_false h]

theorem circular_errorIf (h : message.toList.head? ≠ some 'C') :
    (errorIf flawed path message).circular = [] := by
  cases flawed
  · rfl
  · exact circular_error h

theorem circular_join (reports : List Report) : (join reports).circular = reports.flatMap circular := by
  induction reports with
  | nil => rfl
  | cons r rest ih =>
    have hcons : join (r :: rest) = r ++ join rest := rfl
    rw [hcons, circular_append, ih, List.flatMap_cons]

theorem circular_join_nil {reports : List Report} (h : ∀ r ∈ reports, r.circular = []) :
    (join reports).circular = [] := by
  rw [circular_join, List.flatMap_eq_nil_iff]
  exact h

end

end Report

namespace Validation

open Report

/-! No check but the one for cycles speaks of a circular dependency -/

@[simp] theorem circular_requireFields (lead : String) (names : List String) (fs : Fields) :
    (requireFields lead names fs).circular = [] := by
  refine circular_join_nil ?_
  simp (disch := first | decide | simp) [circular_errorIf]

@[simp] theorem circular_checkNatural (path : String) (v : Value) : (checkNatural path v).circular = [] := by
  simp (disch := first | decide | simp) [circular_errorIf, checkNatural]

@[simp] theorem circular_checkPositive (path : String) (v : Value) : (checkPositive path v).circular = [] := by
  simp (disch := first | decide | simp) [circular_errorIf, checkPositive]

@[simp] theorem circular_checkSettings (v : Value) : (checkSettings v).circular = [] := by
  cases v <;> simp (disch := first | decide | simp) [circular_errorIf, circular_error, circular_append, checkSettings]

@[simp] theorem circular_checkRuntime (path : String) (v : Value) : (checkRuntime path v).circular = [] := by
  cases v <;> simp (disch := decide) [circular_error, circular_append, checkRuntime]

@[simp] theorem circular_checkNodeGuard (path : String) (v : Value) : (checkNodeGuard path v).circular = [] := by
  cases v <;> simp (disch := decide) [circular_error, checkNodeGuard]

@[simp] theorem circular_checkNode (path : String) (node : Value) : (checkNode path node).circular = [] := by
  cases node <;> simp (disch := first | decide | simp) [circular_errorIf, circular_error, circular_append, checkNode]

@[simp] theorem circular_listOf (name : String) (v : Value) : (listOf name v).1.circular = [] := by
  cases v <;> simp [circular_error, listOf]

@[simp] theorem circular_checkNodes (index : Nat) (seen : List String) (nodes : List Value) :
    (checkNodes index seen nodes).circular = [] := by
  induction nodes generalizing index seen with
  | nil => rfl
  | cons node rest ih => simp [circular_errorIf, circular_append, checkNodes, ih]

@[simp] theorem circular_checkEnd (known : List String) (path name : String) (v : Value) :
    (checkEnd known path name v).circular = [] := by
  unfold checkEnd
  split_ifs
  · rfl
  · cases v <;> simp [circular_error, circular_errorIf]

@[simp] theorem circular_checkEdgeGuard (path : String) (type guard : Value) :
    (checkEdgeGuard path type guard).circular = [] := by
  simp (disch := decide) [circular_errorIf, circular_append, checkEdgeGuard]

@[simp] theorem circular_checkEdge (known : Option (List String)) (path : String) (edge : Value) :
    (checkEdge known path edge).circular = [] := by
  cases edge <;> cases known <;>
    simp (disch := first | decide | simp) [circular_errorIf, circular_error, circular_append, checkEdge]

@[simp] theorem circular_checkEdges (known : List String) (index : Nat) (seen : List String) (edges : List Value) :
    (checkEdges known index seen edges).circular = [] := by
  induction edges generalizing index seen with
  | nil => rfl
  | cons edge rest ih => simp [circular_errorIf, circular_append, checkEdges, ih]

@[simp] theorem circular_checkVariable (path : String) (v : Value) : (checkVariable path v).circular = [] := by
  cases v <;> simp (disch := first | decide | simp) [circular_errorIf, circular_error, circular_append, checkVariable]

@[simp] theorem circular_checkVariables (vs : List Value) : (checkVariables vs).circular = [] := by
  refine circular_join_nil ?_
  simp only [List.forall_mem_map]
  exact fun p _ => circular_checkVariable _ _

@[simp] theorem circular_checkTrigger (nodes : List Value) : (checkTrigger nodes).circular = [] := by
  exact circular_errorIf (by decide)

@[simp] theorem circular_checkIsolated (nodes edges : List Value) : (checkIsolated nodes edges).circular = [] := by
  unfold checkIsolated
  split_ifs
  · rfl
  · refine circular_join_nil ?_
    simp only [List.forall_mem_map]
    intro p _
    split <;> simp

theorem isCircular_append (path names : String) :
    Finding.isCircular ⟨path, "Circular dependency detected: " ++ names⟩ = true :=
  List.isPrefixOf_iff_prefix.2 ⟨" detected: ".toList ++ names.toList, by simp⟩

/-- The check for cycles has an error for every cycle. -/
theorem circular_checkCycles (nodes edges : List Value) :
    (checkCycles nodes edges).circular = (links nodes edges).cycles.map fun p => ⟨"edges", cycleMessage p⟩ := by
  rw [checkCycles, circular_join, List.flatMap_map, List.map_eq_flatMap]
  congr 1
  funext p
  have hp : Finding.isCircular ⟨"edges", cycleMessage p⟩ = true := isCircular_append _ _
  simp [circular, error, hp]

/-- The graph that is searched for cycles. -/
def payloadLinks (fs : Fields) : Links :=
  links (listOf "nodes" (fieldOf fs "nodes")).2 (listOf "edges" (fieldOf fs "edges")).2

theorem circular_checkFields (fs : Fields) :
    (checkFields fs).circular = (payloadLinks fs).cycles.map fun p => ⟨"edges", cycleMessage p⟩ := by
  simp only [checkFields, circular_append, circular_requireFields, circular_checkSettings, circular_listOf,
    circular_checkNodes, circular_checkEdges, circular_checkVariables, circular_checkTrigger,
    circular_checkIsolated, circular_checkCycles, payloadLinks, List.nil_append, List.append_nil]

/-! The graph of a payload -/

/-- Some node of the payload has this id, a text that is not blank. -/
def Vertex (fs : Fields) (id : String) : Prop :=
  ∃ nodes, fieldOf fs "nodes" = .list nodes ∧
    ∃ node ∈ nodes, node.field? "id" = some (.text id) ∧ Text.allBlank id = false

/-- Some connection of the payload, whatever its kind, runs between these vertices. -/
def Arc (fs : Fields) (a b : String) : Prop :=
  Vertex fs a ∧ Vertex fs b ∧ ∃ edges, fieldOf fs "edges" = .list edges ∧
    ∃ edge ∈ edges, edge.field? "source" = some (.text a) ∧ edge.field? "target" = some (.text b)

section
variable {fs : Fields} {a b id : String}

theorem nodeId?_eq_some {node : Value} :
    nodeId? node = some id ↔ node.field? "id" = some (.text id) ∧ Text.allBlank id = false := by
  unfold nodeId?
  split
  · next s hs =>
    simp only [hs, Option.some.injEq, Value.text.injEq]
    split_ifs with hblank
    · simp only [false_iff]
      rintro ⟨rfl, h⟩
      simp [hblank] at h
    · constructor
      · intro h
        obtain rfl := Option.some.inj h
        exact ⟨rfl, by simpa using hblank⟩
      · rintro ⟨rfl, -⟩
        rfl
  · next hno =>
    simp only [reduceCtorEq, false_iff]
    rintro ⟨h, -⟩
    exact hno id h

theorem ends?_eq_some {edge : Value} :
    ends? edge = some (a, b) ↔ edge.field? "source" = some (.text a) ∧ edge.field? "target" = some (.text b) := by
  unfold ends?
  split
  · next s t hs ht => simp [hs, ht]
  · next hno =>
    simp only [reduceCtorEq, false_iff]
    rintro ⟨hs, ht⟩
    exact hno a b hs ht

/-- The items of a list field. -/
theorem mem_listOf {name : String} {v item : Value} :
    item ∈ (listOf name v).2 ↔ ∃ items, v = .list items ∧ item ∈ items := by
  cases v <;> simp [listOf]

theorem mem_nodes_payloadLinks : id ∈ (payloadLinks fs).nodes ↔ Vertex fs id := by
  simp only [payloadLinks, links, mem_distinct, List.mem_filterMap, mem_listOf, nodeId?_eq_some, Vertex]
  constructor
  · rintro ⟨node, ⟨nodes, hnodes, hnode⟩, hid⟩
    exact ⟨nodes, hnodes, node, hnode, hid⟩
  · rintro ⟨nodes, hnodes, node, hnode, hid⟩
    exact ⟨node, ⟨nodes, hnodes, hnode⟩, hid⟩

theorem leads_payloadLinks : (payloadLinks fs).Leads = Arc fs := by
  funext a b
  rw [eq_iff_iff, Arc, ← mem_nodes_payloadLinks, ← mem_nodes_payloadLinks]
  have harc : (payloadLinks fs).Leads a b ↔ (a, b) ∈ (listOf "edges" (fieldOf fs "edges")).2.filterMap ends? ∧
      a ∈ (payloadLinks fs).nodes ∧ b ∈ (payloadLinks fs).nodes := by
    simp [payloadLinks, links, Links.Leads]
  simp only [harc, List.mem_filterMap, mem_listOf, ends?_eq_some]
  constructor
  · rintro ⟨⟨edge, ⟨edges, hedges, hedge⟩, hends⟩, ha, hb⟩
    exact ⟨ha, hb, edges, hedges, edge, hedge, hends⟩
  · rintro ⟨ha, hb, edges, hedges, edge, hedge, hends⟩
    exact ⟨⟨edge, ⟨edges, hedges, hedge⟩, hends⟩, ha, hb⟩

end

/-- The search for cycles comes to an end, and the errors that speak of a circular dependency are what it
reports. There are such errors if and only if the graph of the payload has a cycle; all that is reported
are simple cycles of that graph, and none is reported twice. -/
theorem circular_validate (fs : Fields) :
    ∃ t, Search.Ends (payloadLinks fs) (Search.start (payloadLinks fs)) t ∧
      (validate (.object fs)).circular = t.reported.map (fun p => ⟨"edges", cycleMessage p⟩) ∧
      ((validate (.object fs)).circular ≠ [] ↔ ∃ id, TransGen (Arc fs) id id) ∧
      (∀ p ∈ t.reported, SimpleCycle (Arc fs) p) ∧ t.reported.Nodup := by
  have hg : (payloadLinks fs).WellFormed := links_wellFormed _ _
  obtain ⟨t, hends, hcycles⟩ := Search.ends_start hg
  obtain ⟨hsimple, hnodup⟩ := Links.cycles_simple hg
  have herrors : (validate (.object fs)).circular = t.reported.map fun p => ⟨"edges", cycleMessage p⟩ := by
    rw [hcycles]
    exact circular_checkFields fs
  refine ⟨t, hends, herrors, ?_, ?_, ?_⟩
  · rw [herrors, Ne, List.map_eq_nil_iff, hcycles, Links.cycles_eq_nil_iff hg, Links.Acyclic, leads_payloadLinks]
    simp only [not_forall, not_not]
  · rw [hcycles, ← leads_payloadLinks]
    exact hsimple
  · rw [hcycles]
    exact hnodup

end Validation

end Flowgraph
