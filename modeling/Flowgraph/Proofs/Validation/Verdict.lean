import Flowgraph.Proofs.Validation.Normal

/-! The verdict on a workflow that has been read. Reading leaves no text of a node or of a connection
blank and no time limit zero, so that only the texts of the workflow and of its variables, the ids, the
ends, the cycles and the trigger are left to be found fault with. -/

namespace Flowgraph

open Relation (TransGen)

namespace Workflow

def Leads (w : Workflow) (a b : String) : Prop :=
  ∃ e ∈ w.edges, e.source = a ∧ e.target = b

/-- The graph of a workflow has all its connections when no end is unknown. -/
theorem leads_ofWorkflow {w : Workflow} (hends : ∀ e ∈ w.edges, e.source ∈ w.nodeIds ∧ e.target ∈ w.nodeIds) :
    (Graph.ofWorkflow w).Leads = w.Leads := by
  funext a b
  rw [eq_iff_iff]
  constructor
  · rintro ⟨e, he, hs, ht⟩
    exact ⟨e, (Graph.mem_edges_ofWorkflow.1 he).1, hs, ht⟩
  · rintro ⟨e, he, hs, ht⟩
    exact ⟨e, Graph.mem_edges_ofWorkflow.2 ⟨he, hends e he⟩, hs, ht⟩

theorem acyclic_ofWorkflow {w : Workflow} (hends : ∀ e ∈ w.edges, e.source ∈ w.nodeIds ∧ e.target ∈ w.nodeIds) :
    (Graph.ofWorkflow w).Acyclic ↔ ∀ id, ¬ TransGen w.Leads id id := by
  rw [Graph.Acyclic, leads_ofWorkflow hends]

/-- Reading fills everything but the texts that it takes as they are. -/
theorem filled_iff_of_read {v : Value} {w : Workflow} (hw : Workflow.ofValue v = .accepted w) :
    w.Filled ↔ (Text.allBlank w.id = false ∧ Text.allBlank w.name = false ∧ Text.allBlank w.version = false) ∧
      ∀ x ∈ w.vars, x.Filled := by
  have hread := readFrom hw
  constructor
  · intro h
    exact ⟨⟨h.id, h.name, h.version⟩, h.vars⟩
  · rintro ⟨⟨hid, hname, hversion⟩, hvars⟩
    obtain ⟨_, -, hnodes⟩ := hread.nodes
    obtain ⟨_, -, hedges⟩ := hread.edges
    refine ⟨hid, hname, hversion, hread.timeout, fun n hn => ?_, fun e he => ?_, hvars⟩
    · obtain ⟨u, -, hu⟩ := forall₂_mem_right hnodes n hn
      exact (Node.readFrom hu).filled
    · obtain ⟨u, -, hu⟩ := forall₂_mem_right hedges e he
      exact (Edge.readFrom hu).filled

end Workflow

theorem Variable.filled_iff {x : Variable} :
    x.Filled ↔ Text.allBlank x.id = false ∧ Text.allBlank x.name = false := by
  constructor
  · intro h
    exact ⟨h.id, h.name⟩
  · rintro ⟨hid, hname⟩
    exact ⟨hid, hname⟩

/-- A workflow that has been read is valid if and only if it, its version and its variables are named, no
id of a node or of a connection is repeated, every connection runs between nodes, the connections of all
kinds together close no cycle, and some node is a trigger. -/
theorem valid_iff_of_read {v : Value} {w : Workflow} (hw : Workflow.ofValue v = .accepted w) :
    w.validate.valid = true ↔
      (Text.allBlank w.id = false ∧ Text.allBlank w.name = false ∧ Text.allBlank w.version = false) ∧
      w.nodeIds.Nodup ∧ w.edgeIds.Nodup ∧
      (∀ e ∈ w.edges, e.source ∈ w.nodeIds ∧ e.target ∈ w.nodeIds) ∧
      (∀ id, ¬ TransGen w.Leads id id) ∧
      (∃ n ∈ w.nodes, n.type = .trigger) ∧
      ∀ x ∈ w.vars, Text.allBlank x.id = false ∧ Text.allBlank x.name = false := by
  rw [Workflow.valid_iff, Workflow.filled_iff_of_read hw]
  simp only [Variable.filled_iff]
  constructor
  · rintro ⟨⟨htexts, hvars⟩, hwired⟩
    have hacyclic := (Workflow.acyclic_ofWorkflow hwired.ends).1 hwired.acyclic
    exact ⟨htexts, hwired.nodup_nodes, hwired.nodup_edges, hwired.ends, hacyclic, hwired.trigger, hvars⟩
  · rintro ⟨htexts, hnodes, hedges, hends, hacyclic, htrigger, hvars⟩
    exact ⟨⟨htexts, hvars⟩, hnodes, hedges, hends, (Workflow.acyclic_ofWorkflow hends).2 hacyclic, htrigger⟩

def roundTrip (back : List (String × String)) : Value :=
  let node (id type : String) : Value :=
    .object [("id", .text id), ("type", .text type), ("provider", .text "p"), ("operation", .text "o")]
  let edge (id source target type : String) : Value :=
    .object [("id", .text id), ("source", .text source), ("target", .text target), ("type", .text type)]
  .object [("id", .text "w"), ("name", .text "w"), ("version", .text "1"),
    ("nodes", .list [node " a" "trigger", node "b " "action"]),
    ("edges", .list (edge "there" "a " "b" "default" :: back.map fun e => edge e.1 "b" " a" e.2)),
    ("variables", .list [.object [("id", .text "x"), ("name", .text "limit"), ("type", .text "number")]])]

/-- A connection back closes a cycle, also one that only errors take. -/
theorem valid_iff_of_read_roundTrip :
    (∃ w, Workflow.ofValue (roundTrip []) = .accepted w ∧ w.validate.valid = true ∧
        ∀ id, ¬ TransGen w.Leads id id) ∧
      ∃ w, Workflow.ofValue (roundTrip [("back", "error")]) = .accepted w ∧ w.validate.valid = false := by
  constructor
  · obtain ⟨w, hw, hvalid⟩ : ∃ w, Workflow.ofValue (roundTrip []) = .accepted w ∧ w.validate.valid = true :=
      value?_eq_some (by decide +kernel)
    obtain ⟨-, -, -, -, hacyclic, -⟩ := (valid_iff_of_read hw).1 hvalid
    exact ⟨w, hw, hvalid, hacyclic⟩
  · obtain ⟨w, hw, hedges⟩ : ∃ w, Workflow.ofValue (roundTrip [("back", "error")]) = .accepted w ∧
        w.edges.map (fun e => (e.source, e.target)) = [("a", "b"), ("b", "a")] :=
      value?_eq_some (by decide +kernel)
    refine ⟨w, hw, Bool.eq_false_iff.2 fun hvalid => ?_⟩
    obtain ⟨-, -, -, -, hacyclic, -⟩ := (valid_iff_of_read hw).1 hvalid
    have hleads : ∀ a b, (a, b) ∈ [("a", "b"), ("b", "a")] → w.Leads a b := by
      intro a b hab
      rw [← hedges] at hab
      obtain ⟨e, he, heq⟩ := List.mem_map.1 hab
      exact ⟨e, he, (Prod.mk.inj heq).1, (Prod.mk.inj heq).2⟩
    exact hacyclic "a" ((TransGen.single (hleads "a" "b" (by simp))).tail (hleads "b" "a" (by simp)))

end Flowgraph
