import Flowgraph.Capability.Builtin
import Flowgraph.Proofs.Document.Drawing
import Flowgraph.Proofs.Validation.Model

/-! The ids in a document. Each node keeps its id, and a guard has the id of its connection with a suffix,
which is not compared with the ids of the nodes: the ids differ exactly if no node claims that of a guard. -/

namespace Flowgraph

open List (Perm)

namespace Document

def guardId (x : Edge) : String :=
  x.id ++ "-guard"

/-- Guards have ids of their own where their connections have. -/
theorem nodup_guardId {edges : List Edge} : (edges.map guardId).Nodup ↔ (edges.map Edge.id).Nodup := by
  have hmap : edges.map guardId = (edges.map Edge.id).map (· ++ "-guard") := by
    rw [List.map_map]
    rfl
  rw [hmap]
  exact List.nodup_map_iff fun a b h => (String.append_left_inj _).1 h

section
variable {r : Registry} {g : Graph} {order : List String} {name : String → String} {own : List (Edge × String)}
  {d : Document}

/-- The ids that a reader finds are those of the nodes and then those of the guards. -/
theorem Draws.map_id_readNodes (h : Draws r g order name own d) :
    (readNodes d.toWire).map View.id = order ++ (own.map Prod.fst).map guardId := by
  have hids := congrArg (List.map Prod.fst) h.nodes
  simp only [List.map_map, List.map_append] at hids
  rw [readNodes_toWire, List.map_map, List.map_map]
  calc
    d.nodes.map (View.id ∘ Node.view) = d.nodes.map (Prod.fst ∘ fun n => (n.id, n.name)) := rfl
    _ = _ := hids
    _ = order ++ own.map (guardId ∘ Prod.fst) := by
      congr 1
      exact List.map_id order

/-- No id comes twice exactly if guarded connections differ in their ids and no node claims that of a guard. -/
theorem Draws.nodup_ids_iff (h : Draws r g order name own d) (hg : g.WellFormed) :
    ((readNodes d.toWire).map View.id).Nodup ↔
      ((g.edges.filter fun x => x.guard?.isSome).map Edge.id).Nodup ∧
        ∀ x ∈ g.edges, x.guard?.isSome = true → guardId x ∉ g.nodeIds := by
  have hnodup : order.Nodup := h.ids.nodup_iff.2 hg.nodup
  have hguards : Perm ((own.map Prod.fst).map guardId) ((g.edges.filter fun x => x.guard?.isSome).map guardId) :=
    h.guarded.map _
  rw [h.map_id_readNodes, List.nodup_append, hguards.nodup_iff, nodup_guardId]
  constructor
  · rintro ⟨-, hedges, hapart⟩
    refine ⟨hedges, fun x hx hguard hclaimed => ?_⟩
    have hmem : guardId x ∈ (own.map Prod.fst).map guardId :=
      hguards.mem_iff.2 (List.mem_map_of_mem (List.mem_filter.2 ⟨hx, hguard⟩))
    exact hapart _ (h.ids.mem_iff.2 hclaimed) _ hmem rfl
  · rintro ⟨hedges, hfree⟩
    refine ⟨hnodup, hedges, fun a ha b hb hab => ?_⟩
    obtain ⟨x, hx, rfl⟩ := List.mem_map.1 (hguards.mem_iff.1 hb)
    obtain ⟨hx, hguard⟩ := List.mem_filter.1 hx
    exact hfree x hx hguard (hab ▸ h.ids.mem_iff.1 ha)

end

end Document

/-- All connections of a well-wired workflow are drawn. -/
theorem Workflow.Wired.edges_ofWorkflow {w : Workflow} (h : w.Wired) : (Graph.ofWorkflow w).edges = w.edges := by
  refine List.filter_eq_self.2 fun x hx => ?_
  exact (List.mem_filter.1 (Graph.mem_edges_ofWorkflow.2 ⟨hx, h.ends x hx⟩)).2

open Document in
/-- The nodes of a document that has been drawn of a valid workflow have ids of their own if and only if no
node of the workflow claims the id of the guard of a connection. -/
theorem Emitter.document_ids_nodup_iff {e : Emitter} {w : Workflow} {em : Emission Document} {d : Document}
    (hvalid : w.validate.valid = true) (h : e.document w = .ok em) (hd : em.form = some d) :
    ((readNodes d.toWire).map View.id).Nodup ↔
      ∀ x ∈ w.edges, x.guard?.isSome = true → x.id ++ "-guard" ∉ w.nodeIds := by
  obtain ⟨-, hwired⟩ := Workflow.valid_iff.1 hvalid
  obtain ⟨⟨order, name, own, hdraws⟩, -⟩ := draws_of_document h hd
  have hedges : ((w.edges.filter fun x => x.guard?.isSome).map Edge.id).Nodup :=
    hwired.nodup_edges.sublist (List.filter_sublist.map _)
  rw [hdraws.nodup_ids_iff (Graph.ofWorkflow_wellFormed w), hwired.edges_ofWorkflow]
  simp only [hedges, true_and, Graph.mem_nodeIds_ofWorkflow]
  rfl

namespace Document

def gatedStep (id : String) : Workflow :=
  { id := "w", name := "w", version := "1"
    nodes :=
      [{ id := "in", type := .trigger, provider := "trigger", operation := "manual" },
       { id, type := .action, provider := "core", operation := "noop" }]
    edges :=
      [{ id := "e", source := "in", target := id, type := .conditional
         condition := some { expression := some "ready" } }] }

def gatedEmitter : Emitter :=
  { registry := Builtin.registry }

/-- A step with another id than the guard in front of it. -/
theorem document_ids_unclaimed : ∃ em d, (gatedStep "out").validate.valid = true ∧
    gatedEmitter.document (gatedStep "out") = .ok em ∧ em.form = some d ∧ ((readNodes d.toWire).map View.id).Nodup := by
  have hvalid : (gatedStep "out").validate.valid = true := by decide
  obtain ⟨em, d, hok, hd, -⟩ :=
    Emitter.document_of_any (e := gatedEmitter) (w := gatedStep "out") (p := fun _ _ => true) (by decide)
  exact ⟨em, d, hvalid, hok, hd, (Emitter.document_ids_nodup_iff hvalid hok hd).2 (by decide)⟩

/-- A step that claims the id of the guard in front of it. -/
theorem document_ids_claimed : ∃ em d, (gatedStep "e-guard").validate.valid = true ∧
    gatedEmitter.document (gatedStep "e-guard") = .ok em ∧ em.form = some d ∧
    (readNodes d.toWire).map View.id = ["in", "e-guard", "e-guard"] ∧
    ¬ ((readNodes d.toWire).map View.id).Nodup := by
  obtain ⟨em, d, hok, hd, hids⟩ := Emitter.document_of_any (e := gatedEmitter) (w := gatedStep "e-guard")
    (p := fun _ d => (readNodes d.toWire).map View.id = ["in", "e-guard", "e-guard"]) (by decide)
  have hids := of_decide_eq_true hids
  refine ⟨em, d, by decide, hok, hd, hids, ?_⟩
  rw [hids]
  decide

end Document

end Flowgraph
