import Flowgraph.Proofs.Document.Contraction

/-! What a document shows of failures. A run goes on after the failure of a step exactly if the node of the step
has an error mode, or the document comes with a warning that an error connection of the step was dropped. -/

namespace Flowgraph

open List (Perm)

namespace Document

section
variable {r : Registry} {w : Workflow} {g : Graph}

/-- A failure is contained by a setting or by an error connection. -/
theorem contains_iff {n : Flowgraph.Node} :
    Policy.contains w g n = true ↔ continues w n = true ∨ ∃ x, x ∈ errorEdges g n.id := by
  unfold Policy.contains continues errorEdges
  simp only [Bool.or_eq_true, List.any_eq_true, List.mem_filter]

/-- A node has an error mode by a setting or by an error connection for which there is a slot. -/
theorem isSome_onErrorOf_iff {s : Step} : (onErrorOf w g s).isSome = true ↔
    continues w s.node = true ∨ s.hasErrorSlot = true ∧ ∃ x, x ∈ errorEdges g s.node.id := by
  rw [← List.isEmpty_eq_false_iff_exists_mem]
  unfold onErrorOf
  cases s.hasErrorSlot <;> cases (errorEdges g s.node.id).isEmpty <;> cases continues w s.node <;> simp

/-- Error connections that are not seen in the error mode of their source are dropped. -/
theorem contains_iff_shown {s : Step} (hnode : g.node? s.node.id = some s.node)
    (hform : r.externalForm? s.node = some s.form) : Policy.contains w g s.node = true ↔
      (onErrorOf w g s).isSome = true ∨ ∃ x ∈ g.outgoing s.node.id, isDropped r g x = true := by
  rw [contains_iff, isSome_onErrorOf_iff]
  constructor
  · rintro (hcontinues | ⟨x, hx⟩)
    · exact Or.inl (Or.inl hcontinues)
    · have hdropped := isDropped_of_mem_errorEdges hnode hform hx
      cases hslot : s.hasErrorSlot with
      | true => exact Or.inl (Or.inr ⟨rfl, x, hx⟩)
      | false =>
        rw [hslot] at hdropped
        exact Or.inr ⟨x, List.mem_of_mem_filter hx, hdropped⟩
  · rintro ((hcontinues | ⟨-, hx⟩) | ⟨x, hx, hdropped⟩)
    · exact Or.inl hcontinues
    · exact Or.inr hx
    · obtain ⟨htype, -⟩ := Bool.and_eq_true_iff.1 hdropped
      exact Or.inr ⟨x, List.mem_filter.2 ⟨hx, htype⟩⟩

end

end Document

open Document in
/-- The nodes of a document are those of the steps, each under its id, and those of the guards. The failure of
a step is contained if and only if its node has an error mode or a warning says that an error connection from
the step was dropped. -/
theorem Emitter.contained_iff_shown {e : Emitter} {w : Workflow} {em : Emission Document} {d : Document}
    (h : e.document w = .ok em) (hd : em.form = some d) :
    ∃ steps guards : List View,
      readNodes d.toWire = steps ++ guards ∧
      Perm (steps.map View.id) (Graph.ofWorkflow w).nodeIds ∧
      Perm (guards.map View.id)
        (((Graph.ofWorkflow w).edges.filter fun x => x.guard?.isSome).map fun x => x.id ++ "-guard") ∧
      (w.nodeIds.Nodup → (Graph.ofWorkflow w).nodes = w.nodes) ∧
      ∀ n ∈ (Graph.ofWorkflow w).nodes, ∀ v ∈ steps, v.id = n.id →
        (Policy.contains w (Graph.ofWorkflow w) n = true ↔
          v.onError.isSome = true ∨
            ∃ x ∈ (Graph.ofWorkflow w).outgoing n.id, isDropped e.registry (Graph.ofWorkflow w) x = true ∧
              droppedWarning x ∈ em.warnings) := by
  obtain ⟨pairs, own, wiring, ha⟩ := assembled_of_document h hd
  have hg : (Graph.ofWorkflow w).WellFormed := Graph.ofWorkflow_wellFormed w
  have hwarned : ∀ x ∈ (Graph.ofWorkflow w).edges, isDropped e.registry (Graph.ofWorkflow w) x = true →
      droppedWarning x ∈ em.warnings := by
    intro x hx hdropped
    refine (ha.perm_warnings hg).mem_iff.2 (List.mem_append_right _ ?_)
    exact List.mem_map_of_mem (List.mem_filter.2 ⟨hx, hdropped⟩)
  refine ⟨pairs.map fun p => p.2.view, wiring.guards.map Node.view, ?_, ?_, ?_, firstOfEach_eq_self, ?_⟩
  · rw [readNodes_toWire, ha.nodes, List.map_append, List.map_map]
    rfl
  · have hids : (pairs.map fun p => p.2.view).map View.id = pairs.map fun p => p.1.node.id := by
      rw [List.map_map]
      exact List.map_congr_left fun p hp => ha.placed.id p hp
    rw [hids]
    exact (ha.draws hg).ids
  · have hids := congrArg (List.map Prod.fst) ha.laid.guards
    rw [List.map_map, List.map_map] at hids
    have hguards : (wiring.guards.map Node.view).map View.id = (own.map Prod.fst).map fun x => x.id ++ "-guard" := by
      rw [List.map_map, List.map_map]
      exact hids
    rw [hguards]
    exact (ha.draws hg).guarded.map _
  · rintro n hn _ hv hid
    obtain ⟨p, hp, rfl⟩ := List.mem_map.1 hv
    obtain rfl : p.1.node = n := by
      refine List.inj_on_of_nodup_map hg.nodup (Graph.node?_mem (ha.placed.node p hp)) hn ?_
      rw [← ha.placed.id p hp]
      exact hid
    rw [contains_iff_shown (ha.placed.node p hp) (ha.placed.form p hp), ← ha.placed.onError p hp]
    have hmode : p.2.view.onError.isSome = p.2.onError.isSome := by simp [Node.view]
    rw [hmode]
    refine or_congr_right (exists_congr fun x => and_congr_right fun hx => ?_)
    exact (and_iff_left_of_imp (hwarned x (List.mem_of_mem_filter hx))).symm

open Document in
/-- The trigger has no error mode, but the connection that contains its failure is among the warnings; the step
behind it shows its own, and the last one contains nothing. -/
theorem Emitter.contained_shown_crossing :
    ∃ em d, (crossingEmitter.document crossing = .ok em ∧ em.form = some d) ∧
      (readNodes d.toWire).map (fun v => (v.id, v.onError.isSome)) =
        [("a", false), ("b", true), ("c", false), ("1-guard", false), ("2-guard", false)] ∧
      ((Graph.ofWorkflow crossing).nodes.filter (Policy.contains crossing (Graph.ofWorkflow crossing))).map
        Flowgraph.Node.id = ["a", "b"] ∧
      ∃ x ∈ (Graph.ofWorkflow crossing).outgoing "a", droppedWarning x ∈ em.warnings := by
  obtain ⟨em, d, hok, hd, hviews⟩ := document_of_any (e := crossingEmitter) (w := crossing)
    (p := fun _ d => (readNodes d.toWire).map (fun v => (v.id, v.onError.isSome)) =
      [("a", false), ("b", true), ("c", false), ("1-guard", false), ("2-guard", false)]) (by decide +kernel)
  have hviews := of_decide_eq_true hviews
  refine ⟨em, d, ⟨hok, hd⟩, hviews, by decide +kernel, ?_⟩
  obtain ⟨steps, guards, hread, hids, -, -, hshown⟩ := contained_iff_shown hok hd
  have ha : ∃ n ∈ (Graph.ofWorkflow crossing).nodes, n.id = "a" ∧
      Policy.contains crossing (Graph.ofWorkflow crossing) n = true := by
    refine ⟨crossing.nodes.head (by decide), ?_, rfl, by decide +kernel⟩
    exact List.mem_cons_self
  obtain ⟨n, hn, hna, hcontains⟩ := ha
  obtain ⟨v, hv, hvid⟩ := List.mem_map.1 (hids.mem_iff.2 (List.mem_map_of_mem hn))
  rcases (hshown n hn v hv hvid).1 hcontains with hmode | ⟨x, hx, -, hwarned⟩
  · have hmem : (v.id, v.onError.isSome) ∈ (readNodes d.toWire).map fun v => (v.id, v.onError.isSome) := by
      rw [hread]
      exact List.mem_map_of_mem (List.mem_append_left guards hv)
    rw [hviews, hvid, hna, hmode] at hmem
    exact absurd hmem (by decide)
  · exact ⟨x, hna ▸ hx, hwarned⟩

end Flowgraph
