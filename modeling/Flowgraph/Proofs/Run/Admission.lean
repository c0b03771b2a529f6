import Flowgraph.Proofs.Run.Step

/-! The order in which nodes are let run. A batch leaves the ready nodes in the order of the node list. So does
the launch, which does not sort them: it lets run nothing but nodes without sources, in the order in which it
decides them, since to every other node that it decides all paths are dead. -/

namespace Flowgraph

open Relation (ReflTransGen)

namespace Graph

variable {g : Graph}

/-- In a workflow without two nodes of one id the graph's nodes stand as the workflow's do. -/
theorem position_ofWorkflow {w : Workflow} (h : w.nodeIds.Nodup) : (ofWorkflow w).position = w.nodeIds.idxOf := by
  funext id
  rw [position, nodeIds_ofWorkflow, distinct_of_nodup h]

theorem mem_roots_iff_incoming {id : String} : id ∈ g.roots ↔ id ∈ g.nodeIds ∧ (g.incoming id).isEmpty = true :=
  List.mem_filter

end Graph

namespace Run

variable {r : Run} {id : String}

theorem pathsOpen_of_dead (h : ∀ e, r.edgeState e = .dead) (edges : List Edge) : r.pathsOpen false edges = .ok false := by
  induction edges with
  | nil => rfl
  | cons e rest ih =>
    rw [pathsOpen, h e]
    exact ih

theorem decide_of_dead (h : ∀ e, r.edgeState e = .dead) (hin : (r.graph.incoming id).isEmpty = false) :
    r.decide id = .ok false := by
  simp [decide, hin, pathsOpen_of_dead h, bind, Except.bind]

/-- Skipping a node leaves dead what was dead. -/
theorem edgeState_settleEdges_skipped (h : ∀ e, r.edgeState e = .dead) (e : Edge) :
    (r.settleEdges id .skipped).edgeState e = .dead := by
  have hfold : ∀ (edges : List Edge) (states : Table EdgeState), (∀ e : Edge, states.getD e.id .dead = .dead) →
      ((edges.foldl (fun states e => states.set e.id (EdgeState.after e .skipped)) states).getD e.id .dead) = .dead := by
    intro edges
    induction edges with
    | nil => exact fun states hs => hs e
    | cons d rest ih =>
      intro states hs
      refine ih _ fun e => ?_
      rw [Table.getD_set, hs]
      exact ite_self _
  exact hfold _ _ h

end Run

namespace Front

open Run

/-- A front before the first node has been started: only nodes without sources can have been let run. -/
structure Opening (f : Front) : Prop where
  dead : ∀ e, f.run.edgeState e = .dead
  todo : f.todo = []
  listed : f.run.graph.Listed (f.run.ready ++ f.waiting.filter fun id => id ∈ f.run.graph.roots)

variable {time : Moment} {f f' : Front}

theorem Opening.beat (hg : f.Good) (h : f.Opening) (hb : Beat time f f') : f'.Opening := by
  cases hb with
  | @accept r todo rest id hd =>
    have hroot : id ∈ r.graph.roots := by
      refine Graph.mem_roots_iff_incoming.2 ⟨(hg.live.fresh id (List.mem_cons_self ..)).1, ?_⟩
      by_contra hin
      rw [decide_of_dead h.dead (by simpa using hin)] at hd
      cases hd
    refine ⟨h.dead, h.todo, ?_⟩
    have hlisted := h.listed
    simpa [hroot] using hlisted
  | @skip r todo rest id hd =>
    have hskip : Beat time ⟨r, todo, id :: rest⟩ _ := .skip hd
    have hgood := hg.beat hskip
    obtain ⟨u, hu, -, hfreed⟩ := resolveOutgoing_spec (r.skip id) id .skipped
    have hgraph : ((r.skip id).resolveOutgoing id .skipped).1.graph = r.graph := by rw [hu]; rfl
    have hready : ((r.skip id).resolveOutgoing id .skipped).1.ready = r.ready := by rw [hu]; rfl
    have hstate : ∀ e, ((r.skip id).resolveOutgoing id .skipped).1.edgeState e =
        ((r.skip id).settleEdges id .skipped).edgeState e := fun e => by rw [hu]; rfl
    refine ⟨fun e => (hstate e).trans (edgeState_settleEdges_skipped h.dead e), h.todo, ?_⟩
    have hlisted := List.pairwise_append.1 h.listed
    -- what the skipping frees has a source, so it is none of the nodes that can still be let run
    have hmem : ∀ x ∈ r.graph.sortByPosition (rest ++ ((r.skip id).resolveOutgoing id .skipped).2),
        x ∈ r.graph.roots → x ∈ rest := by
      intro x hx hroot
      refine (List.mem_append.1 (Graph.mem_sortByPosition.1 hx)).resolve_right fun hfree => ?_
      rw [hfreed] at hfree
      have hsource : id ∈ r.graph.sources x :=
        Graph.mem_sources.2 (Graph.mem_targets.1 (List.mem_of_mem_filter hfree))
      rw [(Graph.mem_roots.1 hroot).2] at hsource
      cases hsource
    have hwaiting : r.graph.Listed (r.graph.sortByPosition (rest ++ ((r.skip id).resolveOutgoing id .skipped).2)) := by
      have hnodup := (List.nodup_append.1 hgood.live.nodup).1
      refine Graph.listed_sortByPosition ((Graph.perm_sortByPosition _ _).nodup_iff.1 hnodup) fun x hx => ?_
      exact hgraph ▸ (hgood.live.fresh x (List.mem_append_left _ (Graph.mem_sortByPosition.2 hx))).1
    dsimp only
    rw [hgraph, hready]
    refine List.pairwise_append.2 ⟨hlisted.1, hwaiting.filter _, fun a ha b hb => ?_⟩
    obtain ⟨hb, hroot⟩ := List.mem_filter.1 hb
    refine hlisted.2.2 a ha b (List.mem_filter.2 ⟨List.mem_cons_of_mem _ (hmem b hb ?_), hroot⟩)
    exact of_decide_eq_true hroot
  | resolve | lose => cases h.todo

theorem Opening.beats (hg : f.Good) (h : f.Opening) (hb : ReflTransGen (Beat time) f f') : f'.Opening := by
  induction hb with
  | refl => exact h
  | tail hb hbeat ih => exact ih.beat (hg.beats hb) hbeat

end Front

namespace Run

variable {r : Run}

theorem Unbegun.opening (h : r.Unbegun) (hedges : r.edgeStates = []) : (firstFront r).Opening where
  dead := fun e => by
    change Table.getD r.edgeStates e.id .dead = .dead
    rw [hedges]
    rfl
  todo := rfl
  listed := by
    have hlive := h.live
    change r.graph.Listed (r.ready ++ (r.graph.sortByPosition r.graph.roots).filter _)
    rw [h.ready, List.nil_append]
    refine (Graph.listed_sortByPosition (h.sound.wellFormed.nodup.filter _) fun id hid => ?_).filter _
    exact (Graph.mem_roots.1 hid).1

/-- The launch lets nodes run in the order of the node list. -/
theorem Unbegun.listed_admitAll (h : r.Unbegun) (hedges : r.edgeStates = [])
    (hstop : (r.admitAll r.graph.roots).stop = none) :
    (r.admitAll r.graph.roots).front.Good ∧
      (r.admitAll r.graph.roots).graph.Listed (r.admitAll r.graph.roots).ready := by
  have hy : Front.Yields default (firstFront r) [] (r.admitAll r.graph.roots) := Front.admitAll_yields h.good h.stop
  rcases hy with hb | ⟨m, reason, hb, -, hr⟩
  · have hlisted := ((h.opening hedges).beats h.good hb).listed
    refine ⟨h.good.beats hb, ?_⟩
    simpa using hlisted
  · rw [List.foldl_nil] at hr
    rw [hr, Front.halt_stop _ reason (h.good.beats hb).live] at hstop
    cases hstop

/-- A batch leaves the ready nodes in the order of the node list. -/
theorem listed_handleBatch (time : Moment) (h : r.front.Good) (hstop : r.stop = none)
    (hcalm : (r.handleBatch time).stop = none) :
    (r.handleBatch time).front.Good ∧ (r.handleBatch time).graph.Listed (r.handleBatch time).ready := by
  have hend := handleBatch_ends time h hstop
  have hready : (r.handleBatch time).ready =
      (r.handleBatch time).graph.sortByPosition (r.batch.foldl (handle time) r.unfinished).ready := rfl
  generalize hq : r.handleBatch time = q at hend hcalm hready
  cases hend with
  | @calm q order hb ho =>
    have hgood : q.front.Good := (Good.batchFront h).beats hb
    have hgood' : Front.Good (Run.front { q with ready := order }) :=
      ⟨hgood.sound.congr rfl rfl rfl rfl, hgood.live.congr rfl rfl rfl rfl rfl (List.forall_mem_nil _)
        hgood.live.ended ho⟩
    refine ⟨hgood', ?_⟩
    change order = q.graph.sortByPosition _ at hready
    have hperm := Graph.perm_sortByPosition q.graph (r.batch.foldl (handle time) r.unfinished).ready
    change q.graph.Listed order
    rw [hready] at ho ⊢
    refine Graph.listed_sortByPosition ((hperm.symm.trans ho).nodup_iff.2 hgood.live.nodup) fun x hx => ?_
    exact (hgood.live.fresh x ((hperm.symm.trans ho).mem_iff.1 hx)).1
  | @halted m reason hb hs order =>
    have hstopped := Front.halt_stop time reason ((Good.batchFront h).beats hb).live
    exact absurd (hstopped.symm.trans hcalm) (Option.some_ne_none _)

end Run

end Flowgraph
