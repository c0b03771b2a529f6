import Flowgraph.Proofs.Edit.Validity

/-! Edits that take others back. A step that is added gets an id that no step has, and where every connection has its
ends, none but the one that came with the step touches that id: without the step the workflow is what it was, wherever
in the list the step was put. In the same way the id of an added connection is that of no other. -/

namespace Flowgraph

open Numbered Flowgraph.Numbering

namespace Workflow

open Edit

section
variable {w w' : Workflow} {count count' : Nat}

/-! Additions that are accepted -/

/-- A step is put at the end if it can be read and its id is new. -/
theorem gives_addNode_last {draft : Draft Node} :
    (w.addNode draft .null).Gives count w' count' ↔
      ∃ n, (nodeOf .addNode draft).Gives count n count' ∧ n.id ∉ w.nodeIds ∧
        w' = { w with nodes := w.nodes ++ [n] } := by
  have hnull : Value.null.isNull = true := rfl
  unfold addNode
  simp only [hnull, if_true, gives_bind, gives_unless_refused, gives_pure, node?_isSome]
  constructor
  · rintro ⟨n, k, hn, hnew, rfl, rfl⟩
    exact ⟨n, hn, hnew, rfl⟩
  · rintro ⟨n, hn, hnew, rfl⟩
    exact ⟨n, count', hn, hnew, rfl, rfl⟩

/-- Behind another step it is put if that is there, and a connection comes with it. -/
theorem gives_addNode_behind {draft : Draft Node} {after : Value} (hafter : after.isNull = false) :
    (w.addNode draft after).Gives count w' count' ↔
      ∃ n k anchor, (nodeOf .addNode draft).Gives count n k ∧ n.id ∉ w.nodeIds ∧ w.nodeAt? after = some anchor ∧
        count' = k + 1 ∧ w' = { w with
          nodes := insertAfter anchor.id n w.nodes
          edges := w.edges ++ [{ id := stampedId "edge" (k + 1), source := anchor.id, target := n.id }] } := by
  unfold addNode
  simp only [hafter, Bool.false_eq_true, if_false, gives_bind, gives_unless_refused, gives_nodeAt, gives_stamped,
    gives_pure, node?_isSome]
  constructor
  · rintro ⟨n, k, hn, hnew, anchor, _, ⟨hanchor, rfl⟩, _, _, ⟨rfl, rfl⟩, rfl, rfl⟩
    exact ⟨n, k, anchor, hn, hnew, hanchor, rfl, rfl⟩
  · rintro ⟨n, k, anchor, hn, hnew, hanchor, rfl, rfl⟩
    exact ⟨n, k, hn, hnew, anchor, k, ⟨hanchor, rfl⟩, _, _, ⟨rfl, rfl⟩, rfl, rfl⟩

/-- A connection is accepted if it can be read, its ends are there and its id is new. -/
theorem gives_addEdge {draft : Draft Edge} :
    (w.addEdge draft).Gives count w' count' ↔
      ∃ e, (edgeOf .addEdge draft).Gives count e count' ∧ e.source ∈ w.nodeIds ∧ e.target ∈ w.nodeIds ∧
        e.id ∉ w.edgeIds ∧ w' = { w with edges := w.edges ++ [e] } := by
  have hat : ∀ {id : String}, (∃ n, w.nodeAt? (.text id) = some n) ↔ id ∈ w.nodeIds := fun {id} => by
    rw [← node?_isSome, Option.isSome_iff_exists]
    rfl
  unfold addEdge
  simp only [gives_bind, gives_nodeAt, gives_unless_refused, gives_pure, edge?_isSome]
  constructor
  · rintro ⟨e, k, he, _, _, ⟨hsource, rfl⟩, _, _, ⟨htarget, rfl⟩, hnew, rfl, rfl⟩
    exact ⟨e, he, hat.1 ⟨_, hsource⟩, hat.1 ⟨_, htarget⟩, hnew, rfl⟩
  · rintro ⟨e, he, hsource, htarget, hnew, rfl⟩
    obtain ⟨source, hsource⟩ := hat.2 hsource
    obtain ⟨target, htarget⟩ := hat.2 htarget
    exact ⟨e, count', he, source, count', ⟨hsource, rfl⟩, target, count', ⟨htarget, rfl⟩, hnew, rfl, rfl⟩

/-! Removals -/

theorem removeNode_of_mem {n : Node} (h : n ∈ w.nodes) :
    w.removeNode (.text n.id) = { w with
      nodes := w.nodes.filter fun m => m.id ≠ n.id
      edges := w.edges.filter fun e => e.source ≠ n.id && e.target ≠ n.id } := by
  obtain ⟨found, hfound⟩ := Option.isSome_iff_exists.1 (node?_isSome.2 (List.mem_map_of_mem h))
  have hid : found.id = n.id := (mem_nodeIds_of_node? hfound).2
  have hat : w.nodeAt? (.text n.id) = some found := hfound
  unfold removeNode
  rw [hat]
  simp only [hid]

theorem gives_removeEdge_of_mem {e : Edge} (h : e ∈ w.edges) :
    (w.removeEdge (.text e.id)).Gives count w' count' ↔
      w' = { w with edges := w.edges.filter fun f => f.id ≠ e.id } ∧ count' = count := by
  obtain ⟨found, hfound⟩ := Option.isSome_iff_exists.1 (edge?_isSome.2 (List.mem_map_of_mem h))
  have hid : found.id = e.id := by simpa using List.find?_some hfound
  have hat : (Value.text e.id).text?.bind w.edge? = some found := hfound
  unfold removeEdge
  rw [hat]
  simp only [hid, gives_pure, eq_comm]

/-- Of other ids all stay. -/
theorem filter_of_new {α : Type} {idOf : α → String} {xs : List α} {id : String} (h : id ∉ xs.map idOf) :
    xs.filter (fun x => idOf x ≠ id) = xs :=
  List.filter_eq_self.2 fun _ hx => decide_eq_true fun heq => h (heq ▸ List.mem_map_of_mem hx)

/-- The step that was put behind another one is the one that goes. -/
theorem filter_insertAfter {nodes : List Node} {n : Node} (anchor : String) (h : n.id ∉ nodes.map Node.id) :
    (insertAfter anchor n nodes).filter (fun m => m.id ≠ n.id) = nodes := by
  induction nodes with
  | nil => rfl
  | cons m rest ih =>
    rw [List.map_cons, List.mem_cons, not_or] at h
    have hm : m.id ≠ n.id := fun heq => h.1 heq.symm
    unfold insertAfter
    split_ifs
    · simpa [hm] using filter_of_new h.2
    · simpa [hm] using ih h.2

/-- Without a step that came to a workflow whose connections all have their ends, and without the connections that
came with it, the workflow is what it was. -/
theorem removeNode_added {n : Node} {nodes : List Node} {touching : List Edge}
    (hends : ∀ e ∈ w.edges, e.source ∈ w.nodeIds ∧ e.target ∈ w.nodeIds) (hnew : n.id ∉ w.nodeIds)
    (hmem : n ∈ nodes) (hnodes : nodes.filter (fun m => m.id ≠ n.id) = w.nodes)
    (htouching : ∀ e ∈ touching, e.source = n.id ∨ e.target = n.id) :
    Workflow.removeNode { w with nodes, edges := w.edges ++ touching } (.text n.id) = w := by
  have hold : w.edges.filter (fun e => e.source ≠ n.id && e.target ≠ n.id) = w.edges := by
    refine List.filter_eq_self.2 fun e he => ?_
    have hsource : e.source ≠ n.id := fun heq => hnew (heq ▸ (hends e he).1)
    have htarget : e.target ≠ n.id := fun heq => hnew (heq ▸ (hends e he).2)
    simp [hsource, htarget]
  have hgone : touching.filter (fun e => e.source ≠ n.id && e.target ≠ n.id) = [] := by
    refine List.filter_eq_nil_iff.2 fun e he => ?_
    rcases htouching e he with heq | heq <;> simp [heq]
  rw [removeNode_of_mem hmem]
  simp only [List.filter_append, hnodes, hold, hgone, List.append_nil]

/-- Where every connection has its ends, a step that is added and removed again leaves the workflow as it was,
whether it was read from a payload or made, and whether it was put at the end or behind another one; and so does a
connection. -/
theorem removals_undo_additions (w : Workflow)
    (hends : ∀ e ∈ w.edges, e.source ∈ w.nodeIds ∧ e.target ∈ w.nodeIds) :
    (∀ draft after count w' count', (w.addNode draft after).Gives count w' count' →
      ∃ n k, (nodeOf .addNode draft).Gives count n k ∧ n ∈ w'.nodes ∧ w'.removeNode (.text n.id) = w) ∧
    ∀ draft count w' count', (w.addEdge draft).Gives count w' count' →
      ∃ e, (edgeOf .addEdge draft).Gives count e count' ∧ e ∈ w'.edges ∧
        ∀ k, (w'.removeEdge (.text e.id)).Gives k w k := by
  constructor
  · intro draft after count w' count' h
    cases hafter : after.isNull with
    | true =>
      obtain rfl : after = .null := by cases after <;> simp_all [Value.isNull]
      obtain ⟨n, hn, hnew, rfl⟩ := gives_addNode_last.1 h
      have hmem : n ∈ w.nodes ++ [n] := by simp
      have hnodes : (w.nodes ++ [n]).filter (fun m => m.id ≠ n.id) = w.nodes := by
        simpa using filter_of_new hnew
      refine ⟨n, count', hn, hmem, ?_⟩
      have htouching : ∀ e ∈ ([] : List Edge), e.source = n.id ∨ e.target = n.id := List.forall_mem_nil _
      simpa using removeNode_added hends hnew hmem hnodes htouching
    | false =>
      obtain ⟨n, k, anchor, hn, hnew, hanchor, -, rfl⟩ := (gives_addNode_behind hafter).1 h
      have hmem : n ∈ insertAfter anchor.id n w.nodes :=
        (perm_insertAfter (mem_of_nodeAt? hanchor).1).mem_iff.2 List.mem_cons_self
      refine ⟨n, k, hn, hmem, ?_⟩
      exact removeNode_added hends hnew hmem (filter_insertAfter anchor.id hnew) (by simp)
  · intro draft count w' count' h
    obtain ⟨e, he, -, -, hnew, rfl⟩ := gives_addEdge.1 h
    have hmem : e ∈ w.edges ++ [e] := by simp
    have hold : w.edges.filter (fun f => f.id ≠ e.id) = w.edges := filter_of_new hnew
    refine ⟨e, he, hmem, fun k => ?_⟩
    refine (gives_removeEdge_of_mem hmem).2 ⟨?_, rfl⟩
    simp only [List.filter_append, hold]
    simp

end

def nameless : Value :=
  .object [("type", .text "action"), ("provider", .text "p"), ("operation", .text "o")]

/-- An action that is put between a trigger and an action is taken out again, and so is a connection back. -/
theorem removals_undo_additions_relay :
    (∀ e ∈ relay.edges, e.source ∈ relay.nodeIds ∧ e.target ∈ relay.nodeIds) ∧
      (∃ w', (relay.addNode (.raw nameless) (.text "a")).Gives 0 w' 2 ∧
        w'.nodeIds = ["a", stampedId "node" 1, "b"] ∧ w'.edgeIds = ["there", stampedId "edge" 2] ∧
        w'.removeNode (.text (stampedId "node" 1)) = relay) ∧
      ∃ w', (relay.addEdge (.made { id := "back", source := "b", target := "a" })).Gives 2 w' 2 ∧
        w'.edgeIds = ["there", "back"] ∧ (w'.removeEdge (.text "back")).Gives 2 relay 2 := by
  have hends : ∀ e ∈ relay.edges, e.source ∈ relay.nodeIds ∧ e.target ∈ relay.nodeIds := by decide
  obtain ⟨hnode, hedge⟩ := removals_undo_additions relay hends
  let n : Node := { id := stampedId "node" 1, type := .action, provider := "p", operation := "o" }
  have hread : (nodeOf .addNode (.raw nameless)).Gives 0 n 1 := rfl
  have hput : (relay.addNode (.raw nameless) (.text "a")).Gives 0 { relay with
      nodes := insertAfter "a" n relay.nodes
      edges := relay.edges ++ [{ id := stampedId "edge" 2, source := "a", target := n.id }] } 2 := rfl
  have hconnected : (relay.addEdge (.made { id := "back", source := "b", target := "a" })).Gives 2
      { relay with edges := relay.edges ++ [{ id := "back", source := "b", target := "a" }] } 2 := rfl
  refine ⟨hends, ⟨_, hput, rfl, rfl, ?_⟩, _, hconnected, rfl, ?_⟩
  · obtain ⟨m, k, hm, -, hremoved⟩ := hnode _ _ _ _ _ hput
    obtain ⟨rfl, -⟩ : n = m ∧ 1 = k := by simpa using hread.symm.trans hm
    exact hremoved
  · obtain ⟨e, he, -, hremoved⟩ := hedge _ _ _ _ hconnected
    obtain ⟨rfl, -⟩ := gives_pure.1 he
    exact hremoved 2

end Workflow

end Flowgraph
