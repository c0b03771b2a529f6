import Flowgraph.Edit
import Flowgraph.Proofs.Numbering
import Flowgraph.Proofs.Validation.Reading

/-! What an edit does to a workflow, when it is not refused. The parts that it brings have been read, so
that nothing in them is blank; they are put in under ids that are not taken, and where they refer to
other parts, those are there. -/

namespace Flowgraph

open Numbered Flowgraph.Numbering

namespace Workflow

/-- The result of an edit of some kind. The ids of connections that it generates have a number above the
count. -/
inductive Edited (w : Workflow) (count : Nat) : EditAction → Workflow → Prop where
  | replaced {n current : Node} (hcurrent : current ∈ w.nodes) (hfilled : n.Filled) :
      Edited w count .editNode
        { w with nodes := w.nodes.map fun m => if m.id = current.id then { n with id := current.id } else m }
  | appended {n : Node} (hnew : n.id ∉ w.nodeIds) (hfilled : n.Filled) :
      Edited w count .addNode { w with nodes := w.nodes ++ [n] }
  | inserted {n anchor : Node} {k : Nat} (hnew : n.id ∉ w.nodeIds) (hfilled : n.Filled) (hanchor : anchor ∈ w.nodes)
      (hk : count < k) :
      Edited w count .addNode
        { w with
          nodes := insertAfter anchor.id n w.nodes
          edges := w.edges ++ [{ id := stampedId "edge" k, source := anchor.id, target := n.id }] }
  | removed (id : Value) : Edited w count .removeNode (w.removeNode id)
  | reordered (ids : List String) : Edited w count .reorderNodes (w.withFirst ids)
  | connected {e : Edge} (hfilled : e.Filled) (hsource : e.source ∈ w.nodeIds) (htarget : e.target ∈ w.nodeIds)
      (hnew : e.id ∉ w.edgeIds) : Edited w count .addEdge { w with edges := w.edges ++ [e] }
  | disconnected (id : String) :
      Edited w count .removeEdge { w with edges := w.edges.filter fun f => f.id ≠ id }
  | moved (id : String) (p : Position) :
      Edited w count .updateNodePosition
        { w with nodes := modifyFirst id (fun n => { n with position := some p }) w.nodes }

end Workflow

/-! Parts that have been read -/

namespace Edit

section
variable {count count' : Nat}

@[simp] theorem not_gives_refuse {α : Type} {action : EditAction} {message : String} {a : α} :
    ¬ (refuse action message : Numbered α).Gives count a count' := by
  simp [refuse, Mishap.raise]

theorem gives_unless_refused {α : Type} {p : Prop} [Decidable p] {action : EditAction} {message : String}
    {x : Numbered α} {a : α} :
    (if p then refuse action message else x).Gives count a count' ↔ ¬ p ∧ x.Gives count a count' := by
  split_ifs with hp <;> simp [hp]

theorem gives_ofFailure {α : Type} {r : Except Failure α} {a : α} :
    (ofFailure r).Gives count a count' ↔ r = .ok a ∧ count = count' := by
  cases r <;> simp [ofFailure, Mishap.ofFailure]

theorem gives_accept {α : Type} {action : EditAction} {head : String} {r : Reading α} {a : α} :
    (accept action head r).Gives count a count' ↔ r = .accepted a ∧ count = count' := by
  cases r <;> simp [accept]

/-- A number is taken only when there is no id. -/
theorem withId_count {kind : String} {fs gs : Fields} (h : (withId kind fs).Gives count gs count') :
    count ≤ count' := by
  unfold withId at h
  split_ifs at h
  · rw [gives_pure] at h
    exact h.2.le
  · simp only [gives_bind, gives_stamped, gives_pure] at h
    obtain ⟨_, k, ⟨-, hk⟩, -, rfl⟩ := h
    omega

theorem nodeOf_raw {action : EditAction} {v : Value} {n : Node} (h : (nodeOf action (.raw v)).Gives count n count') :
    n.Filled ∧ count ≤ count' := by
  simp only [nodeOf, gives_bind, gives_ofFailure, gives_accept] at h
  obtain ⟨_, k, ⟨-, rfl⟩, fs, _, hid, hread, rfl⟩ := h
  exact ⟨(Node.readFrom hread).filled, withId_count hid⟩

theorem edgeOf_raw {action : EditAction} {v : Value} {e : Edge} (h : (edgeOf action (.raw v)).Gives count e count') :
    e.Filled := by
  simp only [edgeOf, gives_bind, gives_ofFailure, gives_accept] at h
  obtain ⟨_, k, ⟨-, rfl⟩, fs, _, hid, hread, rfl⟩ := h
  exact (Edge.readFrom hread).filled

end

end Edit

/-! Kinds of edits -/

namespace Workflow

open Edit

variable {w w' : Workflow} {count count' : Nat}

theorem mem_nodeIds_of_node? {id : String} {n : Node} (h : w.node? id = some n) : n ∈ w.nodes ∧ n.id = id := by
  refine ⟨List.mem_of_find?_eq_some h, ?_⟩
  simpa using List.find?_some h

theorem node?_isSome {id : String} : (w.node? id).isSome = true ↔ id ∈ w.nodeIds := by
  simp [node?, nodeIds, List.find?_isSome]

theorem edge?_isSome {id : String} : (w.edge? id).isSome = true ↔ id ∈ w.edgeIds := by
  simp [edge?, edgeIds, List.find?_isSome]

theorem gives_nodeAt {v : Value} {action : EditAction} {n : Node} :
    (w.nodeAt v action).Gives count n count' ↔ w.nodeAt? v = some n ∧ count = count' := by
  unfold nodeAt
  cases w.nodeAt? v <;> simp

theorem mem_of_nodeAt? {v : Value} {n : Node} (h : w.nodeAt? v = some n) : n ∈ w.nodes ∧ v = .text n.id := by
  obtain ⟨id, hid, hn⟩ := Option.bind_eq_some_iff.1 h
  obtain ⟨hmem, rfl⟩ := mem_nodeIds_of_node? hn
  cases v with
  | text s =>
    obtain rfl : s = n.id := Option.some.inj hid
    exact ⟨hmem, rfl⟩
  | _ => cases hid

theorem edited_addNode {v after : Value} (h : (w.addNode (.raw v) after).Gives count w' count') :
    w.Edited count .addNode w' := by
  unfold addNode at h
  obtain ⟨n, k, hn, h⟩ := gives_bind.1 h
  obtain ⟨hfilled, hk⟩ := nodeOf_raw hn
  split_ifs at h with htaken hafter
  · exact absurd h not_gives_refuse
  · obtain ⟨rfl, -⟩ := gives_pure.1 h
    exact .appended (fun hmem => htaken (node?_isSome.2 hmem)) hfilled
  · obtain ⟨anchor, _, hanchor, h⟩ := gives_bind.1 h
    obtain ⟨hat, rfl⟩ := gives_nodeAt.1 hanchor
    simp only [gives_bind, gives_stamped, gives_pure] at h
    obtain ⟨_, _, ⟨rfl, -⟩, rfl, -⟩ := h
    exact .inserted (fun hmem => htaken (node?_isSome.2 hmem)) hfilled (mem_of_nodeAt? hat).1 (by omega)

theorem edited_replaceNode {id v : Value} (h : (w.replaceNode id (.raw v)).Gives count w' count') :
    w.Edited count .editNode w' := by
  unfold replaceNode at h
  obtain ⟨current, _, hcurrent, h⟩ := gives_bind.1 h
  obtain ⟨hat, rfl⟩ := gives_nodeAt.1 hcurrent
  obtain ⟨n, k, hn, h⟩ := gives_bind.1 h
  obtain ⟨rfl, -⟩ := gives_pure.1 h
  have hfilled : n.Filled := by
    cases v <;> exact (nodeOf_raw hn).1
  exact .replaced (mem_of_nodeAt? hat).1 hfilled

theorem edited_updateNode {id updates : Value} (h : (w.updateNode id updates).Gives count w' count') :
    w.Edited count .editNode w' := by
  unfold updateNode at h
  obtain ⟨current, _, hcurrent, h⟩ := gives_bind.1 h
  obtain ⟨-, rfl⟩ := gives_nodeAt.1 hcurrent
  cases updates with
  | object fs =>
    simp only at h
    split_ifs at h
    · exact edited_replaceNode h
    · exact absurd h not_gives_refuse
  | _ =>
    obtain ⟨hno, -⟩ := gives_ofFailure.1 h
    cases hno

theorem edited_reorderNodes {order : Value} (h : (w.reorderNodes order).Gives count w' count') :
    w.Edited count .reorderNodes w' := by
  unfold reorderNodes at h
  obtain ⟨vs, _, -, h⟩ := gives_bind.1 h
  simp only at h
  split_ifs at h
  · obtain ⟨rfl, -⟩ := gives_pure.1 h
    exact .reordered _
  · obtain ⟨_, _, -, h⟩ := gives_bind.1 h
    exact absurd h not_gives_refuse

theorem edited_addEdge {v : Value} (h : (w.addEdge (.raw v)).Gives count w' count') : w.Edited count .addEdge w' := by
  unfold addEdge at h
  obtain ⟨e, _, he, h⟩ := gives_bind.1 h
  obtain ⟨source, _, hsource, h⟩ := gives_bind.1 h
  obtain ⟨target, _, htarget, h⟩ := gives_bind.1 h
  have hends : ∀ {id : String} {n : Node}, w.nodeAt? (.text id) = some n → id ∈ w.nodeIds := fun hat =>
    node?_isSome.1 (Option.isSome_of_mem hat)
  split_ifs at h with htaken
  · exact absurd h not_gives_refuse
  · obtain ⟨rfl, -⟩ := gives_pure.1 h
    exact .connected (edgeOf_raw he) (hends (gives_nodeAt.1 hsource).1) (hends (gives_nodeAt.1 htarget).1)
      fun hmem => htaken (edge?_isSome.2 hmem)

theorem edited_removeEdge {id : Value} (h : (w.removeEdge id).Gives count w' count') :
    w.Edited count .removeEdge w' := by
  unfold removeEdge at h
  split at h
  · exact absurd h not_gives_refuse
  · obtain ⟨rfl, -⟩ := gives_pure.1 h
    exact .disconnected _

theorem edited_moveNode {id v : Value} (h : (w.moveNode id (.raw v)).Gives count w' count') :
    w.Edited count .updateNodePosition w' := by
  unfold moveNode at h
  simp only [gives_bind, gives_nodeAt, gives_pure] at h
  obtain ⟨_, _, -, _, _, -, rfl, -⟩ := h
  exact .moved _ _

/-! Operations -/

theorem gives_needed {data : Fields} {key : String} {action : EditAction} {v : Value}
    (h : (needed data key action).Gives count v count') : count = count' := by
  unfold needed at h
  split at h
  · exact absurd h not_gives_refuse
  · exact (gives_pure.1 h).2

/-- What an operation that is not refused does is what its action says. -/
theorem edited_of_apply {o : EditOperation} (h : (w.apply o).Gives count w' count') : w.Edited count o.action w' := by
  unfold apply at h
  cases haction : o.action with
  | editNode =>
    simp only [haction] at h
    obtain ⟨id, _, hid, h⟩ := gives_bind.1 h
    obtain rfl := gives_needed hid
    split_ifs at h
    · obtain ⟨updates, _, hupdates, h⟩ := gives_bind.1 h
      obtain rfl := gives_needed hupdates
      exact edited_updateNode h
    · exact edited_replaceNode h
  | addNode =>
    simp only [haction] at h
    obtain ⟨v, _, hv, h⟩ := gives_bind.1 h
    obtain rfl := gives_needed hv
    exact edited_addNode h
  | removeNode =>
    simp only [haction, gives_bind, gives_pure] at h
    obtain ⟨v, _, -, rfl, -⟩ := h
    exact .removed v
  | reorderNodes =>
    simp only [haction] at h
    obtain ⟨v, _, hv, h⟩ := gives_bind.1 h
    obtain rfl := gives_needed hv
    exact edited_reorderNodes h
  | addEdge =>
    simp only [haction] at h
    exact edited_addEdge h
  | removeEdge =>
    simp only [haction] at h
    obtain ⟨v, _, hv, h⟩ := gives_bind.1 h
    obtain rfl := gives_needed hv
    exact edited_removeEdge h
  | updateNodePosition =>
    simp only [haction] at h
    obtain ⟨id, _, hid, h⟩ := gives_bind.1 h
    obtain ⟨v, _, hv, h⟩ := gives_bind.1 h
    obtain rfl := gives_needed hid
    obtain rfl := gives_needed hv
    exact edited_moveNode h

end Workflow

end Flowgraph
