import Flowgraph.Proofs.Graph
import Flowgraph.Proofs.Run.Work

/-! The front of a run: the nodes that have been started and not yet resolved, and those that can be
decided. Handling finished tasks moves the front in beats: a node is accepted, skipped or resolved.
The beats keep the counters of unresolved sources exact, so that the nodes which have been decided or
can be are always those whose sources are all resolved. -/

namespace Flowgraph

theorem Table.getD_set {α : Type} (t : Table α) (key x : String) (value fallback : α) :
    Table.getD (Table.set t key value) x fallback = if x = key then value else Table.getD t x fallback := by
  unfold Table.getD
  rw [Table.get?_set]
  split_ifs <;> rfl

def NodeStatus.Ended (s : NodeStatus) : Prop :=
  s = .success ∨ s = .failed ∨ s = .skipped

namespace Run

/-! Resolving a node -/

theorem resolveTargets_spec (targets : List String) (h : targets.Nodup) (r : Run) :
    ∃ u, (r.resolveTargets targets).1 = { r with unresolved := u } ∧
      (∀ x, Table.getD u x 0 =
        if x ∈ targets then Table.getD r.unresolved x 0 - 1 else Table.getD r.unresolved x 0) ∧
      (r.resolveTargets targets).2 = targets.filter fun t => Table.getD r.unresolved t 0 = 1 := by
  induction targets generalizing r with
  | nil => exact ⟨r.unresolved, rfl, fun x => by simp, rfl⟩
  | cons t rest ih =>
    obtain ⟨hnot, hrest⟩ := List.nodup_cons.1 h
    obtain ⟨u, hu, hval, hfreed⟩ := ih hrest (r.resolveOne t).1
    have hone : (r.resolveOne t).1.unresolved =
        Table.set r.unresolved t (Table.getD r.unresolved t 0 - 1) := rfl
    refine ⟨u, ?_, fun x => ?_, ?_⟩
    · unfold resolveTargets
      exact hu
    · rw [hval, hone, Table.getD_set]
      by_cases hx : x = t
      · subst hx
        simp [hnot]
      · simp [hx]
    · unfold resolveTargets
      dsimp only
      rw [hfreed, List.filter_cons]
      have hkeep : (rest.filter fun x => Table.getD (r.resolveOne t).1.unresolved x 0 = 1) =
          rest.filter fun x => Table.getD r.unresolved x 0 = 1 := by
        apply List.filter_congr
        intro x hx
        have hne : x ≠ t := fun he => hnot (he ▸ hx)
        rw [hone, Table.getD_set, if_neg hne]
      rw [hkeep]
      rfl

def skippedEntry (id : String) : NodeLog :=
  { nodeId := id, status := .skipped }

theorem skip_eq (r : Run) (id : String) : r.skip id = r.addEntry (skippedEntry id) := rfl

end Run

namespace Run

def outcome (failed : Bool) : NodeStatus :=
  if failed then .failed else .success

def contained (r : Run) (id : String) : Bool :=
  match r.graph.node? id with
  | some n => Policy.contains r.workflow r.graph n
  | none => true

end Run

/-- A run in the middle of handling: the finished tasks that are still to be handled, and the nodes
that can be decided. -/
structure Front where
  run : Run
  todo : List Task
  waiting : List String

namespace Front

def opened (f : Front) : List String :=
  f.run.taskIds ++ f.todo.map fun t => t.node.id

/-- A node is resolved once it has ended and its targets know. One whose task was cancelled never is. -/
def isResolved (f : Front) (id : String) : Bool :=
  f.run.entryIds.contains id && !f.opened.contains id && !f.run.lost.contains id

def missing (f : Front) (id : String) : List String :=
  (f.run.graph.sources id).filter fun s => !f.isResolved s

/-- What handling does, one node at a time. -/
inductive Beat (time : Moment) : Front → Front → Prop
  | accept {r : Run} {todo : List Task} {rest : List String} {id : String} (h : r.decide id = .ok true) :
    Beat time ⟨r, todo, id :: rest⟩ ⟨{ r with ready := r.ready ++ [id] }, todo, rest⟩
  | skip {r : Run} {todo : List Task} {rest : List String} {id : String} (h : r.decide id = .ok false) :
    Beat time ⟨r, todo, id :: rest⟩
      ⟨((r.skip id).resolveOutgoing id .skipped).1, todo,
        r.graph.sortByPosition (rest ++ ((r.skip id).resolveOutgoing id .skipped).2)⟩
  | resolve {r : Run} {todo : List Task} {t : Task} {failed : Bool} (hp : t.phase = .finished failed)
    (h : failed = true → r.contained t.node.id = true) :
    Beat time ⟨r, t :: todo, []⟩
      ⟨(r.resolveOutgoing t.node.id (Run.outcome failed)).1, todo,
        r.graph.sortByPosition (r.resolveOutgoing t.node.id (Run.outcome failed)).2⟩
  | lose {r : Run} {todo : List Task} {t : Task} (hp : t.phase = .unwound) :
    Beat time ⟨r, t :: todo, []⟩ ⟨r.markInterrupted time t.node.id, todo, []⟩

/-- The counters are exact, and the nodes that are decided or can be are those whose sources are
all resolved. -/
structure Live (f : Front) : Prop where
  opened : ∀ id ∈ f.opened, id ∈ f.run.entryIds
  opened_nodup : f.opened.Nodup
  todo : ∀ t ∈ f.todo, t.phase.isOver = true ∧ ∃ e, f.run.entry? t.node.id = some e ∧ e.status = t.phase.status
  lost : ∀ id ∈ f.run.lost, id ∈ f.run.entryIds ∧ id ∉ f.opened
  ended : ∀ e ∈ f.run.log.nodeLogs, e.status.Ended ∨ e.nodeId ∈ f.opened
  nodup : (f.waiting ++ f.run.ready).Nodup
  fresh : ∀ id ∈ f.waiting ++ f.run.ready, id ∈ f.run.graph.nodeIds ∧ id ∉ f.run.entryIds
  counts : ∀ id, Table.getD f.run.unresolved id 0 = (f.missing id).length
  free : ∀ id ∈ f.run.graph.nodeIds,
    f.missing id = [] ↔ id ∈ f.run.entryIds ∨ id ∈ f.waiting ++ f.run.ready

section
variable {f f' : Front} {id x : String}

theorem isResolved_iff : f.isResolved id = true ↔ id ∈ f.run.entryIds ∧ id ∉ f.opened ∧ id ∉ f.run.lost := by
  simp [isResolved, and_assoc]

theorem missing_eq_nil : f.missing id = [] ↔ ∀ s ∈ f.run.graph.sources id, f.isResolved s = true := by
  simp [missing, List.filter_eq_nil_iff]

theorem mem_missing : x ∈ f.missing id ↔ f.run.graph.Leads x id ∧ f.isResolved x = false := by
  simp [missing, List.mem_filter, Graph.mem_sources]

theorem nodup_missing (f : Front) (id : String) : (f.missing id).Nodup :=
  (f.run.graph.nodup_sources id).filter _

/-- One more node is resolved: its targets miss one source less. -/
theorem length_missing_of_resolved (hg : f'.run.graph = f.run.graph) (hid : f.isResolved id = false)
    (hres : ∀ s, f'.isResolved s = (f.isResolved s || s == id)) (x : String) :
    (f'.missing x).length =
      if x ∈ f.run.graph.targets id then (f.missing x).length - 1 else (f.missing x).length := by
  have hmissing : f'.missing x = (f.missing x).erase id := by
    rw [(f.nodup_missing x).erase_eq_filter, missing, missing, List.filter_filter, hg]
    apply List.filter_congr
    intro s _
    rw [hres]
    by_cases hs : s = id <;> simp [hs, bne, Bool.and_comm]
  rw [hmissing]
  split_ifs with ht
  · exact List.length_erase_of_mem (mem_missing.2 ⟨Graph.mem_targets.1 ht, hid⟩)
  · rw [List.erase_of_not_mem]
    exact fun hm => ht (Graph.mem_targets.2 (mem_missing.1 hm).1)

/-- Resolving one node keeps the front live: what becomes free is what missed only that node. -/
theorem Live.settle (hg : f.run.graph.WellFormed) (hl : f.Live) (rest : List String) {freed : List String}
    (hgraph : f'.run.graph = f.run.graph) (hready : f'.run.ready = f.run.ready)
    (hid : f.isResolved id = false) (hres : ∀ s, f'.isResolved s = (f.isResolved s || s == id))
    (hunresolved : ∀ x, Table.getD f'.run.unresolved x 0 =
      if x ∈ f.run.graph.targets id then Table.getD f.run.unresolved x 0 - 1
      else Table.getD f.run.unresolved x 0)
    (hfreed : freed = (f.run.graph.targets id).filter fun t => Table.getD f.run.unresolved t 0 = 1)
    (hwaiting : f'.waiting.Perm (rest ++ freed))
    (hopened : ∀ x ∈ f'.opened, x ∈ f'.run.entryIds) (hopened_nodup : f'.opened.Nodup)
    (htodo : ∀ t ∈ f'.todo, t.phase.isOver = true ∧ ∃ e, f'.run.entry? t.node.id = some e ∧
      e.status = t.phase.status)
    (hlost : ∀ x ∈ f'.run.lost, x ∈ f'.run.entryIds ∧ x ∉ f'.opened)
    (hended : ∀ e ∈ f'.run.log.nodeLogs, e.status.Ended ∨ e.nodeId ∈ f'.opened)
    (hnodup : (rest ++ f.run.ready).Nodup)
    (hfresh : ∀ x ∈ rest ++ f.run.ready, x ∈ f.run.graph.nodeIds ∧ x ∉ f'.run.entryIds)
    (hdecided : ∀ x, (x ∈ f'.run.entryIds ∨ x ∈ rest ++ f.run.ready) ↔
      (x ∈ f.run.entryIds ∨ x ∈ f.waiting ++ f.run.ready)) : f'.Live := by
  have hlen := length_missing_of_resolved hgraph hid hres
  have hmiss : ∀ x ∈ f.run.graph.targets id, f.missing x ≠ [] := fun x hx =>
    List.ne_nil_of_mem (mem_missing.2 ⟨Graph.mem_targets.1 hx, hid⟩)
  have htarget : ∀ x ∈ f.run.graph.targets id, x ∈ f.run.graph.nodeIds := fun x hx =>
    (hg.leads_mem (Graph.mem_targets.1 hx)).2
  have hmem : ∀ x, x ∈ freed ↔ x ∈ f.run.graph.targets id ∧ f'.missing x = [] := fun x => by
    rw [hfreed, List.mem_filter, decide_eq_true_eq, hl.counts, ← List.length_eq_zero_iff, hlen]
    refine and_congr_right fun hx => ?_
    have := List.length_pos_iff.2 (hmiss x hx)
    rw [if_pos hx]
    omega
  have hnew : ∀ x ∈ freed, ¬ (x ∈ f'.run.entryIds ∨ x ∈ rest ++ f.run.ready) := fun x hx hd => by
    have ht := ((hmem x).1 hx).1
    exact hmiss x ht ((hl.free x (htarget x ht)).2 ((hdecided x).1 hd))
  have hmemw : ∀ x, x ∈ f'.waiting ++ f'.run.ready ↔ x ∈ freed ∨ x ∈ rest ++ f.run.ready := fun x => by
    rw [hready, List.mem_append, hwaiting.mem_iff, List.mem_append, List.mem_append]
    tauto
  refine ⟨hopened, hopened_nodup, htodo, hlost, hended, ?_, fun x hx => ?_, fun x => ?_, fun x hx => ?_⟩
  · have hfn : freed.Nodup := by
      rw [hfreed]
      exact (f.run.graph.nodup_targets id).filter _
    have hperm : (f'.waiting ++ f'.run.ready).Perm (freed ++ (rest ++ f.run.ready)) := by
      rw [hready, ← List.append_assoc]
      exact (hwaiting.trans List.perm_append_comm).append_right _
    rw [hperm.nodup_iff]
    exact List.Nodup.append hfn hnodup fun x hx hd => hnew x hx (Or.inr hd)
  · rw [hgraph]
    rcases (hmemw x).1 hx with hx | hx
    · exact ⟨htarget x ((hmem x).1 hx).1, fun he => hnew x hx (Or.inl he)⟩
    · exact hfresh x hx
  · rw [hunresolved, hlen, hl.counts]
  · rw [hgraph] at hx
    rw [hmemw]
    by_cases ht : x ∈ f.run.graph.targets id
    · constructor
      · intro hm
        exact Or.inr (Or.inl ((hmem x).2 ⟨ht, hm⟩))
      · rintro (hd | hd | hd)
        · exact absurd ((hl.free x hx).2 ((hdecided x).1 (Or.inl hd))) (hmiss x ht)
        · exact ((hmem x).1 hd).2
        · exact absurd ((hl.free x hx).2 ((hdecided x).1 (Or.inr hd))) (hmiss x ht)
    · have hsame : f'.missing x = [] ↔ f.missing x = [] := by
        rw [← List.length_eq_zero_iff, ← List.length_eq_zero_iff, hlen, if_neg ht]
      have hnot : x ∉ freed := fun hf => ht ((hmem x).1 hf).1
      rw [hsame, hl.free x hx, ← hdecided]
      tauto

end

end Front

end Flowgraph
