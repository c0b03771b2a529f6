import Flowgraph.Run
import Mathlib.Tactic

/-! The entries and the tasks of a run, looked up by the id of their node, and what the elementary
changes of a run do to them. -/

namespace Flowgraph

section
variable {α : Type} (key : α → String) (f : α → α)

/-- Changing the items with one key in a list, their keys apart, shows under that key only. -/
theorem find?_map_ite (hf : ∀ a, key (f a) = key a) (l : List α) (id x : String) :
    (l.map fun a => if key a = id then f a else a).find? (fun a => decide (key a = x)) =
      if x = id then (l.find? fun a => decide (key a = x)).map f else l.find? fun a => decide (key a = x) := by
  have hkey : ∀ a, key (if key a = id then f a else a) = key a := fun a => by
    split_ifs
    · exact hf a
    · rfl
  simp only [List.find?_map, Function.comp_def, hkey]
  cases h : l.find? fun a => decide (key a = x) with
  | none => simp
  | some a =>
    have hx : key a = x := by simpa using List.find?_some h
    simp only [Option.map_some, hx]
    split_ifs <;> rfl

theorem map_key_map_ite (hf : ∀ a, key (f a) = key a) (l : List α) (id : String) :
    (l.map fun a => if key a = id then f a else a).map key = l.map key := by
  rw [List.map_map]
  apply List.map_congr_left
  intro a _
  simp only [Function.comp_apply]
  split_ifs
  · exact hf a
  · rfl

end

namespace Run

def entryIds (r : Run) : List String :=
  r.log.nodeLogs.map NodeLog.nodeId

def taskIds (r : Run) : List String :=
  r.tasks.map fun t => t.node.id

section
variable {r : Run} {id x : String} {e : NodeLog} {t : Task}

theorem entry?_id (h : r.entry? id = some e) : e.nodeId = id := by
  simpa using List.find?_some h

theorem entry?_mem (h : r.entry? id = some e) : e ∈ r.log.nodeLogs :=
  List.mem_of_find?_eq_some h

theorem entry?_eq_none : r.entry? id = none ↔ id ∉ r.entryIds := by
  simp only [Run.entry?, ExecutionLog.nodeLog?, List.find?_eq_none, decide_eq_true_eq, entryIds, List.mem_map,
    not_exists, not_and]

theorem mem_entryIds : id ∈ r.entryIds ↔ ∃ e, r.entry? id = some e := by
  rw [← Option.isSome_iff_exists, ← not_iff_not, ← entry?_eq_none, Option.not_isSome_iff_eq_none]

theorem entry?_of_mem (h : r.entryIds.Nodup) (he : e ∈ r.log.nodeLogs) : r.entry? e.nodeId = some e := by
  obtain ⟨e', he'⟩ := mem_entryIds.1 (List.mem_map_of_mem (f := NodeLog.nodeId) he)
  rw [he', List.inj_on_of_nodup_map h (entry?_mem he') he (entry?_id he')]

theorem task?_id (h : r.task? id = some t) : t.node.id = id := by
  simpa using List.find?_some h

theorem task?_mem (h : r.task? id = some t) : t ∈ r.tasks :=
  List.mem_of_find?_eq_some h

theorem task?_eq_none : r.task? id = none ↔ id ∉ r.taskIds := by
  simp only [task?, List.find?_eq_none, decide_eq_true_eq, taskIds, List.mem_map, not_exists, not_and]

theorem mem_taskIds : id ∈ r.taskIds ↔ ∃ t, r.task? id = some t := by
  rw [← Option.isSome_iff_exists, ← not_iff_not, ← task?_eq_none, Option.not_isSome_iff_eq_none]

theorem task?_of_mem (h : r.taskIds.Nodup) (ht : t ∈ r.tasks) : r.task? t.node.id = some t := by
  obtain ⟨t', ht'⟩ := mem_taskIds.1 (List.mem_map_of_mem (f := fun t : Task => t.node.id) ht)
  rw [ht', List.inj_on_of_nodup_map h (task?_mem ht') ht (task?_id ht')]

/-! Elementary changes -/

@[simp] theorem entryIds_addEntry : (r.addEntry e).entryIds = r.entryIds ++ [e.nodeId] := by
  simp [entryIds, addEntry]

theorem entry?_addEntry :
    Run.entry? (r.addEntry e) id = (r.entry? id).or (if e.nodeId = id then some e else none) := by
  simp only [Run.entry?, ExecutionLog.nodeLog?, addEntry, List.find?_append, List.find?_singleton,
    decide_eq_true_eq]

def KeepsId (f : NodeLog → NodeLog) : Prop :=
  ∀ e, (f e).nodeId = e.nodeId

end

end Run

end Flowgraph
