import Flowgraph.Proofs.Run.Front

/-! What holds of a run at every moment: each node has at most one entry, entries stand behind those
of their sources, and the entry of a task shows its phase. -/

namespace Flowgraph

namespace Run

structure Sound (r : Run) : Prop where
  graph : r.graph = Graph.ofWorkflow r.workflow
  entries_nodup : r.entryIds.Nodup
  entries_mem : ∀ id ∈ r.entryIds, id ∈ r.graph.nodeIds
  entries_closed : ∀ id ∈ r.entryIds, ∀ s ∈ r.graph.sources id, s ∈ r.entryIds
  ordered : r.entryIds.Pairwise fun a b => b ∉ r.graph.sources a
  tasks_nodup : r.taskIds.Nodup
  task_node : ∀ t ∈ r.tasks, r.graph.node? t.node.id = some t.node
  task_entry : ∀ t ∈ r.tasks, ∃ e, r.entry? t.node.id = some e ∧ e.status = t.phase.status

section
variable {r r' : Run} {id : String}

theorem Sound.wellFormed (h : r.Sound) : r.graph.WellFormed := by
  rw [h.graph]
  exact Graph.ofWorkflow_wellFormed _

theorem Sound.task_mem (h : r.Sound) (hid : id ∈ r.taskIds) : id ∈ r.entryIds := by
  obtain ⟨t, ht⟩ := mem_taskIds.1 hid
  obtain ⟨e, he, -⟩ := h.task_entry t (task?_mem ht)
  rw [task?_id ht] at he
  exact mem_entryIds.2 ⟨e, he⟩

/-- Only the entries and the tasks count, and the graph that they are about. -/
theorem Sound.congr (h : r.Sound) (hw : r'.workflow = r.workflow) (hg : r'.graph = r.graph)
    (hl : r'.log.nodeLogs = r.log.nodeLogs) (ht : r'.tasks = r.tasks) : r'.Sound := by
  have hids : r'.entryIds = r.entryIds := by rw [entryIds, hl, entryIds]
  have htids : r'.taskIds = r.taskIds := by rw [taskIds, ht, taskIds]
  have hentry : ∀ x, r'.entry? x = r.entry? x := fun x => by
    rw [Run.entry?, ExecutionLog.nodeLog?, hl, Run.entry?, ExecutionLog.nodeLog?]
  constructor
  case graph =>
    rw [hg, hw]
    exact h.graph
  case entries_nodup =>
    rw [hids]
    exact h.entries_nodup
  case entries_mem =>
    rw [hids, hg]
    exact h.entries_mem
  case entries_closed =>
    rw [hids, hg]
    exact h.entries_closed
  case ordered =>
    rw [hids, hg]
    exact h.ordered
  case tasks_nodup =>
    rw [htids]
    exact h.tasks_nodup
  case task_node =>
    rw [ht, hg]
    exact h.task_node
  case task_entry =>
    rw [ht]
    simpa only [hentry] using h.task_entry

/-- A node is entered once all its sources are, either as one that has ended or with its task. -/
theorem Sound.enter (h : r.Sound) (e : NodeLog) (started : List Task) (hw : r'.workflow = r.workflow)
    (hg : r'.graph = r.graph) (hl : r'.log.nodeLogs = r.log.nodeLogs ++ [e])
    (ht : r'.tasks = r.tasks ++ started)
    (hmem : e.nodeId ∈ r.graph.nodeIds) (hnew : e.nodeId ∉ r.entryIds)
    (hs : ∀ s ∈ r.graph.sources e.nodeId, s ∈ r.entryIds)
    (htask : started = [] ∨ ∃ t, started = [t] ∧
      r.graph.node? e.nodeId = some t.node ∧ e.status = t.phase.status) : r'.Sound := by
  have hids : r'.entryIds = r.entryIds ++ [e.nodeId] := by rw [entryIds, hl, List.map_append]; rfl
  have hentry : ∀ x, r'.entry? x = (r.entry? x).or (if e.nodeId = x then some e else none) := fun x => by
    rw [← entry?_addEntry]
    simp only [Run.entry?, ExecutionLog.nodeLog?, hl, addEntry]
  have htids : r'.taskIds = r.taskIds ++ started.map fun t => t.node.id := by
    rw [taskIds, ht, List.map_append, taskIds]
  constructor
  case graph =>
    rw [hg, hw]
    exact h.graph
  case entries_nodup =>
    rw [hids]
    exact List.Nodup.append h.entries_nodup (List.nodup_singleton _) (by simpa using hnew)
  case entries_mem =>
    rw [hids, hg]
    intro id hid
    rcases List.mem_append.1 hid with hid | hid
    · exact h.entries_mem id hid
    · rw [List.mem_singleton.1 hid]
      exact hmem
  case entries_closed =>
    rw [hids, hg]
    intro id hid s hsrc
    rcases List.mem_append.1 hid with hid | hid
    · exact List.mem_append_left _ (h.entries_closed id hid s hsrc)
    · rw [List.mem_singleton.1 hid] at hsrc
      exact List.mem_append_left _ (hs s hsrc)
  case ordered =>
    rw [hids, hg, List.pairwise_append]
    refine ⟨h.ordered, List.pairwise_singleton _ _, fun a ha b hb => ?_⟩
    rw [List.mem_singleton.1 hb]
    exact fun hsrc => hnew (h.entries_closed a ha _ hsrc)
  case tasks_nodup =>
    rw [htids]
    refine List.Nodup.append h.tasks_nodup ?_ ?_
    · rcases htask with rfl | ⟨t, rfl, -⟩ <;> simp
    · rcases htask with rfl | ⟨t, rfl, hn, -⟩
      · simp
      · rw [← Graph.node?_some_id hn] at hnew
        simpa using fun hx => hnew (h.task_mem hx)
  case task_node =>
    rw [ht, hg]
    intro t htm
    rcases List.mem_append.1 htm with htm | htm
    · exact h.task_node t htm
    · rcases htask with rfl | ⟨u, rfl, hn, -⟩
      · cases htm
      · rw [List.mem_singleton.1 htm, Graph.node?_some_id hn]
        exact hn
  case task_entry =>
    rw [ht]
    intro t htm
    rcases List.mem_append.1 htm with htm | htm
    · obtain ⟨e', he', hst⟩ := h.task_entry t htm
      exact ⟨e', by rw [hentry, he', Option.some_or], hst⟩
    · rcases htask with rfl | ⟨u, rfl, hn, hst⟩
      · cases htm
      · refine ⟨e, ?_, by rw [List.mem_singleton.1 htm]; exact hst⟩
        rw [List.mem_singleton.1 htm, hentry, Graph.node?_some_id hn, entry?_eq_none.2 hnew]
        simp

/-- A task that goes on changes only what its phase and its entry show. -/
theorem Sound.moved (h : r.Sound) {t : Task} {p : Phase} (ht : r.task? id = some t)
    (hu : t.phase.status = .running) (hm : Moved id p r r') : r'.Sound := by
  obtain ⟨f, g, htouch, hp, hg⟩ := hm
  have hids := htouch.entryIds
  have htids := taskIds_eq_of_nodes htouch.nodes
  have hgraph := htouch.frame.graph
  obtain ⟨e, he, hst⟩ := h.task_entry t (task?_mem ht)
  rw [task?_id ht] at he
  have hself : r'.entry? id = some (g e) := by rw [htouch.entry?, if_pos rfl, he]; rfl
  constructor
  case graph =>
    rw [hgraph, htouch.frame.workflow]
    exact h.graph
  case entries_nodup =>
    rw [hids]
    exact h.entries_nodup
  case entries_mem =>
    rw [hids, hgraph]
    exact h.entries_mem
  case entries_closed =>
    rw [hids, hgraph]
    exact h.entries_closed
  case ordered =>
    rw [hids, hgraph]
    exact h.ordered
  case tasks_nodup =>
    rw [htids]
    exact h.tasks_nodup
  case task_node =>
    intro u hu
    rw [htouch.tasks] at hu
    obtain ⟨u₀, hu₀, rfl⟩ := List.mem_map.1 hu
    rw [hgraph]
    split_ifs
    · rw [htouch.node]
      exact h.task_node u₀ hu₀
    · exact h.task_node u₀ hu₀
  case task_entry =>
    intro u hu
    rw [htouch.tasks] at hu
    obtain ⟨u₀, hu₀, rfl⟩ := List.mem_map.1 hu
    split_ifs with hid
    · refine ⟨g e, ?_, ?_⟩
      · rw [htouch.node, hid]
        exact hself
      · rw [hp]
        exact hg e (hst.trans ‹_›)
    · obtain ⟨e', he', hst'⟩ := h.task_entry u₀ hu₀
      exact ⟨e', by rw [htouch.entry?, if_neg hid, he'], hst'⟩

end

end Run

end Flowgraph
