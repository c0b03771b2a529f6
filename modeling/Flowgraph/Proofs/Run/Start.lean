import Flowgraph.Proofs.Run.Handling

/-! Starting ready nodes: each gets an entry and a fresh task, in the order of the ready list, until
none is left or the limit is reached. -/

namespace Flowgraph

namespace Run

def freshTask (n : Node) : Task :=
  { node := n, inputs := [], credentials := .null, phase := .fresh }

def runningEntry (time : Moment) (n : Node) : NodeLog :=
  { nodeId := n.id, status := .running, startTime := some time }

/-- What starting changes: a first part of the ready nodes has become tasks. -/
structure Started (time : Moment) (nodes : List Node) (r r' : Run) : Prop where
  workflow : r'.workflow = r.workflow
  graph : r'.graph = r.graph
  scope : r'.scope = r.scope
  stop : r'.stop = r.stop
  unresolved : r'.unresolved = r.unresolved
  edgeStates : r'.edgeStates = r.edgeStates
  lost : r'.lost = r.lost
  node : ∀ n ∈ nodes, r.graph.node? n.id = some n
  ready : r.ready = nodes.map Node.id ++ r'.ready
  tasks : r'.tasks = r.tasks ++ nodes.map freshTask
  agenda : r'.agenda = r.agenda ++ nodes.map Node.id
  log : r'.log = { r.log with nodeLogs := r.log.nodeLogs ++ nodes.map (runningEntry time) }

theorem started_refl (time : Moment) (r : Run) : Started time [] r r :=
  ⟨rfl, rfl, rfl, rfl, rfl, rfl, rfl, by simp, rfl, by simp, by simp, by simp⟩

section
variable {time : Moment} {nodes nodes' : List Node} {r r' r'' : Run}

theorem Started.trans (h : Started time nodes r r') (h' : Started time nodes' r' r'') :
    Started time (nodes ++ nodes') r r'' where
  workflow := h'.workflow.trans h.workflow
  graph := h'.graph.trans h.graph
  scope := h'.scope.trans h.scope
  stop := h'.stop.trans h.stop
  unresolved := h'.unresolved.trans h.unresolved
  edgeStates := h'.edgeStates.trans h.edgeStates
  lost := h'.lost.trans h.lost
  node := fun n hn => by
    rcases List.mem_append.1 hn with hn | hn
    · exact h.node n hn
    · exact h.graph ▸ h'.node n hn
  ready := by rw [h.ready, h'.ready, List.map_append, List.append_assoc]
  tasks := by rw [h'.tasks, h.tasks, List.map_append, List.append_assoc]
  agenda := by rw [h'.agenda, h.agenda, List.map_append, List.append_assoc]
  log := by rw [h'.log, h.log, List.map_append, ← List.append_assoc]

theorem Started.entryIds (h : Started time nodes r r') :
    r'.entryIds = r.entryIds ++ nodes.map Node.id := by
  rw [Run.entryIds, h.log, List.map_append, List.map_map]
  rfl

theorem Started.taskIds (h : Started time nodes r r') :
    r'.taskIds = r.taskIds ++ nodes.map Node.id := by
  rw [Run.taskIds, h.tasks, List.map_append, List.map_map]
  rfl

theorem startNode_eq {n : Node} (hn : r.graph.node? n.id = some n) :
    r.startNode time n.id =
      { r with
        log := { r.log with nodeLogs := r.log.nodeLogs ++ [runningEntry time n] }
        tasks := r.tasks ++ [freshTask n]
        agenda := r.agenda ++ [n.id] } := by
  unfold startNode
  rw [hn]
  rfl

theorem started_startNode {rest : List String} {n : Node} (hready : r.ready = n.id :: rest)
    (hn : r.graph.node? n.id = some n) :
    Started time [n] r ({ r with ready := rest }.startNode time n.id) := by
  rw [startNode_eq (r := { r with ready := rest }) hn]
  refine ⟨rfl, rfl, rfl, rfl, rfl, rfl, rfl, ?_, hready, rfl, rfl, rfl⟩
  intro m hm
  rw [List.mem_singleton.1 hm]
  exact hn

theorem Started.opened (h : Started time nodes r r') :
    r'.front.opened = r.front.opened ++ nodes.map Node.id := by
  rw [opened_front, opened_front, h.taskIds]

/-- What is resolved after nodes have been started was so before. -/
theorem Started.resolved_before (h : Started time nodes r r') {s : String} (hr : r'.front.isResolved s = true) :
    r.front.isResolved s = true := by
  rw [Front.isResolved_iff, h.opened, List.mem_append, not_or] at hr
  obtain ⟨he, ⟨hnot, hnew⟩, hlost⟩ := hr
  change s ∈ r'.entryIds at he
  change s ∉ r'.lost at hlost
  rw [h.entryIds, List.mem_append] at he
  rw [h.lost] at hlost
  exact Front.isResolved_iff.2 ⟨he.resolve_right hnew, hnot, hlost⟩

theorem Started.isResolved_eq (h : Started time nodes r r') (hnew : ∀ n ∈ nodes, n.id ∉ r.entryIds) (s : String) :
    r'.front.isResolved s = r.front.isResolved s := by
  rw [Bool.eq_iff_iff]
  refine ⟨h.resolved_before, fun hr => ?_⟩
  obtain ⟨he, hnot, hlost⟩ := Front.isResolved_iff.1 hr
  rw [Front.isResolved_iff, h.opened, List.mem_append, not_or]
  refine ⟨?_, ⟨hnot, fun hid => ?_⟩, (show r'.lost = r.lost from h.lost) ▸ hlost⟩
  · change s ∈ r'.entryIds
    rw [h.entryIds]
    exact List.mem_append_left _ he
  · obtain ⟨n, hn, rfl⟩ := List.mem_map.1 hid
    exact hnew n hn he

theorem Started.missing_eq (h : Started time nodes r r') (hnew : ∀ n ∈ nodes, n.id ∉ r.entryIds) (x : String) :
    r'.front.missing x = r.front.missing x := by
  simp only [Front.missing, h.isResolved_eq hnew]
  change (r'.graph.sources x).filter _ = _
  rw [h.graph]
  rfl

/-- Starting one node keeps the run sound and its front live. -/
theorem Good.started {n : Node} (h : r.front.Good) (hs : Started time [n] r r') : r'.front.Good := by
  have hl : r.front.Live := h.live
  have hready : r.ready = n.id :: r'.ready := hs.ready
  have hmem : n.id ∈ r.front.waiting ++ r.front.run.ready := by
    change n.id ∈ [] ++ r.ready
    rw [hready]
    exact List.mem_cons_self ..
  have hlater : ∀ x ∈ r'.ready, x ∈ r.front.waiting ++ r.front.run.ready := fun x hx => by
    change x ∈ [] ++ r.ready
    rw [hready]
    exact List.mem_cons_of_mem _ hx
  obtain ⟨hnode, hnew⟩ := hl.fresh n.id hmem
  have hnodup : (n.id :: r'.ready).Nodup := hready ▸ hl.nodup
  have hentries : r'.entryIds = r.entryIds ++ [n.id] := hs.entryIds
  have hmissing : ∀ x, r'.front.missing x = r.front.missing x := hs.missing_eq fun m hm => by
    rw [List.mem_singleton.1 hm]
    exact hnew
  refine ⟨?_, ?_⟩
  · refine Sound.enter h.sound (runningEntry time n) [freshTask n] hs.workflow hs.graph (congrArg ExecutionLog.nodeLogs hs.log)
      hs.tasks hnode hnew (hl.sources_mem hmem) (Or.inr ⟨freshTask n, rfl, ?_, rfl⟩)
    exact hs.node n (List.mem_singleton_self n)
  · have hopened : r'.front.opened = r.taskIds ++ [n.id] := by
      rw [hs.opened, opened_front]
      rfl
    refine ⟨fun x hx => ?_, ?_, List.forall_mem_nil _, fun x hx => ?_, fun e he => ?_, (List.nodup_cons.1 hnodup).2,
      fun x hx => ⟨?_, ?_⟩, fun x => ?_, fun x hx => ?_⟩
    · change x ∈ r'.entryIds
      rw [hopened, List.mem_append] at hx
      rw [hentries, List.mem_append]
      exact hx.imp_left h.sound.task_mem
    · rw [hopened]
      have hnot : n.id ∉ r.taskIds := fun hid => hnew (h.sound.task_mem hid)
      exact List.Nodup.append h.sound.tasks_nodup (List.nodup_singleton _) (by simpa using hnot)
    · change x ∈ r'.lost at hx
      rw [hs.lost] at hx
      obtain ⟨hentered, hclosed⟩ := hl.lost x hx
      rw [hopened]
      refine ⟨?_, fun ho => ?_⟩
      · change x ∈ r'.entryIds
        rw [hentries]
        exact List.mem_append_left _ hentered
      · rcases List.mem_append.1 ho with ho | ho
        · exact hclosed (opened_front r ▸ ho)
        · exact hnew (List.mem_singleton.1 ho ▸ hentered)
    · change e ∈ r'.log.nodeLogs at he
      rw [hs.log] at he
      rw [hopened, List.mem_append]
      rcases List.mem_append.1 he with he | he
      · refine (hl.ended e he).imp_right fun ho => Or.inl ?_
        exact opened_front r ▸ ho
      · rw [List.mem_singleton.1 he]
        exact Or.inr (Or.inr (List.mem_singleton_self n.id))
    · change x ∈ r'.graph.nodeIds
      rw [hs.graph]
      exact (hl.fresh x (hlater x hx)).1
    · change x ∉ r'.entryIds
      rw [hentries, List.mem_append, List.mem_singleton, not_or]
      exact ⟨(hl.fresh x (hlater x hx)).2, fun heq => (List.nodup_cons.1 hnodup).1 (heq ▸ hx)⟩
    · rw [hmissing]
      change Table.getD r'.unresolved x 0 = _
      rw [hs.unresolved]
      exact hl.counts x
    · change x ∈ r'.graph.nodeIds at hx
      rw [hs.graph] at hx
      rw [hmissing, hl.free x hx]
      change x ∈ r.entryIds ∨ x ∈ r.ready ↔ x ∈ r'.entryIds ∨ x ∈ r'.ready
      rw [hentries, hready, List.mem_cons, List.mem_append, List.mem_singleton]
      tauto

theorem ready_mem_nodeIds (h : r.front.Good) {id : String} (hid : id ∈ r.ready) : id ∈ r.graph.nodeIds :=
  (h.live.fresh id hid).1

/-- Starting goes on until no node is ready or the limit is reached. -/
theorem startReady_spec (time : Moment) (limit steps : Nat) (h : r.front.Good) (hsteps : r.ready.length ≤ steps) :
    ∃ nodes, Started time nodes r (startReady limit time steps r) ∧ (startReady limit time steps r).front.Good ∧
      ((startReady limit time steps r).ready = [] ∨ limit ≤ (startReady limit time steps r).tasks.length) := by
  induction steps generalizing r with
  | zero => exact ⟨[], started_refl time r, h, Or.inl (List.length_eq_zero_iff.1 (Nat.le_zero.1 hsteps))⟩
  | succ k ih =>
    unfold startReady
    split
    · next hnil => exact ⟨[], started_refl time r, h, Or.inl hnil⟩
    · next id rest hready =>
      split_ifs with hroom
      · obtain ⟨n, hn⟩ := Graph.node?_of_mem (ready_mem_nodeIds h (hready ▸ List.mem_cons_self ..))
        obtain rfl := Graph.node?_some_id hn
        have hone : Started time [n] r _ := started_startNode hready hn
        have hlen : r.ready.length = (({ r with ready := rest }.startNode time n.id).ready).length + 1 := by
          rw [hone.ready]
          simp
        obtain ⟨nodes, hs, hgood, hend⟩ := ih (Good.started h hone) (by omega)
        exact ⟨n :: nodes, hone.trans hs, hgood, hend⟩
      · exact ⟨[], started_refl time r, h, Or.inr (by omega)⟩

end

/-! The first front -/

theorem Table.getD_map_key (ids : List String) (f : String → Nat) (x : String) :
    Table.getD (ids.map fun id => (id, f id)) x 0 = if x ∈ ids then f x else 0 := by
  induction ids with
  | nil => rfl
  | cons id rest ih =>
    rw [List.map_cons]
    unfold Table.getD at ih ⊢
    rw [Table.get?]
    by_cases hx : id = x
    · subst hx
      simp
    · rw [if_neg hx, ih]
      simp [Ne.symm hx]

def firstFront (r : Run) : Front :=
  ⟨r, [], r.graph.sortByPosition r.graph.roots⟩

theorem firstFront_of_sorted {r : Run}
    (h : r.graph.roots.Pairwise fun a b => r.graph.position a ≤ r.graph.position b) :
    firstFront r = ⟨r, [], r.graph.roots⟩ := by
  have hsort : r.graph.sortByPosition r.graph.roots = r.graph.roots :=
    List.mergeSort_of_pairwise (h.imp fun hle => decide_eq_true hle)
  rw [firstFront, hsort]

/-- Roots that stand in the order of the node list are decided as they stand. -/
theorem launch_of_sorted {engine : Engine} {now : Nat} {r : Run}
    (h : r.graph.roots.Pairwise fun a b => r.graph.position a ≤ r.graph.position b) :
    r.launch engine now =
      (decideAll (r.graph.nodes.length + r.graph.roots.length) r.graph.roots r).proceed engine now := by
  have hwaiting := congrArg Front.waiting (firstFront_of_sorted h)
  rw [launch, admitAll]
  exact congrArg (fun ids => (decideAll _ ids r).proceed engine now) hwaiting

/-- A run that has not begun. -/
structure Unbegun (r : Run) : Prop where
  graph : r.graph = Graph.ofWorkflow r.workflow
  entries : r.log.nodeLogs = []
  tasks : r.tasks = []
  ready : r.ready = []
  agenda : r.agenda = []
  stop : r.stop = none
  lost : r.lost = []
  unfinished : r.isFinished = false
  unresolved : r.unresolved = r.graph.nodeIds.map fun id => (id, (r.graph.sources id).length)

theorem unbegun_start (w : Workflow) (inputs secrets : Fields) (executionId : String) (time : Moment) :
    (start w inputs secrets executionId time).Unbegun :=
  ⟨rfl, rfl, rfl, rfl, rfl, rfl, rfl, rfl, rfl⟩

section
variable {r : Run}

theorem Unbegun.sound (h : r.Unbegun) : r.Sound := by
  have hentries : r.entryIds = [] := by rw [entryIds, h.entries]; rfl
  have htasks : r.taskIds = [] := by rw [taskIds, h.tasks]; rfl
  refine ⟨h.graph, ?_, ?_, ?_, ?_, ?_, ?_, ?_⟩
  · rw [hentries]
    exact List.nodup_nil
  · simp [hentries]
  · simp [hentries]
  · rw [hentries]
    exact List.Pairwise.nil
  · rw [htasks]
    exact List.nodup_nil
  · simp [h.tasks]
  · simp [h.tasks]

theorem Unbegun.live (h : r.Unbegun) : (firstFront r).Live := by
  have hg := h.sound.wellFormed
  have hentries : r.entryIds = [] := by rw [entryIds, h.entries]; rfl
  have hmissing : ∀ id, (firstFront r).missing id = r.graph.sources id := fun id =>
    List.filter_eq_self.2 fun s _ => by simp [Front.isResolved, firstFront, hentries]
  have hmem : ∀ id, id ∈ (firstFront r).waiting ++ (firstFront r).run.ready ↔ id ∈ r.graph.roots := fun id => by
    simp [firstFront, h.ready]
  have hopened : (firstFront r).opened = [] := by simp [Front.opened, firstFront, taskIds, h.tasks]
  have hlost : (firstFront r).run.lost = [] := h.lost
  have hlogs : (firstFront r).run.log.nodeLogs = [] := h.entries
  refine ⟨?_, ?_, List.forall_mem_nil _, ?_, ?_, ?_, fun id hid => ?_, fun id => ?_, fun id hid => ?_⟩
  · rw [hopened]
    exact List.forall_mem_nil _
  · rw [hopened]
    exact List.nodup_nil
  · rw [hlost]
    exact List.forall_mem_nil _
  · rw [hlogs]
    exact List.forall_mem_nil _
  · rw [show (firstFront r).run.ready = [] from h.ready, List.append_nil]
    exact (Graph.perm_sortByPosition _ _).nodup_iff.2 (hg.nodup.filter _)
  · refine ⟨(Graph.mem_roots.1 ((hmem id).1 hid)).1, ?_⟩
    change id ∉ r.entryIds
    rw [hentries]
    exact List.not_mem_nil
  · rw [hmissing]
    change Table.getD r.unresolved id 0 = _
    rw [h.unresolved, Table.getD_map_key _ fun id => (r.graph.sources id).length]
    split_ifs with hid
    · rfl
    · rw [eq_comm, List.length_eq_zero_iff, List.eq_nil_iff_forall_not_mem]
      exact fun s hs => hid (hg.leads_mem (Graph.mem_sources.1 hs)).2
  · rw [hmissing, hmem, Graph.mem_roots]
    change _ ↔ id ∈ r.entryIds ∨ _
    rw [hentries]
    constructor
    · exact fun hnil => Or.inr ⟨hid, hnil⟩
    · rintro (hno | hroot)
      · cases hno
      · exact hroot.2

theorem Unbegun.good (h : r.Unbegun) : (firstFront r).Good :=
  ⟨h.sound, h.live⟩

end

end Run

end Flowgraph
