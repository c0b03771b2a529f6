import Flowgraph.Proofs.Run.Handling

/-! The end of a run: tasks in flight are interrupted when it has been stopped, nodes without an entry
are skipped in an order that respects the connections, and the log gets its status. Of a sound run it
leaves one entry for every node, and each entry has ended. -/

namespace Flowgraph

namespace Graph

def sweepOrder (g : Graph) : List String :=
  match g.topologicalOrder with
  | .ok order => order
  | .error _ => g.nodeIds

section
variable {g : Graph}

theorem SourcesFirst.pairwise {order : List String} (h : g.SourcesFirst order) (hn : order.Nodup) :
    order.Pairwise fun a b => b ∉ g.sources a := by
  rw [List.pairwise_iff_getElem]
  intro i j hi hj hij hsrc
  have hsplit : order = order.take i ++ order[i] :: order.drop (i + 1) := by
    rw [← List.drop_eq_getElem_cons hi, List.take_append_drop]
  obtain ⟨k, hk, heq⟩ := List.mem_iff_getElem.1 (h _ _ _ hsplit _ hsrc)
  rw [List.getElem_take] at heq
  have hlt : k < i := by
    rw [List.length_take] at hk
    omega
  have := (hn.getElem_inj_iff).1 heq
  omega

theorem mem_sweepOrder {id : String} : id ∈ g.sweepOrder ↔ id ∈ g.nodeIds := by
  unfold sweepOrder
  split
  · next order hok => exact (topologicalOrder_orders hok).mem id
  · rfl

theorem WellFormed.nodup_sweepOrder (hg : g.WellFormed) : g.sweepOrder.Nodup := by
  unfold sweepOrder
  split
  · next order hok => exact (topologicalOrder_orders hok).nodup
  · exact hg.nodup

theorem Acyclic.sourcesFirst_sweepOrder (hg : g.WellFormed) (hac : g.Acyclic) :
    g.SourcesFirst g.sweepOrder := by
  obtain ⟨order, hok, ho⟩ := hac.topologicalOrder_ok hg
  rw [sweepOrder, hok]
  exact ho.sourcesFirst

end

end Graph

namespace Run

/-- An entry as the end of a stopped run leaves it when the task of its node is in this phase. -/
def closeEntry (time : Moment) (stop : Option Stop) (p : Phase) (e : NodeLog) : NodeLog :=
  match p with
  | .finished _ => e
  | .fresh | .unwound => e.interrupted time stop
  | _ => { e with endTime := some time }.interrupted time stop

def closeAmong (time : Moment) (stop : Option Stop) (ts : List Task) (e : NodeLog) : NodeLog :=
  match ts.find? fun t => t.node.id = e.nodeId with
  | some t => closeEntry time stop t.phase e
  | none => e

def closed (time : Moment) (r : Run) (e : NodeLog) : NodeLog :=
  match r.stop with
  | some _ => closeAmong time r.stop r.tasks e
  | none => e

def attempting (ts : List Task) : List String :=
  (ts.filter fun t => t.phase.attempt?.isSome).map fun t => t.node.id

/-- The variables as the end of this run leaves them: the tasks in flight are out. -/
def vacated (r : Run) : Scope :=
  match r.stop with
  | some _ => (attempting r.tasks).foldl Scope.exit r.scope
  | none => r.scope

def unentered (r : Run) : List String :=
  r.graph.sweepOrder.filter fun id => id ∉ r.entryIds

section
variable (time : Moment) {r : Run} (stop : Option Stop)

@[simp] theorem closeEntry_nodeId (p : Phase) (e : NodeLog) : (closeEntry time stop p e).nodeId = e.nodeId := by
  unfold closeEntry
  split
  · rfl
  · exact keepsId_interrupted time stop e
  · exact keepsId_interrupted time stop e
  · exact keepsId_interrupted time stop _

@[simp] theorem closeAmong_nodeId (ts : List Task) (e : NodeLog) : (closeAmong time stop ts e).nodeId = e.nodeId := by
  unfold closeAmong
  split
  · exact closeEntry_nodeId time stop _ e
  · rfl

@[simp] theorem closed_nodeId (e : NodeLog) : (r.closed time e).nodeId = e.nodeId := by
  unfold closed
  split <;> simp

/-- A running entry has failed then, and its end is stamped. -/
theorem closeEntry_of_running {p : Phase} {e : NodeLog} (hs : e.status = .running) (hp : p.status = .running) :
    ∃ ended, closeEntry time stop p e =
      { e with status := .failed, error := some (Stop.interruption stop), endTime := some ended } := by
  have hmark : ∀ x : NodeLog, x.status = .running → ∃ ended, x.interrupted time stop =
      { x with status := .failed, error := some (Stop.interruption stop), endTime := some ended } := fun x hx => by
    rw [NodeLog.interrupted, if_pos hx]
    cases hend : x.endTime with
    | none => exact ⟨time, rfl⟩
    | some ended => exact ⟨ended, rfl⟩
  unfold closeEntry
  split
  · next failed => cases failed <;> cases hp
  · exact hmark e hs
  · exact hmark e hs
  · exact hmark { e with endTime := some time } hs

theorem interrupt_spec (t : Task) :
    (interrupt time r t).log = { r.log with
        nodeLogs := r.log.nodeLogs.map fun e =>
          if e.nodeId = t.node.id then closeEntry time r.stop t.phase e else e } ∧
      (interrupt time r t).scope = (attempting [t]).foldl Scope.exit r.scope ∧
      (interrupt time r t).graph = r.graph ∧ (interrupt time r t).stop = r.stop := by
  have hid : ∀ es : List NodeLog, es.map (fun e => if e.nodeId = t.node.id then e else e) = es := fun es => by simp
  have htwice : ∀ es : List NodeLog,
      (es.map fun e => if e.nodeId = t.node.id then { e with endTime := some time } else e).map
        (fun e => if e.nodeId = t.node.id then e.interrupted time r.stop else e) =
      es.map fun e => if e.nodeId = t.node.id then { e with endTime := some time }.interrupted time r.stop else e :=
    fun es => by
      rw [List.map_map]
      refine List.map_congr_left fun e _ => ?_
      by_cases h : e.nodeId = t.node.id <;> simp [h]
  unfold interrupt unwind closeEntry attempting
  cases hp : t.phase with
  | finished failed => simp [hp, Phase.attempt?]
  | fresh | unwound =>
    refine ⟨rfl, ?_, rfl, rfl⟩
    simp only [hp, Phase.attempt?, Option.isSome_none, Bool.false_eq_true, not_false_eq_true, List.filter_cons_of_neg,
      List.filter_nil, List.map_nil, List.foldl_nil]
    rfl
  | _ =>
    refine ⟨?_, ?_, rfl, rfl⟩
    · simp only [markInterrupted, close, editEntry, setPhase, htwice]
    · simp only [hp, Phase.attempt?, Option.isSome_some, List.filter_cons_of_pos, List.filter_nil, List.map_cons,
        List.map_nil, List.foldl_cons, List.foldl_nil]
      rfl

/-- Interrupting task after task takes all of them out and closes their entries. -/
theorem foldl_interrupt (ts : List Task) (hn : (ts.map fun t => t.node.id).Nodup) :
    (ts.foldl (interrupt time) r).log =
        { r.log with nodeLogs := r.log.nodeLogs.map (closeAmong time r.stop ts) } ∧
      (ts.foldl (interrupt time) r).scope = (attempting ts).foldl Scope.exit r.scope ∧
      (ts.foldl (interrupt time) r).graph = r.graph ∧ (ts.foldl (interrupt time) r).stop = r.stop := by
  induction ts generalizing r with
  | nil =>
    refine ⟨?_, rfl, rfl, rfl⟩
    have hsame : closeAmong time r.stop [] = id := rfl
    rw [List.foldl_nil, hsame, List.map_id]
  | cons t rest ih =>
    rw [List.map_cons, List.nodup_cons] at hn
    obtain ⟨hlog, hscope, hgraph, hstop⟩ := interrupt_spec time (r := r) t
    obtain ⟨hlog', hscope', hgraph', hstop'⟩ := ih (r := interrupt time r t) hn.2
    rw [List.foldl_cons]
    refine ⟨?_, ?_, hgraph'.trans hgraph, hstop'.trans hstop⟩
    · rw [hlog', hlog, hstop]
      dsimp only
      rw [List.map_map]
      congr 1
      refine List.map_congr_left fun e _ => ?_
      rw [Function.comp_apply]
      have hcons : closeAmong time r.stop (t :: rest) e =
          if e.nodeId = t.node.id then closeEntry time r.stop t.phase e else closeAmong time r.stop rest e := by
        unfold closeAmong
        rw [List.find?_cons]
        by_cases h : t.node.id = e.nodeId
        · simp [h]
        · simp [h, Ne.symm h]
      rw [hcons]
      split_ifs with h
      · have hnone : rest.find? (fun u => u.node.id = (closeEntry time r.stop t.phase e).nodeId) = none := by
          rw [List.find?_eq_none]
          intro u hu
          rw [closeEntry_nodeId, h, decide_eq_true_eq]
          exact fun heq => hn.1 (List.mem_map.2 ⟨u, hu, heq⟩)
        rw [closeAmong, hnone]
      · rfl
    · rw [hscope', hscope, ← List.foldl_append, attempting, attempting, attempting, ← List.map_append,
        ← List.filter_append]
      rfl

theorem drain_spec (hn : r.taskIds.Nodup) :
    (r.drain time).log = { r.log with nodeLogs := r.log.nodeLogs.map (r.closed time) } ∧
      (r.drain time).scope = r.vacated ∧ (r.drain time).graph = r.graph ∧ (r.drain time).stop = r.stop := by
  unfold drain vacated
  cases hs : r.stop with
  | none =>
    have hid : r.closed time = id := by
      funext e
      simp [closed, hs]
    simp [hid, hs]
  | some s =>
    have hid : r.closed time = closeAmong time r.stop r.tasks := by
      funext e
      simp [closed, hs]
    obtain ⟨hlog, hscope, hgraph, hstop⟩ := foldl_interrupt time (r := r) r.tasks hn
    rw [hid]
    exact ⟨hlog, hscope, hgraph, hstop.trans hs⟩

def skipMissing (r : Run) (id : String) : Run :=
  if (r.entry? id).isSome then r else r.skip id

theorem foldl_skipMissing (order : List String) (h : order.Nodup) :
    order.foldl skipMissing r =
      { r with log := { r.log with nodeLogs := r.log.nodeLogs ++
        (order.filter fun id => id ∉ r.entryIds).map skippedEntry } } := by
  induction order generalizing r with
  | nil => simp
  | cons id rest ih =>
    obtain ⟨hnot, hrest⟩ := List.nodup_cons.1 h
    rw [List.foldl_cons, ih hrest]
    by_cases hid : id ∈ r.entryIds
    · obtain ⟨e, he⟩ := mem_entryIds.1 hid
      have hsame : skipMissing r id = r := by simp [skipMissing, he]
      rw [hsame]
      simp [hid]
    · have hskip : skipMissing r id = r.addEntry (skippedEntry id) := by
        simp [skipMissing, entry?_eq_none.2 hid, skip_eq]
      have hfilter : (rest.filter fun x => x ∉ (r.addEntry (skippedEntry id)).entryIds) =
          rest.filter fun x => x ∉ r.entryIds := by
        apply List.filter_congr
        intro x hx
        have hne : x ≠ id := fun he => hnot (he ▸ hx)
        simp [skippedEntry, hne]
      rw [hskip, hfilter]
      simp [hid, addEntry]

theorem skipPending_eq (hg : r.graph.WellFormed) :
    r.skipPending = { r with log := { r.log with nodeLogs := r.log.nodeLogs ++ r.unentered.map skippedEntry } } :=
  foldl_skipMissing _ hg.nodup_sweepOrder

theorem finalize_spec :
    (r.finalize time).log.nodeLogs = r.log.nodeLogs ∧
      match r.stop with
      | some s => (r.finalize time).log.status = s.status ∧ (r.finalize time).log.error = some s.reason
      | none => (r.finalize time).log.status =
          if ∃ e ∈ r.log.nodeLogs, e.status = .failed then .failed else .success := by
  unfold finalize
  cases hs : r.stop with
  | some s => exact ⟨rfl, rfl, rfl⟩
  | none =>
    have hiff : r.failedNodes.isEmpty = true ↔ ¬ ∃ e ∈ r.log.nodeLogs, e.status = .failed := by
      simp [failedNodes, List.isEmpty_iff, List.filter_eq_nil_iff]
    dsimp only
    split_ifs with h1 h2 h2
    · exact absurd h2 (hiff.1 h1)
    · exact ⟨rfl, rfl⟩
    · exact ⟨rfl, rfl⟩
    · exact absurd (hiff.2 h2) h1

/-- The log that the end of a run leaves. -/
theorem complete_spec (hg : r.graph.WellFormed) (hn : r.taskIds.Nodup) (hu : r.isFinished = false) :
    (r.complete time).log.nodeLogs =
        r.log.nodeLogs.map (r.closed time) ++ r.unentered.map skippedEntry ∧
      match r.stop with
      | some s => (r.complete time).log.status = s.status ∧ (r.complete time).log.error = some s.reason
      | none => (r.complete time).log.status =
          if ∃ e ∈ (r.complete time).log.nodeLogs, e.status = .failed then .failed else .success := by
  obtain ⟨hlog, -, hgraph, hstop⟩ := drain_spec time hn
  have hids : (r.drain time).entryIds = r.entryIds := by
    rw [entryIds, hlog, List.map_map]
    exact List.map_congr_left fun e _ => closed_nodeId time e
  have hskip := skipPending_eq (r := r.drain time) (hgraph ▸ hg)
  have hunentered : (r.drain time).unentered = r.unentered := by
    rw [unentered, unentered, hgraph, hids]
  rw [hunentered, hlog] at hskip
  have hcomplete : r.complete time = ((r.drain time).skipPending).finalize time := by
    simp [complete, hu]
  obtain ⟨hentries, hstatus⟩ := finalize_spec time (r := (r.drain time).skipPending)
  have hnodes : (r.complete time).log.nodeLogs =
      r.log.nodeLogs.map (r.closed time) ++ r.unentered.map skippedEntry := by
    rw [hcomplete, hentries, hskip]
  refine ⟨hnodes, ?_⟩
  have hstop' : (r.drain time).skipPending.stop = r.stop := by rw [hskip, ← hstop]
  rw [hstop', ← hentries, ← hcomplete] at hstatus
  exact hstatus

theorem scope_finalize : (r.finalize time).scope = r.scope := by
  unfold finalize
  split
  · rfl
  · split_ifs <;> rfl

theorem stop_complete (hg : r.graph.WellFormed) (hn : r.taskIds.Nodup) : (r.complete time).stop = r.stop := by
  obtain ⟨-, -, hgraph, hstop⟩ := drain_spec time hn
  have hfinal : ∀ q : Run, (q.finalize time).stop = q.stop := fun q => by
    unfold finalize
    split
    · rfl
    · split_ifs <;> rfl
  unfold complete
  split_ifs
  · rfl
  · rw [hfinal, skipPending_eq (hgraph ▸ hg)]
    exact hstop

/-- Nothing is in flight any more when a run has been brought to its end. -/
theorem tasks_complete (hg : r.graph.WellFormed) (hn : r.taskIds.Nodup) (hu : r.isFinished = false)
    (ht : r.stop = none → r.tasks = []) : (r.complete time).tasks = [] := by
  have hfinal : ∀ q : Run, (q.finalize time).tasks = q.tasks := fun q => by
    unfold finalize
    split
    · rfl
    · split_ifs <;> rfl
  have hdrain : (r.drain time).tasks = [] := by
    unfold drain
    split
    · next hs => exact ht hs
    · rfl
  have hgraph : (r.drain time).graph = r.graph := (drain_spec time hn).2.2.1
  rw [complete, if_neg (by simp [hu]), hfinal, skipPending_eq (hgraph ▸ hg)]
  exact hdrain

theorem scope_complete (hg : r.graph.WellFormed) (hn : r.taskIds.Nodup) (hu : r.isFinished = false) :
    (r.complete time).scope = r.vacated := by
  obtain ⟨-, hscope, hgraph, -⟩ := drain_spec time hn
  rw [complete, if_neg (by simp [hu]), scope_finalize, skipPending_eq (hgraph ▸ hg)]
  exact hscope

end

end Run

/-- A log that tells about every node of a workflow, once and to its end, and about none before its
sources if that can be. -/
structure Covers (w : Workflow) (log : ExecutionLog) : Prop where
  finished : log.isFinished = true
  nodup : (log.nodeLogs.map NodeLog.nodeId).Nodup
  mem : ∀ id, id ∈ log.nodeLogs.map NodeLog.nodeId ↔ id ∈ w.nodeIds
  ended : ∀ e ∈ log.nodeLogs, e.status.Ended
  ordered : (Graph.ofWorkflow w).Acyclic →
    log.nodeLogs.Pairwise fun a b => ¬ (Graph.ofWorkflow w).Leads b.nodeId a.nodeId

namespace Run

section
variable {time : Moment} {r : Run}

/-- A sound run that can be brought to its end: either it is stopped or nothing is in flight, and what
has not ended is in flight. -/
structure Closable (w : Workflow) (r : Run) : Prop where
  workflow : r.workflow = w
  sound : r.Sound
  unfinished : r.isFinished = false
  tasks : r.stop = none → r.tasks = []
  status : ∀ s, r.stop = some s → s.status ≠ .running
  ended : ∀ e ∈ r.log.nodeLogs, e.status.Ended ∨ e.nodeId ∈ r.taskIds

/-- Only a phase that shows that its task has ended shows that its node has. -/
theorem Phase.ended_iff {p : Phase} : p.status.Ended ↔ p.status ≠ .running := by
  cases p with
  | finished failed => cases failed <;> simp [Phase.status, NodeStatus.Ended]
  | _ => simp [Phase.status, NodeStatus.Ended]

/-- The entry of a task that the end of the run finds. -/
theorem Sound.entry_status (h : r.Sound) {t : Task} {e : NodeLog} (he : e ∈ r.log.nodeLogs)
    (ht : r.task? e.nodeId = some t) : e.status = t.phase.status := by
  obtain ⟨e', he', hst⟩ := h.task_entry t (task?_mem ht)
  rw [task?_id ht, entry?_of_mem h.entries_nodup he] at he'
  rw [Option.some.inj he']
  exact hst

/-- The end of a stopped run closes the entries that are running, and no others. -/
theorem Sound.closeAmong_eq (h : r.Sound) (time : Moment) (stop : Option Stop) {e : NodeLog} (he : e ∈ r.log.nodeLogs)
    (hrun : e.status = .running → e.nodeId ∈ r.taskIds) :
    e.status ≠ .running ∧ closeAmong time stop r.tasks e = e ∨
      e.status = .running ∧ ∃ ended, closeAmong time stop r.tasks e =
        { e with status := .failed, error := some (Stop.interruption stop), endTime := some ended } := by
  unfold closeAmong
  by_cases hs : e.status = .running
  · obtain ⟨t, ht⟩ := mem_taskIds.1 (hrun hs)
    have hst := h.entry_status he ht
    rw [Run.task?] at ht
    rw [ht]
    exact Or.inr ⟨hs, closeEntry_of_running time stop hs (hst ▸ hs)⟩
  · refine Or.inl ⟨hs, ?_⟩
    cases ht : r.tasks.find? fun t => t.node.id = e.nodeId with
    | none => rfl
    | some t =>
      have hst := h.entry_status he ht
      cases hp : t.phase with
      | finished failed =>
        dsimp only
        rw [hp]
        rfl
      | _ =>
        rw [hst, hp] at hs
        exact absurd rfl hs

/-- What the end of a run makes of an entry: if it is still running, it fails as interrupted. -/
theorem Closable.closed_eq {w : Workflow} (hc : Closable w r) (time : Moment) {e : NodeLog}
    (he : e ∈ r.log.nodeLogs) :
    e.status.Ended ∧ r.closed time e = e ∨
      ∃ stop ended, r.stop = some stop ∧ e.status = .running ∧ e.nodeId ∈ r.taskIds ∧ r.closed time e =
        { e with status := .failed, error := some (Stop.interruption (some stop)), endTime := some ended } := by
  have hended := hc.ended e he
  unfold closed
  split
  · next stop hs =>
    have hrun : e.status = .running → e.nodeId ∈ r.taskIds := fun hs => hended.resolve_left fun hend => by
      rw [hs] at hend
      rcases hend with h | h | h <;> cases h
    rcases hc.sound.closeAmong_eq time r.stop he hrun with ⟨hne, heq⟩ | ⟨hst, ended, heq⟩
    · refine Or.inl ⟨?_, heq⟩
      rcases hended with hend | hid
      · exact hend
      · obtain ⟨t, ht⟩ := mem_taskIds.1 hid
        have hst := hc.sound.entry_status he ht
        rw [hst] at hne ⊢
        exact Phase.ended_iff.2 hne
    · exact Or.inr ⟨stop, ended, hs, hst, hrun hst, hs ▸ heq⟩
  · next hs =>
    refine Or.inl ⟨hended.resolve_right fun hid => ?_, rfl⟩
    rw [taskIds, hc.tasks hs] at hid
    cases hid

theorem Closable.closed_ended {w : Workflow} (hc : Closable w r) (time : Moment) {e : NodeLog}
    (he : e ∈ r.log.nodeLogs) :
    (r.closed time e).status.Ended := by
  rcases hc.closed_eq time he with ⟨hend, heq⟩ | ⟨stop, ended, -, -, -, heq⟩
  · rw [heq]
    exact hend
  · rw [heq]
    exact Or.inr (Or.inl rfl)

theorem Closable.covers {w : Workflow} (hc : Closable w r) : Covers w (r.complete time).log := by
  have hclosed := fun e he => hc.closed_ended time (e := e) he
  obtain ⟨rfl, h, hu, ht, hs, -⟩ := hc
  have hg := h.wellFormed
  obtain ⟨hentries, hstatus⟩ := complete_spec time hg h.tasks_nodup hu
  have hids : (r.complete time).log.nodeLogs.map NodeLog.nodeId = r.entryIds ++ r.unentered := by
    rw [hentries, List.map_append, List.map_map, List.map_map]
    congr 1
    · exact List.map_congr_left fun e _ => closed_nodeId time e
    · exact List.map_id _
  have hmem : ∀ id, id ∈ r.unentered ↔ id ∈ r.graph.nodeIds ∧ id ∉ r.entryIds := fun id => by
    simp [unentered, List.mem_filter, Graph.mem_sweepOrder]
  refine ⟨?_, ?_, fun id => ?_, fun e he => ?_, fun hac => ?_⟩
  · unfold ExecutionLog.isFinished
    cases hstop : r.stop with
    | some s =>
      rw [hstop] at hstatus
      simp [hstatus.1, hs s hstop]
    | none =>
      rw [hstop] at hstatus
      rw [hstatus]
      split_ifs <;> rfl
  · rw [hids]
    exact List.Nodup.append h.entries_nodup (hg.nodup_sweepOrder.filter _) fun x hx hx' => ((hmem x).1 hx').2 hx
  · rw [hids, List.mem_append, hmem, ← Graph.mem_nodeIds_ofWorkflow, ← h.graph]
    have := h.entries_mem id
    tauto
  · rw [hentries] at he
    rcases List.mem_append.1 he with he | he
    · obtain ⟨e₀, he₀, rfl⟩ := List.mem_map.1 he
      exact hclosed e₀ he₀
    · obtain ⟨id, -, rfl⟩ := List.mem_map.1 he
      exact Or.inr (Or.inr rfl)
  · rw [← h.graph] at hac ⊢
    suffices hpair : (r.entryIds ++ r.unentered).Pairwise fun a b => b ∉ r.graph.sources a by
      rw [← hids, List.pairwise_map] at hpair
      exact hpair.imp fun hab hl => hab (Graph.mem_sources.2 hl)
    rw [List.pairwise_append]
    refine ⟨h.ordered, ?_, fun a ha b hb hsrc => ?_⟩
    · exact ((hac.sourcesFirst_sweepOrder hg).pairwise hg.nodup_sweepOrder).sublist List.filter_sublist
    · exact ((hmem b).1 hb).2 (h.entries_closed a ha b hsrc)

end

end Run

end Flowgraph
