import Flowgraph.Proofs.Run.Moves

/-! What holds of a run at every moment: it has not begun, it is active, it winds down after a stop, or it has
finished and its log tells about every node. -/

namespace Flowgraph

open Relation (ReflTransGen)

theorem NodeStatus.Ended.ne_running {status : NodeStatus} (h : status.Ended) : status ≠ .running := by
  rintro rfl
  rcases h with h | h | h <;> cases h

namespace Run

def SourcesEnded (r : Run) : Prop :=
  ∀ id ∈ r.entryIds, ∀ s ∈ r.graph.sources id, ∃ e, r.entry? s = some e ∧ e.status.Ended

/-- What holds of a stopped run until it is completed. -/
structure Winding (engine : Engine) (w : Workflow) (r : Run) : Prop extends Closable w r where
  stopped : r.stopped = true
  fits : ∀ t ∈ r.tasks, t.phase.Fits engine t.node
  sources : r.SourcesEnded

inductive Stage (engine : Engine) (w : Workflow) (r : Run) : Prop
  | first (h : r.Unbegun) (hw : r.workflow = w)
  | active (h : Active engine w r)
  | winding (h : Winding engine w r)
  | finished (h : Covers w r.log)

section
variable {engine : Engine} {lenient : Bool} {w : Workflow} {r r' q : Run} {f m : Front} {now : Nat} {time : Moment}
  {t : Task} {p : Phase} {id reason : String} {changed order : List String} {scope : Scope} {renew : Task → Task}
  {s s' : Scene} {mark : Mark}

theorem stop_of_stopped (h : r.stopped = true) : ∃ stop, r.stop = some stop :=
  Option.isSome_iff_exists.1 h

theorem Winding.stop_ne_none (h : Winding engine w r) : r.stop ≠ none := fun hno => by
  obtain ⟨stop, hstop⟩ := stop_of_stopped h.stopped
  exact absurd (hno.symm.trans hstop) (Option.some_ne_none stop).symm

/-! Sources -/

theorem Good.sourcesEnded (h : f.Good) : f.run.SourcesEnded := fun id hid s hs => by
  have hfree := (h.live.free id (h.sound.entries_mem id hid)).2 (Or.inl hid)
  obtain ⟨hentered, hopened, -⟩ := Front.isResolved_iff.1 (Front.missing_eq_nil.1 hfree s hs)
  obtain ⟨e, he⟩ := mem_entryIds.1 hentered
  refine ⟨e, he, (h.live.ended e (entry?_mem he)).resolve_right fun hid => hopened ?_⟩
  rwa [entry?_id he] at hid

/-- A run whose log has no more nodes and keeps what has ended keeps the sources ended. -/
theorem SourcesEnded.keeps (h : r.SourcesEnded) (hg : r'.graph = r.graph) (hids : r'.entryIds = r.entryIds)
    (hkeep : ∀ id e, r.entry? id = some e → e.status.Ended → r'.entry? id = some e) : r'.SourcesEnded := by
  intro id hid s hs
  rw [hids] at hid
  rw [hg] at hs
  obtain ⟨e, he, hend⟩ := h id hid s hs
  exact ⟨e, hkeep s e he hend, hend⟩

/-- A task that goes on changes no entry that has ended. -/
theorem Moved.entry?_of_ended (h : Moved t.node.id p r r') (hs : r.Sound) (ht : t ∈ r.tasks)
    (hrun : t.phase.status = .running) {e : NodeLog} (he : r.entry? id = some e) (hend : e.status.Ended) :
    r'.entry? id = some e := by
  obtain ⟨f, g, htouch, -, -⟩ := h
  rw [htouch.entry?, if_neg, he]
  rintro rfl
  obtain ⟨e', he', hst⟩ := hs.task_entry t ht
  obtain rfl := Option.some.inj (he.symm.trans he')
  exact hend.ne_running (hst.trans hrun)

/-! A stopped run -/

theorem Winding.moved (h : Winding engine w r) (ht : t ∈ r.tasks) (hrun : t.phase.status = .running)
    (hm : Moved t.node.id p r r') (hf : p.Fits engine t.node) : Winding engine w r' := by
  have htask := task?_of_mem h.sound.tasks_nodup ht
  have hsound := h.sound.moved htask hrun hm
  have hfits := hm.fits h.sound ht h.fits hf
  have hkeep : ∀ id e, r.entry? id = some e → e.status.Ended → r'.entry? id = some e := fun _ _ =>
    hm.entry?_of_ended h.sound ht hrun
  obtain ⟨f, g, htouch, -, -⟩ := hm
  have htids : r'.taskIds = r.taskIds := taskIds_eq_of_nodes htouch.nodes
  have hstop := htouch.frame.stop
  refine ⟨⟨htouch.frame.workflow.trans h.workflow, hsound, ?_, fun hno => ?_, fun stop hst => ?_, fun e he => ?_⟩, ?_,
    hfits, h.sources.keeps htouch.frame.graph htouch.entryIds hkeep⟩
  · rw [htouch.frame.isFinished]
    exact h.unfinished
  · exact absurd (hstop ▸ hno) h.stop_ne_none
  · exact h.status stop (hstop ▸ hst)
  · rw [htouch.entries] at he
    obtain ⟨e₀, he₀, rfl⟩ := List.mem_map.1 he
    rw [htids]
    split_ifs with hid
    · exact Or.inr (by rw [htouch.nodeId, hid]; exact List.mem_map_of_mem ht)
    · exact h.ended e₀ he₀
  · rw [Run.stopped, hstop]
    exact h.stopped

theorem moved_unwind (hover : t.phase.isOver = false) : Moved t.node.id .unwound r (r.unwind time t) := by
  have hclose : Moved t.node.id .unwound r (r.close t.node.id time .unwound) :=
    ⟨_, _, (touched_refl _ r).close time .unwound, fun _ => rfl, fun _ he => he⟩
  unfold unwind
  split
  · exact ⟨_, _, touched_setPhase .unwound, fun _ => rfl, fun _ he => he⟩
  · next hp => rw [hp] at hover; cases hover
  · next hp => rw [hp] at hover; cases hover
  · exact hclose

theorem Winding.deliver (h : Winding engine w r) (ht : t ∈ r.tasks) (hover : t.phase.isOver = false) :
    Winding engine w (r.unwind time t) :=
  h.moved ht (Phase.status_of_not_over hover) (moved_unwind hover) (Phase.fits_of_none rfl)

theorem Winding.outlast (h : Winding engine w r) (ht : t ∈ r.tasks) (hover : t.phase.isOver = false)
    (hr : r' = r.goOn engine now t ∨ ∃ alarm, t.phase.Heeds engine t.node alarm ∧ r' = r.ring engine t alarm) :
    Winding engine w r' := by
  have hrun := Phase.status_of_not_over hover
  rcases hr with rfl | ⟨alarm, ha, rfl⟩
  · obtain ⟨p, hm, hpaid⟩ : GoesOn engine t.node t.phase r (r.goOn engine now t) := goesOn_goOn (h.fits t ht) hover
    exact h.moved ht hrun hm hpaid.fits
  · obtain ⟨p, hm, hfits, -⟩ := goesOn_ring (r := r) (h.fits t ht) ha
    exact h.moved ht hrun hm hfits

theorem mem_tasks_without {u : Task} : u ∈ (r.without t).tasks ↔ u ∈ r.tasks ∧ u.node.id ≠ t.node.id := by
  simp [without]

theorem mem_taskIds_without : id ∈ (r.without t).taskIds ↔ id ∈ r.taskIds ∧ id ≠ t.node.id := by
  simp only [taskIds, List.mem_map, mem_tasks_without]
  constructor
  · rintro ⟨u, ⟨hu, hne⟩, rfl⟩
    exact ⟨⟨u, hu, rfl⟩, hne⟩
  · rintro ⟨⟨u, hu, rfl⟩, hne⟩
    exact ⟨u, ⟨hu, hne⟩, rfl⟩

theorem Sound.without (h : r.Sound) (t : Task) : (r.without t).Sound where
  graph := h.graph
  entries_nodup := h.entries_nodup
  entries_mem := h.entries_mem
  entries_closed := h.entries_closed
  ordered := h.ordered
  tasks_nodup := h.tasks_nodup.sublist (List.filter_sublist.map _)
  task_node := fun u hu => h.task_node u (List.mem_of_mem_filter hu)
  task_entry := fun u hu => h.task_entry u (List.mem_of_mem_filter hu)

/-- A stopped run marks a task that was cancelled, and of any other that is over it takes no notice. -/
theorem handle_without (time : Moment) (h : r.stopped = true) (hover : t.phase.isOver = true) :
    (∃ failed, t.phase = .finished failed ∧ (r.without t).handle time t = r.without t) ∨
      t.phase = .unwound ∧ (r.without t).handle time t = (r.without t).markInterrupted time t.node.id := by
  obtain ⟨stop, hstop⟩ := stop_of_stopped h
  rcases Phase.isOver_iff.1 hover with ⟨failed, hp⟩ | hp
  · exact Or.inl ⟨failed, hp, handle_of_stopped hstop hp⟩
  · exact Or.inr ⟨hp, handle_unwound _ hp⟩

theorem Winding.pick (h : Winding engine w r) (ht : t ∈ r.tasks) (hover : t.phase.isOver = true) :
    Winding engine w ((r.without t).handle time t) := by
  have hown : ∀ e ∈ r.log.nodeLogs, e.nodeId = t.node.id → e.status = t.phase.status := fun e he hid =>
    h.sound.entry_status he (hid ▸ task?_of_mem h.sound.tasks_nodup ht)
  have hleft : ∀ e ∈ r.log.nodeLogs, e.nodeId ≠ t.node.id → e.status.Ended ∨ e.nodeId ∈ (r.without t).taskIds :=
    fun e he hne => (h.ended e he).imp_right fun hid => mem_taskIds_without.2 ⟨hid, hne⟩
  rcases handle_without time h.stopped hover with ⟨failed, hp, heq⟩ | ⟨hp, heq⟩ <;> rw [heq]
  · refine ⟨⟨h.workflow, h.sound.without t, h.unfinished, fun hno => absurd hno h.stop_ne_none, h.status,
      fun e he => ?_⟩, h.stopped, fun u hu => h.fits u (mem_tasks_without.1 hu).1, h.sources⟩
    by_cases hid : e.nodeId = t.node.id
    · refine Or.inl ?_
      rw [hown e he hid, hp]
      cases failed
      · exact Or.inl rfl
      · exact Or.inr (Or.inl rfl)
    · exact hleft e he hid
  · have hnot : t.node.id ∉ (r.without t).taskIds := fun hid => (mem_taskIds_without.1 hid).2 rfl
    have hids : ((r.without t).markInterrupted time t.node.id).entryIds = r.entryIds :=
      Front.entryIds_markInterrupted (r := r.without t) time t.node.id
    have htouch : Touched t.node.id (fun t => t) (NodeLog.interrupted time r.stop)
        { r.without t with lost := r.lost ++ [t.node.id] } ((r.without t).markInterrupted time t.node.id) :=
      touched_editEntry (keepsId_interrupted time r.stop)
    refine ⟨⟨h.workflow, Front.Sound.markInterrupted time (h.sound.without t) hnot, h.unfinished,
      fun hno => absurd hno h.stop_ne_none, h.status, fun e he => ?_⟩, h.stopped,
      fun u hu => h.fits u (mem_tasks_without.1 hu).1, h.sources.keeps rfl hids fun x e he hend => ?_⟩
    · rw [htouch.entries] at he
      obtain ⟨e₀, he₀, rfl⟩ := List.mem_map.1 he
      split_ifs with hid
      · refine Or.inl ?_
        rw [interrupted_status, hown e₀ he₀ hid, hp]
        exact Or.inr (Or.inl rfl)
      · exact hleft e₀ he₀ hid
    · rw [htouch.entry?]
      change (if x = t.node.id then (r.entry? x).map _ else r.entry? x) = _
      rw [he]
      split_ifs
      · rw [Option.map_some, interrupted_of_ne (hend.ne_running)]
      · rfl

/-! How it comes to a stop -/

theorem Ready.withScope (h : Ready engine w f) (scope : Scope) : Ready engine w (f.withScope scope) where
  workflow := h.workflow
  good := Front.Good.withScope h.good scope
  stop := h.stop
  unfinished := h.unfinished
  fits := h.fits
  due := h.due

theorem Stage.ready (h : Stage engine w r) (ho : Opens r f) : Ready engine w f := by
  cases ho with
  | first hb =>
    have hready : Ready engine r.workflow (firstFront r) := hb.ready_firstFront
    cases h with
    | first _ hw => exact hw ▸ hready
    | active ha => exact ha.workflow ▸ hready
    | winding hs => exact hs.workflow ▸ hready
    | finished hc => exact absurd (hb.unfinished.symm.trans hc.finished) Bool.false_ne_true
  | batch hstop hu hf =>
    cases h with
    | first hb hw =>
      rw [hb.tasks] at hf
      cases hf
    | active ha => exact ha.ready_batch
    | winding hs => exact absurd hstop hs.stop_ne_none
    | finished hc => exact absurd (hu.symm.trans hc.finished) Bool.false_ne_true

/-- The tasks that are handled are those of nodes of the graph. -/
theorem Opens.todo_node (ho : Opens r f) (hs : r.Sound) :
    ∀ t ∈ f.todo, f.run.graph.node? t.node.id = some t.node := by
  cases ho with
  | first hb => exact List.forall_mem_nil _
  | batch hstop hu hf => exact fun t ht => hs.task_node t (mem_batch.1 ht).1

theorem Opens.sound (ho : Opens r f) (hf : f.Good) (hr : Stage engine w r) : r.Sound := by
  cases ho with
  | first hb => exact hb.sound
  | batch hstop hu htasks =>
    cases hr with
    | first hb hw => exact hb.sound
    | active ha => exact ha.good.sound
    | winding hs => exact hs.sound
    | finished hc => exact absurd (hu.symm.trans hc.finished) Bool.false_ne_true

theorem Ready.winding (hf : Ready engine w f) (hp : f.Pulses time changed m)
    (hnode : ∀ t ∈ f.todo, f.run.graph.node? t.node.id = some t.node) : Winding engine w (haltedAt m reason order) := by
  have hgood : m.Good := hp.good hf.good
  have hh := hp.handled
  have htids : (haltedAt m reason order).taskIds = m.opened := by
    rw [haltedAt, taskIds, List.map_append]
    rfl
  refine ⟨⟨hh.workflow.trans hf.workflow, ⟨hgood.sound.graph, hgood.sound.entries_nodup, hgood.sound.entries_mem,
    hgood.sound.entries_closed, hgood.sound.ordered, htids ▸ hgood.live.opened_nodup, fun t ht => ?_, fun t ht => ?_⟩,
    hh.isFinished.trans hf.unfinished, ?_, ?_, fun e he => ?_⟩, rfl, fun t ht => ?_, Good.sourcesEnded hgood⟩
  · rcases List.mem_append.1 ht with ht | ht
    · exact hgood.sound.task_node t ht
    · have hnode' := hnode t (hp.todo_subset t ht)
      have hgraph : m.run.graph = f.run.graph := hh.graph
      rwa [← hgraph] at hnode'
  · rcases List.mem_append.1 ht with ht | ht
    · exact hgood.sound.task_entry t ht
    · exact (hgood.live.todo t ht).2
  · intro hnone
    cases hnone
  · rintro stop ⟨⟩ hrunning
    cases hrunning
  · rw [htids]
    exact hgood.live.ended e he
  · rcases List.mem_append.1 ht with ht | ht
    · rw [hh.tasks] at ht
      exact hf.fits t ht
    · refine Phase.fits_of_none ?_
      rcases Phase.isOver_iff.1 (hgood.live.todo t ht).1 with ⟨failed, hp⟩ | hp <;> rw [hp] <;> rfl

theorem Unbegun.winding (h : r.Unbegun) :
    Winding engine r.workflow { r with stop := some ⟨.cancelled, cancelReason⟩ } where
  toClosable := h.closable_cancel
  stopped := rfl
  fits := fun t ht => by
    change t ∈ r.tasks at ht
    rw [h.tasks] at ht
    cases ht
  sources := fun id hid => by
    change id ∈ r.entryIds at hid
    rw [entryIds, h.entries] at hid
    cases hid

theorem Active.winding (h : Active engine w r) :
    Winding engine w { r with stop := some ⟨.cancelled, cancelReason⟩ } where
  toClosable := h.closable_cancel
  stopped := rfl
  fits := h.fits
  sources := Good.sourcesEnded h.good

theorem stopWith_of_stopped {status : RunStatus} (h : r.stopped = true) : r.stopWith status reason = r := by
  obtain ⟨stop, hstop⟩ := stop_of_stopped h
  simp [stopWith, hstop]

theorem stopWith_of_none {status : RunStatus} (h : r.stop = none) :
    r.stopWith status reason = { r with stop := some ⟨status, reason⟩ } := by
  simp [stopWith, h]

theorem log_stopWith (status : RunStatus) (reason : String) : (r.stopWith status reason).log = r.log := by
  unfold stopWith
  split <;> rfl

theorem Stage.request (h : Stage engine w r) : Stage engine w (r.stopWith .cancelled cancelReason) := by
  cases h with
  | first hb hw =>
    rw [stopWith_of_none hb.stop]
    exact .winding (hw ▸ hb.winding)
  | active ha =>
    rw [stopWith_of_none ha.stop]
    exact .winding ha.winding
  | winding hs =>
    rw [stopWith_of_stopped hs.stopped]
    exact .winding hs
  | finished hc =>
    refine .finished ?_
    rwa [log_stopWith]

/-! Whatever is altered in place -/

theorem taskIds_renew (hn : Renews renew) : Run.taskIds { r with scope, tasks := r.tasks.map renew } = r.taskIds := by
  rw [taskIds, taskIds, List.map_map]
  exact List.map_congr_left fun t _ => congrArg Node.id (hn t).1

theorem Sound.renewed (h : r.Sound) (hn : Renews renew) : Run.Sound { r with scope, tasks := r.tasks.map renew } where
  graph := h.graph
  entries_nodup := h.entries_nodup
  entries_mem := h.entries_mem
  entries_closed := h.entries_closed
  ordered := h.ordered
  tasks_nodup := by
    rw [taskIds_renew hn]
    exact h.tasks_nodup
  task_node := fun u hu => by
    obtain ⟨t, ht, rfl⟩ := List.mem_map.1 hu
    rw [(hn t).1]
    exact h.task_node t ht
  task_entry := fun u hu => by
    obtain ⟨t, ht, rfl⟩ := List.mem_map.1 hu
    rw [(hn t).1, (hn t).2]
    exact h.task_entry t ht

theorem fits_renew (h : ∀ t ∈ r.tasks, t.phase.Fits engine t.node) (hn : Renews renew) :
    ∀ t ∈ r.tasks.map renew, t.phase.Fits engine t.node := fun u hu => by
  obtain ⟨t, ht, rfl⟩ := List.mem_map.1 hu
  rw [(hn t).1, (hn t).2]
  exact h t ht

theorem Active.renewed (h : Active engine w r) (hn : Renews renew) :
    Active engine w { r with scope, tasks := r.tasks.map renew } where
  workflow := h.workflow
  good := by
    have hopened : Front.opened (front { r with scope, tasks := r.tasks.map renew }) = r.front.opened := by
      rw [opened_front, opened_front, taskIds_renew hn]
    refine ⟨h.good.sound.renewed hn, h.good.live.congr rfl rfl rfl rfl hopened (List.forall_mem_nil _) ?_
      (List.Perm.refl _)⟩
    rw [hopened]
    exact h.good.live.ended
  stop := h.stop
  unfinished := h.unfinished
  tasks := by simpa using h.tasks
  fits := fits_renew h.fits hn
  due := fun u hu hfin hd => by
    obtain ⟨t, ht, rfl⟩ := List.mem_map.1 hu
    rw [(hn t).1]
    rw [(hn t).2] at hfin hd
    exact h.due t ht hfin hd

theorem Winding.renewed (h : Winding engine w r) (hn : Renews renew) :
    Winding engine w { r with scope, tasks := r.tasks.map renew } where
  workflow := h.workflow
  sound := h.sound.renewed hn
  unfinished := h.unfinished
  tasks := fun hno => absurd hno h.stop_ne_none
  status := h.status
  ended := by
    rw [taskIds_renew hn]
    exact h.ended
  stopped := h.stopped
  fits := fits_renew h.fits hn
  sources := h.sources

theorem Stage.renewed (h : Stage engine w r) (hn : Renews renew) :
    Stage engine w { r with scope, tasks := r.tasks.map renew } := by
  cases h with
  | first hb hw =>
    have htasks : r.tasks.map renew = [] := by rw [hb.tasks]; rfl
    exact .first ⟨hb.graph, hb.entries, htasks, hb.ready, hb.agenda, hb.stop, hb.lost, hb.unfinished, hb.unresolved⟩ hw
  | active ha => exact .active (ha.renewed hn)
  | winding hs => exact .winding (hs.renewed hn)
  | finished hc => exact .finished hc

/-! Every move -/

/-- Handling that is not cut short: nodes are started, and then the run is active or at its end. -/
theorem Ready.handles (hlimit : 0 < engine.limit) (hf : Ready engine w f)
    (hp : f.Pulses (engine.moment now) changed q.front) (hr : order.Perm q.ready) :
    ∃ nodes m, Started (engine.moment now) nodes { q with ready := order } m ∧
      ({ q with ready := order }.proceed engine now = m ∧ Active engine w m ∨
        { q with ready := order }.proceed engine now = m.complete (engine.moment now) ∧ m.stop = none ∧
          Closable w m) := by
  have hready := hf.withScope q.scope
  have hh : Handled (engine.moment now) (f.withScope q.scope).todo (f.withScope q.scope).run q := hp.handled
  have hgood : q.front.Good := hp.good hf.good
  obtain ⟨nodes, m, hs, hgood', ⟨heq, ha, -⟩ | ⟨heq, htasks, -⟩⟩ := hready.proceeds hlimit hh hgood hr
  · exact ⟨nodes, m, hs, Or.inl ⟨heq, ha⟩⟩
  · have hstop : m.stop = none := hs.stop.trans (hh.stop.trans hf.stop)
    refine ⟨nodes, m, hs, Or.inr ⟨heq, hstop, hs.workflow.trans (hh.workflow.trans hf.workflow), hgood'.sound, ?_,
      fun _ => htasks, fun stop hst => ?_, Good.ended hgood'⟩⟩
    · rw [hs.isFinished]
      exact hh.isFinished.trans hf.unfinished
    · cases hstop.symm.trans hst

theorem Stage.active_of_going (h : Stage engine w r) (hstop : r.stop = none) (hu : r.isFinished = false)
    (hb : ¬ r.Unbegun) : Active engine w r := by
  cases h with
  | first hb' hw => exact absurd hb' hb
  | active ha => exact ha
  | winding hs => exact absurd hstop hs.stop_ne_none
  | finished hc => exact absurd (hu.symm.trans hc.finished) Bool.false_ne_true

theorem Stage.active_of_agenda (h : Stage engine w r) (hstop : r.stop = none) (hu : r.isFinished = false)
    (hid : id ∈ r.agenda) : Active engine w r :=
  h.active_of_going hstop hu fun hb => by
    rw [hb.agenda] at hid
    cases hid

theorem Stage.active_of_task (h : Stage engine w r) (hstop : r.stop = none) (hu : r.isFinished = false)
    (ht : t ∈ r.tasks) : Active engine w r :=
  h.active_of_going hstop hu fun hb => by
    rw [hb.tasks] at ht
    cases ht

theorem Stage.winding_of_stopped (h : Stage engine w r) (hstop : r.stopped = true) (hu : r.isFinished = false) :
    Winding engine w r := by
  cases h with
  | first hb hw =>
    rw [Run.stopped, hb.stop] at hstop
    cases hstop
  | active ha =>
    rw [Run.stopped, ha.stop] at hstop
    cases hstop
  | winding hs => exact hs
  | finished hc => exact absurd (hu.symm.trans hc.finished) Bool.false_ne_true

theorem Stage.moves (hlimit : 0 < engine.limit) (h : Stage engine w s.run) (hm : Moves engine lenient now s mark s') :
    Stage engine w s'.run := by
  cases hm with
  | handle ho hp hr =>
    obtain ⟨nodes, m, -, ⟨heq, ha⟩ | ⟨heq, -, hc⟩⟩ := (h.ready ho).handles hlimit hp hr
    · exact .active (heq ▸ ha)
    · exact .finished (heq ▸ hc.covers)
  | halt ho hp hs =>
    have hf := h.ready ho
    exact .winding (hf.winding hp (ho.todo_node (ho.sound hf.good h)))
  | resume hstop hu hid => exact .active ((h.active_of_agenda hstop hu hid).resume hid).1
  | ring hstop hu ht halarm => exact .active ((h.active_of_task hstop hu ht).ring ht halarm).1
  | request => exact h.request
  | deliver hstop hu ht hover => exact .winding ((h.winding_of_stopped hstop hu).deliver ht hover)
  | outlast hl hstop hu ht hover hcall hr => exact .winding ((h.winding_of_stopped hstop hu).outlast ht hover hr)
  | pick hstop hu ht hover => exact .winding ((h.winding_of_stopped hstop hu).pick ht hover)
  | finish hstop hu ht => exact .finished (h.winding_of_stopped hstop hu).covers
  | alter ha hn => exact h.renewed hn

/-- At every moment a run stands somewhere on its way. -/
theorem stage_of_goes {r₀ : Run} (hlimit : 0 < engine.limit) (h₀ : r₀.Unbegun)
    (h : ReflTransGen (Goes engine lenient) r₀.scene s) : Stage engine r₀.workflow s.run := by
  induction h with
  | refl => exact .first h₀ rfl
  | tail _ hm ih =>
    obtain ⟨now, mark, hm⟩ := hm
    exact ih.moves hlimit hm

end

end Run

end Flowgraph
