import Flowgraph.Proofs.Run.Finish
import Flowgraph.Proofs.Run.Rank

/-! The steps of a run, in any order and at any instants: it is launched, a task goes on, an alarm
rings, or the tasks that have finished are handled. A launched run that has not finished is active:
its front is live, it is not stopped, and something is in flight. A step leads to an active run again
or to the end. -/

namespace Flowgraph

open Relation (ReflTransGen)

namespace Run

def resume (engine : Engine) (now : Nat) (id : String) (r : Run) : Run :=
  match r.task? id with
  | some t => { r with agenda := r.agenda.erase id }.goOn engine now t
  | none => { r with agenda := r.agenda.erase id }

inductive Step (engine : Engine) : Run → Run → Prop
  | launch {r : Run} (now : Nat) (hb : r.Unbegun) : Step engine r (r.launch engine now)
  | resume {r : Run} (now : Nat) {id : String} (hu : r.isFinished = false) (hid : id ∈ r.agenda) :
    Step engine r (r.resume engine now id)
  | ring {r : Run} {t : Task} {alarm : Alarm} (hu : r.isFinished = false) (ht : t ∈ r.tasks)
    (ha : t.phase.Heeds engine t.node alarm) : Step engine r (r.ring engine t alarm)
  | gather {r : Run} (now : Nat) (hu : r.isFinished = false) (hf : r.tasks.any Task.isFinished = true) :
    Step engine r ((r.handleBatch (engine.moment now)).proceed engine now)

/-- What holds of a launched run until it finishes. -/
structure Active (engine : Engine) (w : Workflow) (r : Run) : Prop where
  workflow : r.workflow = w
  good : r.front.Good
  stop : r.stop = none
  unfinished : r.isFinished = false
  tasks : r.tasks ≠ []
  fits : ∀ t ∈ r.tasks, t.phase.Fits engine t.node
  due : ∀ t ∈ r.tasks, (t.phase.isResting → engine.DelaysFinite) → t.phase.isDue → t.node.id ∈ r.agenda

/-- A run that goes on after its front was handled: nothing was left to handle and to decide, the ready
nodes were brought into order, and some of them were started. -/
inductive Continues (f : Front) (time : Moment) : Run → Prop
  | intro {q r : Run} {order : List String} {nodes : List Node}
    (hb : ReflTransGen (Front.Beat time) f q.front) (ho : order.Perm q.ready)
    (hs : Started time nodes { q with ready := order } r) (hg : r.front.Good) : Continues f time r

/-- The run with which a step comes to the end: either all is done, or handling was cut short. -/
inductive Over (f : Front) (time : Moment) : Run → Prop
  | done {r : Run} (hc : Continues f time r) (ht : r.tasks = []) (hr : r.ready = []) : Over f time r
  | halted {m : Front} {reason : String} (hb : ReflTransGen (Front.Beat time) f m) (hs : Front.Stops m reason)
    (order : List String) : Over f time { m.halt time reason with ready := order }

section
variable {engine : Engine} {w : Workflow} {r r' : Run} {now : Nat} {t : Task}

theorem SameFrame.isFinished (h : SameFrame r r') : r'.isFinished = r.isFinished := by
  unfold Run.isFinished ExecutionLog.isFinished
  rw [h.log]

theorem Live.moved {id : String} {p : Phase} (h : r.front.Live) (hid : id ∈ r.taskIds) (hm : Moved id p r r') :
    r'.front.Live := by
  obtain ⟨f, g, ht, -, -⟩ := hm
  have hopened : r'.front.opened = r.front.opened := by
    rw [opened_front, opened_front]
    exact taskIds_eq_of_nodes ht.nodes
  refine h.congr ht.frame.graph ht.entryIds ht.frame.unresolved ht.frame.lost hopened (List.forall_mem_nil _)
    (fun e he => ?_) ?_
  · change e ∈ r'.log.nodeLogs at he
    rw [ht.entries] at he
    obtain ⟨e₀, he₀, rfl⟩ := List.mem_map.1 he
    rw [hopened]
    split_ifs with hnode
    · refine Or.inr ?_
      rw [ht.nodeId, hnode, opened_front]
      exact hid
    · exact h.ended e₀ he₀
  · change (List.nil ++ r'.ready).Perm (List.nil ++ r.ready)
    rw [ht.frame.ready]

theorem Active.graph (h : Active engine w r) : r.graph = Graph.ofWorkflow w :=
  h.good.sound.graph.trans (congrArg _ h.workflow)

/-- Of the tasks only one has changed, and it has come to a phase. -/
theorem Moved.task_cases {id : String} {p : Phase} (h : Moved id p r r') :
    ∀ u' ∈ r'.tasks, ∃ u ∈ r.tasks, u'.node = u.node ∧
      (u.node.id = id ∧ u'.phase = p ∨ u.node.id ≠ id ∧ u'.phase = u.phase) := by
  obtain ⟨f, g, htouch, hp, -⟩ := h
  intro u' hu'
  rw [htouch.tasks] at hu'
  obtain ⟨u, hu, rfl⟩ := List.mem_map.1 hu'
  refine ⟨u, hu, ?_⟩
  split_ifs with hid
  · exact ⟨htouch.node u, Or.inl ⟨hid, hp u⟩⟩
  · exact ⟨rfl, Or.inr ⟨hid, rfl⟩⟩

theorem Sound.node_unique (h : r.Sound) (ht : t ∈ r.tasks) {u : Task} (hu : u ∈ r.tasks)
    (hid : u.node.id = t.node.id) : u.node = t.node := by
  rw [List.inj_on_of_nodup_map h.tasks_nodup hu ht hid]

theorem Moved.fits {p : Phase} (h : Moved t.node.id p r r') (hs : r.Sound) (ht : t ∈ r.tasks)
    (hfits : ∀ u ∈ r.tasks, u.phase.Fits engine u.node) (hp : p.Fits engine t.node) :
    ∀ u ∈ r'.tasks, u.phase.Fits engine u.node := by
  intro u' hu'
  obtain ⟨u, hu, hnode, ⟨hid, hphase⟩ | ⟨-, hphase⟩⟩ := h.task_cases u' hu'
  · rw [hphase, hnode, hs.node_unique ht hu hid]
    exact hp
  · rw [hphase, hnode]
    exact hfits u hu

/-- An active run stays active when a task goes on and what it needs is on the agenda. -/
theorem Active.moved {p : Phase} (h : Active engine w r) (ht : r.task? t.node.id = some t)
    (hu : t.phase.status = .running) (hm : Moved t.node.id p r r') (hf : p.Fits engine t.node)
    (hkeep : ∀ x ∈ r.agenda, x ≠ t.node.id → x ∈ r'.agenda)
    (hdue : (p.isResting → engine.DelaysFinite) → p.isDue → t.node.id ∈ r'.agenda) : Active engine w r' := by
  have hgood : r'.front.Good :=
    ⟨h.good.sound.moved ht hu hm, Live.moved h.good.live (mem_taskIds.2 ⟨t, ht⟩) hm⟩
  have htasks := hm.task_cases
  have hfits := hm.fits h.good.sound (task?_mem ht) h.fits hf
  obtain ⟨f, g, htouch, -, -⟩ := hm
  refine ⟨htouch.frame.workflow.trans h.workflow, hgood, htouch.frame.stop.trans h.stop, ?_, ?_, hfits, ?_⟩
  · rw [htouch.frame.isFinished]
    exact h.unfinished
  · rw [htouch.tasks]
    simpa using h.tasks
  · intro u' hu' hfin hd
    obtain ⟨u, hu, hnode, ⟨hid, hphase⟩ | ⟨hne, hphase⟩⟩ := htasks u' hu'
    · rw [hnode, hid]
      exact hdue (hphase ▸ hfin) (hphase ▸ hd)
    · rw [hnode]
      exact hkeep _ (h.due u hu (hphase ▸ hfin) (hphase ▸ hd)) hne

theorem Phase.status_of_not_over {p : Phase} (h : p.isOver = false) : p.status = .running := by
  cases p with
  | finished failed => cases h
  | _ => rfl

theorem Phase.isDue_of_over {p : Phase} (h : p.isOver = true) : p.isDue = false := by
  rcases Phase.isOver_iff.1 h with ⟨failed, rfl⟩ | rfl <;> rfl

theorem goOn_of_over (h : t.phase.isOver = true) : r.goOn engine now t = r := by
  rcases Phase.isOver_iff.1 h with ⟨failed, hp⟩ | hp <;> rw [goOn, hp]

/-- Taking a finished node or one that is gone from the agenda changes nothing else. -/
theorem Active.erase {id : String} (h : Active engine w r)
    (hd : ∀ t ∈ r.tasks, t.node.id = id → t.phase.isDue = false) :
    Active engine w { r with agenda := r.agenda.erase id } where
  workflow := h.workflow
  good := ⟨h.good.sound.congr rfl rfl rfl rfl,
    h.good.live.congr rfl rfl rfl rfl rfl (List.forall_mem_nil _) h.good.live.ended (List.Perm.refl _)⟩
  stop := h.stop
  unfinished := h.unfinished
  tasks := h.tasks
  fits := h.fits
  due := fun t ht hfin hdue => by
    have hne : t.node.id ≠ id := fun hid => by
      rw [hd t ht hid] at hdue
      cases hdue
    exact (List.mem_erase_of_ne hne).2 (h.due t ht hfin hdue)

theorem rank_erase (engine : Engine) {id : String} (hid : id ∈ r.agenda) :
    rank engine { r with agenda := r.agenda.erase id } + 2 = rank engine r := by
  have hlen := List.length_erase_of_mem hid
  have hpos := List.length_pos_of_mem hid
  change (r.tasks.map (taskCost engine r)).sum + 2 * (r.agenda.erase id).length +
    (r.pending.map (nodeCost engine r)).sum + 2 = _
  rw [rank]
  omega

/-- A move does not look at the agenda that it starts from. -/
theorem Touched.of_agenda {id : String} {f : Task → Task} {g : NodeLog → NodeLog} {agenda : List String}
    (h : Touched id f g { r with agenda } r') : Touched id f g r r' where
  frame :=
    have hf := h.frame
    ⟨hf.workflow, hf.graph, hf.ready, hf.unresolved, hf.edgeStates, hf.stop, hf.lost, hf.log⟩
  node := h.node
  nodeId := h.nodeId
  tasks := h.tasks
  entries := h.entries

theorem Moved.of_agenda {id : String} {p : Phase} {agenda : List String}
    (h : Moved id p { r with agenda } r') : Moved id p r r' := by
  obtain ⟨f, g, ht, hp, hs⟩ := h
  exact ⟨f, g, ht.of_agenda, hp, hs⟩

/-- A task on the agenda goes on, unless it has finished by now or is gone. -/
theorem Active.resume_cases (now : Nat) (id : String) (h : Active engine w r) :
    (∃ t, r.task? id = some t ∧ t.phase.isOver = false ∧
        GoesOn engine t.node t.phase { r with agenda := r.agenda.erase id } (r.resume engine now id)) ∨
      (∀ t ∈ r.tasks, t.node.id = id → t.phase.isDue = false) ∧
        r.resume engine now id = { r with agenda := r.agenda.erase id } := by
  unfold Run.resume
  cases ht : r.task? id with
  | none => exact Or.inr ⟨fun t ht' he => absurd (List.mem_map.2 ⟨t, ht', he⟩) (task?_eq_none.1 ht), rfl⟩
  | some t =>
    have hmem := task?_mem ht
    cases hu : t.phase.isOver with
    | false => exact Or.inl ⟨t, rfl, hu, goesOn_goOn (h.fits t hmem) hu⟩
    | true =>
      refine Or.inr ⟨fun u hu' he => ?_, goOn_of_over hu⟩
      have heq : r.task? u.node.id = some u := task?_of_mem h.good.sound.tasks_nodup hu'
      rw [he, ht] at heq
      obtain rfl := Option.some.inj heq
      exact Phase.isDue_of_over hu

theorem Active.resume {id : String} (h : Active engine w r) (hid : id ∈ r.agenda) :
    Active engine w (r.resume engine now id) ∧ rank engine (r.resume engine now id) + 2 ≤ rank engine r := by
  have herase := rank_erase engine hid
  rcases h.resume_cases now id with ⟨t, ht, hu, p, hm, hfits, hagenda, hdue⟩ | ⟨hd, heq⟩
  · have hmem := task?_mem ht
    obtain rfl := task?_id ht
    have hrank := rank_moved engine (r := { r with agenda := r.agenda.erase t.node.id })
      h.good.sound.tasks_nodup hmem hm
    refine ⟨h.moved ht (Phase.status_of_not_over hu) (Moved.of_agenda hm) hfits (fun x hx hne => ?_) fun hfin hd => ?_,
      ?_⟩
    · have hx' := (List.mem_erase_of_ne hne).2 hx
      rcases hagenda with ⟨ha, -⟩ | ⟨ha, -⟩ <;> rw [ha]
      · exact hx'
      · exact List.mem_append_left _ hx'
    · rw [hdue hfin hd]
      exact List.mem_append_right _ (List.mem_singleton_self _)
    · rw [taskCost] at hrank
      rcases hagenda with ⟨ha, hc⟩ | ⟨ha, hc⟩ <;> rw [ha] at hrank
      · omega
      · rw [List.length_append, List.length_singleton] at hrank
        omega
  · rw [heq]
    exact ⟨h.erase hd, by omega⟩

theorem Phase.Heeds.not_over {p : Phase} {n : Node} {alarm : Alarm} (h : p.Heeds engine n alarm) :
    p.isOver = false := by
  cases p with
  | finished failed => cases h
  | unwound => cases h
  | _ => rfl

theorem Phase.Heeds.status {p : Phase} {n : Node} {alarm : Alarm} (h : p.Heeds engine n alarm) : p.status = .running :=
  Phase.status_of_not_over (Phase.Heeds.not_over h)

theorem Active.ring {alarm : Alarm} (h : Active engine w r) (ht : t ∈ r.tasks)
    (ha : t.phase.Heeds engine t.node alarm) :
    Active engine w (r.ring engine t alarm) ∧ rank engine (r.ring engine t alarm) < rank engine r := by
  obtain ⟨p, hm, hfits, hagenda, hc⟩ := goesOn_ring (r := r) (h.fits t ht) ha
  have hnodup : r.taskIds.Nodup := h.good.sound.tasks_nodup
  have hrank := rank_moved engine hnodup ht hm
  rw [taskCost] at hrank
  refine ⟨h.moved (task?_of_mem h.good.sound.tasks_nodup ht) (Phase.Heeds.status ha) hm hfits
    (fun x hx _ => ?_) fun _ _ => ?_, ?_⟩
  · rcases hagenda with hagenda | ⟨-, -, hagenda⟩ <;> rw [hagenda]
    · exact List.mem_append_left _ hx
    · exact hx
  · rcases hagenda with hagenda | ⟨hdue, hresting, hagenda⟩ <;> rw [hagenda]
    · exact List.mem_append_right _ (List.mem_singleton_self _)
    · exact h.due t ht (fun hr => absurd (hresting.symm.trans hr) Bool.false_ne_true) hdue
  · rcases hagenda with hagenda | ⟨-, -, hagenda⟩ <;> rw [hagenda] at hrank
    · rw [List.length_append, List.length_singleton] at hrank
      omega
    · omega

/-! Handling and starting -/

theorem Handled.isFinished {time : Moment} {todo : List Task} (h : Handled time todo r r') :
    r'.isFinished = r.isFinished := by
  obtain ⟨cut, ids, -, hl⟩ := h.log
  unfold Run.isFinished ExecutionLog.isFinished
  rw [hl]

theorem Started.isFinished {time : Moment} {nodes : List Node} (h : Started time nodes r r') :
    r'.isFinished = r.isFinished := by
  unfold Run.isFinished ExecutionLog.isFinished
  rw [h.log]

/-- What a front is to have before handling, so that the run is active after it. -/
structure Ready (engine : Engine) (w : Workflow) (f : Front) : Prop where
  workflow : f.run.workflow = w
  good : f.Good
  stop : f.run.stop = none
  unfinished : f.run.isFinished = false
  fits : ∀ t ∈ f.run.tasks, t.phase.Fits engine t.node
  due : ∀ t ∈ f.run.tasks, (t.phase.isResting → engine.DelaysFinite) → t.phase.isDue → t.node.id ∈ f.run.agenda

/-- After handling that was not cut short, nodes are started; then the run is active, or all is done. -/
theorem Ready.proceeds {f : Front} {q : Run} {order : List String} (hlimit : 0 < engine.limit)
    (hf : Ready engine w f) (hh : Handled (engine.moment now) f.todo f.run q) (hgood : q.front.Good)
    (ho : order.Perm q.ready) :
    ∃ nodes r, Started (engine.moment now) nodes { q with ready := order } r ∧ r.front.Good ∧
      ({ q with ready := order }.proceed engine now = r ∧ Active engine w r ∧ rank engine r ≤ rank engine f.run ∨
        { q with ready := order }.proceed engine now = r.complete (engine.moment now) ∧ r.tasks = [] ∧
          r.ready = []) := by
  replace hh := hh.with_ready order
  set s : Run := { q with ready := order }
  have hfront : s.front.Good :=
    ⟨hgood.sound.congr rfl rfl rfl rfl, hgood.live.congr rfl rfl rfl rfl rfl (List.forall_mem_nil _)
      hgood.live.ended ho⟩
  have hstop : s.stop = none := hh.stop.trans hf.stop
  obtain ⟨nodes, hs, hgood', hend⟩ :=
    startReady_spec (engine.moment now) engine.limit s.ready.length hfront (Nat.le_refl _)
  unfold proceed
  rw [if_neg (by simp [stopped, hstop])]
  dsimp only
  revert hs hgood' hend
  generalize startReady engine.limit (engine.moment now) s.ready.length s = r
  intro hs hgood' hend
  refine ⟨nodes, r, hs, hgood', ?_⟩
  split_ifs with hempty
  · have hnil : r.tasks = [] := List.isEmpty_iff.1 hempty
    refine Or.inr ⟨rfl, hnil, ?_⟩
    rcases hend with hr | hfull
    · exact hr
    · rw [hnil, List.length_nil] at hfull
      omega
  · refine Or.inl ⟨rfl, ⟨hs.workflow.trans (hh.workflow.trans hf.workflow), hgood', hs.stop.trans hstop,
      ?_, ?_, ?_, ?_⟩,
      (hs.rank_le hfront).trans hh.rank_le⟩
    · rw [hs.isFinished, hh.isFinished]
      exact hf.unfinished
    · exact fun hnil => hempty (List.isEmpty_iff.2 hnil)
    · intro t ht
      rw [hs.tasks, hh.tasks] at ht
      rcases List.mem_append.1 ht with ht | ht
      · exact hf.fits t ht
      · obtain ⟨n, -, rfl⟩ := List.mem_map.1 ht
        exact Phase.fits_of_none rfl
    · intro t ht hfin hd
      rw [hs.tasks, hh.tasks] at ht
      rw [hs.agenda, hh.agenda]
      rcases List.mem_append.1 ht with ht | ht
      · exact List.mem_append_left _ (hf.due t ht hfin hd)
      · obtain ⟨n, hn, rfl⟩ := List.mem_map.1 ht
        exact List.mem_append_right _ (List.mem_map_of_mem (f := Node.id) hn)

/-- After handling, nodes are started, and then the run is active or over. -/
theorem BatchEnd.proceeds {f : Front} {q : Run} (hlimit : 0 < engine.limit)
    (hf : Ready engine w f) (h : BatchEnd (engine.moment now) f q) :
    (Active engine w (q.proceed engine now) ∧ rank engine (q.proceed engine now) ≤ rank engine f.run ∧
        Continues f (engine.moment now) (q.proceed engine now)) ∨
      ∃ m, Over f (engine.moment now) m ∧ q.proceed engine now = m.complete (engine.moment now) := by
  cases h with
  | @calm q order hb ho =>
    have hh : Handled (engine.moment now) f.todo f.run q := Front.handled_of_beats hb
    have hcalm : q.front.Good := hf.good.beats hb
    obtain ⟨nodes, r, hs, hgood, ⟨heq, ha, hrank⟩ | ⟨heq, htasks, hready⟩⟩ := hf.proceeds hlimit hh hcalm ho
    · rw [heq]
      exact Or.inl ⟨ha, hrank, .intro hb ho hs hgood⟩
    · exact Or.inr ⟨r, Over.done (.intro hb ho hs hgood) htasks hready, heq⟩
  | @halted m reason hb hs order =>
    refine Or.inr ⟨_, Over.halted hb hs order, ?_⟩
    unfold proceed
    have hstop : (m.halt (engine.moment now) reason).stop = some ⟨.failed, reason⟩ :=
      Front.halt_stop _ reason (hf.good.beats hb).live
    rw [if_pos (by simp [stopped, hstop])]

theorem Active.ready_batch (h : Active engine w r) : Ready engine w r.batchFront where
  workflow := h.workflow
  good := Good.batchFront h.good
  stop := h.stop
  unfinished := h.unfinished
  fits := fun t ht => h.fits t (List.mem_of_mem_filter ht)
  due := fun t ht hfin hd => h.due t (List.mem_of_mem_filter ht) hfin hd

theorem Active.gather (now : Nat) (hlimit : 0 < engine.limit) (h : Active engine w r)
    (ht : r.tasks.any Task.isFinished = true) :
    (Active engine w ((r.handleBatch (engine.moment now)).proceed engine now) ∧
        rank engine ((r.handleBatch (engine.moment now)).proceed engine now) + 2 ≤ rank engine r ∧
        Continues r.batchFront (engine.moment now) ((r.handleBatch (engine.moment now)).proceed engine now)) ∨
      ∃ m, Over r.batchFront (engine.moment now) m ∧
        (r.handleBatch (engine.moment now)).proceed engine now = m.complete (engine.moment now) := by
  obtain ⟨t, ht, hf⟩ := List.any_eq_true.1 ht
  have hlt : rank engine r.batchFront.run + 2 ≤ rank engine r := rank_unfinished ht hf
  refine (BatchEnd.proceeds hlimit h.ready_batch (handleBatch_ends _ h.good h.stop)).imp_left fun ⟨ha, hr, hc⟩ => ?_
  exact ⟨ha, by omega, hc⟩

theorem Unbegun.ready_firstFront (h : r.Unbegun) : Ready engine r.workflow (firstFront r) where
  workflow := rfl
  good := h.good
  stop := h.stop
  unfinished := h.unfinished
  fits := fun t ht => by
    change t ∈ r.tasks at ht
    rw [h.tasks] at ht
    cases ht
  due := fun t ht => by
    change t ∈ r.tasks at ht
    rw [h.tasks] at ht
    cases ht

theorem Unbegun.launch (now : Nat) (hlimit : 0 < engine.limit) (h : r.Unbegun) :
    (Active engine r.workflow (r.launch engine now) ∧ rank engine (r.launch engine now) ≤ rank engine r ∧
        Continues (firstFront r) (engine.moment now) (r.launch engine now)) ∨
      ∃ m, Over (firstFront r) (engine.moment now) m ∧ r.launch engine now = m.complete (engine.moment now) := by
  have hy : Front.Yields (engine.moment now) (firstFront r) [] (r.admitAll r.graph.roots) :=
    Front.admitAll_yields h.good h.stop
  have hend := BatchEnd.of_yields hy
  rw [Run.launch]
  exact BatchEnd.proceeds (f := firstFront r) hlimit h.ready_firstFront hend

/-- Every step of an active run takes something from its rank, or is the last. -/
theorem Active.step (hlimit : 0 < engine.limit) (h : Active engine w r) (hs : Step engine r r') :
    (Active engine w r' ∧ rank engine r' < rank engine r) ∨
      ∃ now m, Over r.batchFront (engine.moment now) m ∧ r' = m.complete (engine.moment now) := by
  cases hs with
  | launch now hb => exact absurd hb.tasks h.tasks
  | resume now hu hid =>
    obtain ⟨ha, hr⟩ := h.resume hid
    exact Or.inl ⟨ha, by omega⟩
  | ring hu ht ha => exact Or.inl (h.ring ht ha)
  | gather now hu hf =>
    rcases h.gather now hlimit hf with ⟨ha, hr, -⟩ | hm
    · exact Or.inl ⟨ha, by omega⟩
    · exact Or.inr ⟨now, hm⟩

end

end Run

end Flowgraph
