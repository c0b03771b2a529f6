import Flowgraph.Proofs.Run.Deed
import Flowgraph.Proofs.Run.Winding

/-! What a move does to the log and to the variables: a task does something, or the log tells of nodes that have been
marked, skipped or started, or of the end of the run. Whichever it is, what has ended in the log stays as it is. -/

namespace Flowgraph

open Relation (ReflTransGen)

namespace Run

def Keeps (r r' : Run) : Prop :=
  ∀ id e, r.entry? id = some e → e.status.Ended → r'.entry? id = some e

def Appears (time : Moment) (e : NodeLog) : Prop :=
  (∃ id, e = skippedEntry id) ∨ ∃ n, e = runningEntry time n

/-- No task does anything, but the log tells of cancelled tasks that have been marked and of nodes that have been
skipped or started, and it may come to its end. -/
structure Relates (time : Moment) (changed : List String) (r r' : Run) : Prop where
  scope : Scope.Alters changed r.scope r'.scope
  entries : ∃ cut new, (∀ id ∈ cut, ∃ t ∈ r.tasks, t.node.id = id ∧ t.phase = .unwound) ∧
    r'.log.nodeLogs = r.log.nodeLogs.map (cutEntry time r.stop cut) ++ new ∧ ∀ e ∈ new, Appears time e
  tasks : ∀ t' ∈ r'.tasks, (∃ t ∈ r.tasks, t'.node = t.node ∧ t'.phase = t.phase) ∨
    t'.phase = .fresh ∧ t'.node.id ∉ r.entryIds
  going : r'.isFinished = false → r'.log = { r.log with nodeLogs := r'.log.nodeLogs }
  finished : r.isFinished = true → r'.log = r.log
  stamped : r.isFinished = false → r'.isFinished = true → r'.log.endTime = some time

/-- What comes of whatever happens. -/
inductive Comes (engine : Engine) (time : Moment) (changed : List String) (r r' : Run) : Prop
  | acts {t : Task} (hu : r.isFinished = false) (ht : t ∈ r.tasks) (hover : t.phase.isOver = false)
    (hd : Does engine time t r r') : Comes engine time changed r r'
  | relates (h : Relates time changed r r') : Comes engine time changed r r'

section
variable {engine : Engine} {lenient : Bool} {w : Workflow} {r r' q : Run} {f m : Front} {now : Nat} {time : Moment}
  {t : Task} {id reason : String} {changed order : List String} {scope : Scope} {renew : Task → Task} {s s' : Scene}
  {mark : Mark}

theorem endTime_complete (hu : r.isFinished = false) : (r.complete time).log.endTime = some time := by
  rw [complete, hu]
  change (finalize time _).log.endTime = _
  unfold finalize
  split
  · rfl
  · split_ifs <;> rfl

/-- Nothing is told but what is altered in place. -/
theorem relates_of_log (hscope : Scope.Alters changed r.scope r'.scope) (hlog : r'.log = r.log)
    (htasks : ∀ t' ∈ r'.tasks, ∃ t ∈ r.tasks, t'.node = t.node ∧ t'.phase = t.phase) :
    Relates time changed r r' where
  scope := hscope
  entries := ⟨[], [], List.forall_mem_nil _, by rw [hlog, map_cutEntry_nil, List.append_nil], List.forall_mem_nil _⟩
  tasks := fun t' ht' => Or.inl (htasks t' ht')
  going := fun _ => by rw [hlog]
  finished := fun _ => hlog
  stamped := fun hu hf => by
    rw [Run.isFinished, hlog] at hf
    exact absurd (hu.symm.trans hf) Bool.false_ne_true

theorem Opens.unfinished (h : Opens r f) : r.isFinished = false := by
  cases h with
  | first hb => exact hb.unfinished
  | batch hstop hu hf => exact hu

theorem Opens.run_eq (h : Opens r f) : ∃ tasks, f.run = { r with tasks } ∧ ∀ t ∈ tasks, t ∈ r.tasks := by
  cases h with
  | first hb => exact ⟨r.tasks, rfl, fun _ ht => ht⟩
  | batch hstop hu hf => exact ⟨_, rfl, fun _ ht => List.mem_of_mem_filter ht⟩

theorem Opens.todo_subset (h : Opens r f) : ∀ t ∈ f.todo, t ∈ r.tasks := by
  cases h with
  | first hb => exact List.forall_mem_nil _
  | batch hstop hu hf => exact fun t ht => (mem_batch.1 ht).1

/-- Handling a front tells of what it has marked and skipped. -/
theorem Opens.relates (ho : Opens r f) (hp : f.Pulses time changed m)
    (hscope : r'.scope = m.run.scope) (hlog : r'.log = m.run.log)
    (htasks : ∀ t ∈ r'.tasks, t ∈ m.run.tasks ∨ t ∈ m.todo) : Relates time changed r r' := by
  have hh := hp.handled
  have hsub := ho.todo_subset
  have hu := ho.unfinished
  obtain ⟨tasks, hrun, hmem⟩ := ho.run_eq
  have halters := hp.alters
  obtain ⟨cut, skipped, hcut, hentries⟩ := hh.log
  have htask : m.run.tasks = tasks := hh.tasks.trans (by rw [Front.withScope, hrun])
  rw [Front.withScope, hrun] at hentries
  rw [hrun] at halters
  have hlog' : r'.log = { r.log with
      nodeLogs := r.log.nodeLogs.map (cutEntry time r.stop cut) ++ skipped.map skippedEntry } := hlog.trans hentries
  have hu' : r'.isFinished = false := by
    rw [Run.isFinished, hlog']
    exact hu
  refine ⟨hscope ▸ halters, ⟨cut, skipped.map skippedEntry, fun id hid => ?_, by rw [hlog'], fun e he => ?_⟩,
    fun t' ht' => Or.inl ?_, fun _ => by rw [hlog'], fun hf => absurd (hu.symm.trans hf) Bool.false_ne_true,
    fun _ hf => absurd (hu'.symm.trans hf) Bool.false_ne_true⟩
  · obtain ⟨t, ht, hrest⟩ := hcut id hid
    exact ⟨t, hsub t ht, hrest⟩
  · obtain ⟨id, -, rfl⟩ := List.mem_map.1 he
    exact Or.inl ⟨id, rfl⟩
  · rcases htasks t' ht' with ht | ht
    · exact ⟨t', hmem t' (htask ▸ ht), rfl, rfl⟩
    · exact ⟨t', hsub t' (hp.todo_subset t' ht), rfl, rfl⟩

/-- More nodes appear in the log, or it comes to its end. -/
theorem Relates.more {new : List NodeLog} (h : Relates time changed r q) (hu : r.isFinished = false)
    (hq : q.isFinished = false) (hscope : r'.scope = q.scope) (hentries : r'.log.nodeLogs = q.log.nodeLogs ++ new)
    (hnew : ∀ e ∈ new, Appears time e)
    (htasks : ∀ t' ∈ r'.tasks, t' ∈ q.tasks ∨ t'.phase = .fresh ∧ t'.node.id ∉ r.entryIds)
    (hgoing : r'.isFinished = false → r'.log = { q.log with nodeLogs := r'.log.nodeLogs })
    (hstamped : r'.isFinished = true → r'.log.endTime = some time) : Relates time changed r r' where
  scope := hscope ▸ h.scope
  entries := by
    obtain ⟨cut, old, hcut, hold, happears⟩ := h.entries
    refine ⟨cut, old ++ new, hcut, by rw [hentries, hold, List.append_assoc], fun e he => ?_⟩
    rcases List.mem_append.1 he with he | he
    · exact happears e he
    · exact hnew e he
  tasks := fun t' ht' => by
    rcases htasks t' ht' with ht | hfresh
    · exact h.tasks t' ht
    · exact Or.inr hfresh
  going := fun hu' => by
    rw [hgoing hu', h.going hq]
  finished := fun hf => absurd (hu.symm.trans hf) Bool.false_ne_true
  stamped := fun _ => hstamped

theorem Relates.started {nodes : List Node} (h : Relates time changed r q)
    (hu : r.isFinished = false) (hq : q.isFinished = false) (hs : Started time nodes { q with ready := order } r')
    (hnew : ∀ id ∈ order, id ∉ r.entryIds) : Relates time changed r r' := by
  have hunfinished : r'.isFinished = false := by
    rw [hs.isFinished]
    exact hq
  refine h.more hu hq hs.scope (by rw [hs.log]) (fun e he => ?_) (fun t' ht' => ?_) (fun _ => hs.log.trans ?_)
    fun hf => absurd (hunfinished.symm.trans hf) Bool.false_ne_true
  · obtain ⟨n, -, rfl⟩ := List.mem_map.1 he
    exact Or.inr ⟨n, rfl⟩
  · rw [hs.tasks] at ht'
    rcases List.mem_append.1 ht' with ht | ht
    · exact Or.inl ht
    · obtain ⟨n, hn, rfl⟩ := List.mem_map.1 ht
      refine Or.inr ⟨rfl, hnew n.id ?_⟩
      have hready : order = nodes.map Node.id ++ r'.ready := hs.ready
      rw [hready]
      exact List.mem_append_left _ (List.mem_map_of_mem hn)
  · rw [hs.log]

/-- The end of a run in which nothing is in flight. -/
theorem Relates.complete (h : Relates time changed r q) (hu : r.isFinished = false) (hc : Closable w q)
    (ht : q.tasks = []) : Relates time changed r (q.complete time) := by
  have hg := hc.sound.wellFormed
  have hn := hc.sound.tasks_nodup
  have hclosed : ∀ e, q.closed time e = e := fun e => by
    unfold closed
    split
    · rw [ht]
      rfl
    · rfl
  have hvacated : q.vacated = q.scope := by
    unfold vacated
    split
    · rw [ht]
      rfl
    · rfl
  have hentries : (q.complete time).log.nodeLogs = q.log.nodeLogs ++ q.unentered.map skippedEntry := by
    rw [(complete_spec time hg hn hc.unfinished).1]
    congr 1
    conv_rhs => rw [← List.map_id q.log.nodeLogs]
    exact List.map_congr_left fun e _ => hclosed e
  have hfinished : (q.complete time).isFinished = true := hc.covers.finished
  refine h.more hu hc.unfinished ((scope_complete time hg hn hc.unfinished).trans hvacated) hentries (fun e he => ?_)
    (fun t' ht' => ?_) (fun hu' => absurd (hu'.symm.trans hfinished) Bool.false_ne_true)
    fun _ => endTime_complete hc.unfinished
  · obtain ⟨id, -, rfl⟩ := List.mem_map.1 he
    exact Or.inl ⟨id, rfl⟩
  · rw [tasks_complete time hg hn hc.unfinished fun _ => ht] at ht'
    cases ht'

/-! Every move -/

theorem comes_resume (hu : r.isFinished = false) : Comes engine (engine.moment now) [] r (r.resume engine now id) := by
  have hnothing : Relates (engine.moment now) [] r { r with agenda := r.agenda.erase id } :=
    relates_of_log (.refl _) rfl fun t ht => ⟨t, ht, rfl, rfl⟩
  unfold Run.resume
  cases ht : r.task? id with
  | none => exact .relates hnothing
  | some t =>
    cases hover : t.phase.isOver with
    | false => exact .acts hu (task?_mem ht) hover (does_goOn _ hover).of_agenda
    | true =>
      dsimp only
      rw [goOn_of_over hover]
      exact .relates hnothing

theorem relates_request : Relates time [] r (r.stopWith .cancelled cancelReason) := by
  unfold stopWith
  split <;> exact relates_of_log (.refl _) rfl fun t ht => ⟨t, ht, rfl, rfl⟩

theorem relates_pick (hstop : r.stopped = true) (hu : r.isFinished = false) (ht : t ∈ r.tasks)
    (hover : t.phase.isOver = true) :
    Relates time [] r ((r.without t).handle time t) := by
  have hrest : ∀ u ∈ (r.without t).tasks, ∃ u' ∈ r.tasks, u.node = u'.node ∧ u.phase = u'.phase := fun u hu =>
    ⟨u, (mem_tasks_without.1 hu).1, rfl, rfl⟩
  rcases handle_without time hstop hover with ⟨failed, -, heq⟩ | ⟨hp, heq⟩ <;> rw [heq]
  · exact relates_of_log (.refl _) rfl hrest
  · have hlog := markInterrupted_log time t.node.id (r.without t)
    have hfinished : ((r.without t).markInterrupted time t.node.id).isFinished = r.isFinished := by
      rw [Run.isFinished, hlog]
      rfl
    refine ⟨.refl _, ⟨[t.node.id], [], fun id hid => ⟨t, ht, (List.mem_singleton.1 hid).symm, hp⟩, ?_,
      List.forall_mem_nil _⟩, fun u hu => Or.inl (hrest u hu), fun _ => by rw [hlog]; rfl, fun hf => ?_, fun _ hf => ?_⟩
    · rw [hlog, List.append_nil]
      rfl
    · exact absurd (hu.symm.trans hf) Bool.false_ne_true
    · exact absurd (hu.symm.trans (hfinished.symm.trans hf)) Bool.false_ne_true

theorem Stage.sound (h : Stage engine w r) (hu : r.isFinished = false) : r.Sound := by
  cases h with
  | first hb hw => exact hb.sound
  | active ha => exact ha.good.sound
  | winding hs => exact hs.sound
  | finished hc => exact absurd (hu.symm.trans hc.finished) Bool.false_ne_true

theorem Stage.nodup (h : Stage engine w r) : r.entryIds.Nodup := by
  cases h with
  | first hb hw => exact hb.sound.entries_nodup
  | active ha => exact ha.good.sound.entries_nodup
  | winding hs => exact hs.sound.entries_nodup
  | finished hc => exact hc.nodup

/-- Handling that is not cut short: the log tells of it, of the nodes that are started, and of the end if there is
nothing to be started. -/
theorem Stage.relates_handle (hlimit : 0 < engine.limit) (h : Stage engine w r) (ho : Opens r f)
    (hp : f.Pulses (engine.moment now) changed q.front) (hr : order.Perm q.ready) :
    Relates (engine.moment now) changed r ({ q with ready := order }.proceed engine now) := by
  have hu := ho.unfinished
  have hgood : q.front.Good := hp.good (h.ready ho).good
  have hrelates : Relates (engine.moment now) changed r q := ho.relates hp rfl rfl fun t ht => Or.inl ht
  have hq : q.isFinished = false := hp.handled.isFinished.trans (h.ready ho).unfinished
  have hnew : ∀ id ∈ order, id ∉ r.entryIds := fun id hid hin => by
    have hfresh := (hgood.live.fresh id (hr.mem_iff.1 hid)).2
    obtain ⟨ids, hids⟩ := hp.handled.entryIds
    obtain ⟨tasks, hrun, -⟩ := ho.run_eq
    change id ∉ q.entryIds at hfresh
    change q.entryIds = _ at hids
    rw [hids, Front.withScope, hrun] at hfresh
    exact hfresh (List.mem_append_left _ hin)
  obtain ⟨nodes, m, hs, ⟨heq, -⟩ | ⟨heq, hstop, hc⟩⟩ := (h.ready ho).handles hlimit hp hr
  · exact heq ▸ hrelates.started hu hq hs hnew
  · exact heq ▸ (hrelates.started hu hq hs hnew).complete hu hc (hc.tasks hstop)

theorem Stage.comes (hlimit : 0 < engine.limit) (h : Stage engine w s.run)
    (hm : Moves engine lenient now s mark s') :
    ∃ changed, s'.altered = s.altered ++ changed ∧ Comes engine (engine.moment now) changed s.run s'.run := by
  have hnone : s.altered = s.altered ++ [] := (List.append_nil _).symm
  cases hm with
  | handle ho hp hr => exact ⟨_, rfl, .relates (h.relates_handle hlimit ho hp hr)⟩
  | halt ho hp hs => exact ⟨_, rfl, .relates (ho.relates hp rfl rfl fun t ht => List.mem_append.1 ht)⟩
  | resume hstop hu hid => exact ⟨[], hnone, comes_resume hu⟩
  | ring hstop hu ht ha => exact ⟨[], hnone, .acts hu ht (Phase.Heeds.not_over ha) (does_ring ha)⟩
  | request => exact ⟨[], hnone, .relates relates_request⟩
  | deliver hstop hu ht hover => exact ⟨[], hnone, .acts hu ht hover (does_unwind hover)⟩
  | outlast hl hstop hu ht hover hcall hr =>
    rcases hr with rfl | ⟨alarm, ha, rfl⟩
    · exact ⟨[], hnone, .acts hu ht hover (does_goOn _ hover)⟩
    · exact ⟨[], hnone, .acts hu ht hover (does_ring ha)⟩
  | pick hstop hu ht hover => exact ⟨[], hnone, .relates (relates_pick hstop hu ht hover)⟩
  | finish hstop hu ht =>
    have hc := (h.winding_of_stopped hstop hu).toClosable
    have hnothing : Relates (engine.moment now) [] s.run s.run :=
      relates_of_log (.refl _) rfl fun t ht => ⟨t, ht, rfl, rfl⟩
    exact ⟨[], hnone, .relates (hnothing.complete hu hc ht)⟩
  | @alter changed scope renew ha hn =>
    refine ⟨changed, rfl, .relates (relates_of_log ha rfl fun u hu => ?_)⟩
    obtain ⟨t, ht, rfl⟩ := List.mem_map.1 hu
    exact ⟨t, ht, (hn t).1, (hn t).2⟩

theorem Comes.keeps (h : Comes engine time changed r r') (hs : r.isFinished = false → r.Sound)
    (hn : r'.entryIds.Nodup) :
    Keeps r r' := by
  intro id e he hend
  cases h with
  | @acts t hu ht hover hd =>
    obtain ⟨f, g, htouch, -⟩ := hd
    rw [htouch.entry?, if_neg, he]
    rintro rfl
    obtain ⟨e', he', hst⟩ := (hs hu).task_entry t ht
    obtain rfl := Option.some.inj (he.symm.trans he')
    exact hend.ne_running (hst.trans (Phase.status_of_not_over hover))
  | relates h =>
    obtain ⟨cut, new, -, hentries, -⟩ := h.entries
    have hmem : e ∈ r'.log.nodeLogs := by
      rw [hentries]
      exact List.mem_append_left _ (List.mem_map.2 ⟨e, entry?_mem he, cutEntry_of_ne hend.ne_running⟩)
    rw [← entry?_id he]
    exact entry?_of_mem hn hmem

theorem Stage.keeps (hlimit : 0 < engine.limit) (h : Stage engine w s.run) (hm : Moves engine lenient now s mark s') :
    Keeps s.run s'.run := by
  obtain ⟨changed, -, hcomes⟩ := h.comes hlimit hm
  exact hcomes.keeps h.sound (h.moves hlimit hm).nodup

end

end Run

end Flowgraph
