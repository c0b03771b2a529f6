import Flowgraph.Proofs.Run.Account
import Flowgraph.Proofs.Run.Identity

/-! What the executor of a node is called with, and how its attempts come out. Both are counted along a history of
the run, in which the tasks may go on in any order and at any instants, as long as nothing stops the run while the
node is running. Whatever happens besides the going on of its own task leaves a node alone, or it gives the node its
entry, or it marks the entry of one that was cancelled. -/

namespace Flowgraph

/-- The calls of an executor, and how the attempts came out, each in order; and the attempts that ran out of time
while the executor still waited for a worker. -/
structure Tally where
  calls : List Invocation
  outcomes : List (Except Failure Value)
  starved : List Nat

namespace Tally

/-- What a task that goes on adds: it calls its executor, or it takes in the outcome of an attempt. -/
def noteTask (y : Tally) (runId : String) (t : Task) : Tally :=
  match t.phase with
  | .calling attempt _ => { y with calls := y.calls ++ [⟨t.node, t.inputs, t.credentials, runId, attempt⟩] }
  | .returned _ result => { y with outcomes := y.outcomes ++ [result] }
  | _ => y

def note (y : Tally) (id : String) (r : Run) : Tally :=
  match r.task? id with
  | some t => y.noteTask r.log.executionId t
  | none => y

/-- An alarm rings for a task: one that has not called its executor yet does not call it any more. -/
def noteAlarm (y : Tally) (t : Task) : Tally :=
  match t.phase with
  | .calling attempt _ => { y with starved := y.starved ++ [attempt] }
  | _ => y

/-- Of the attempts so far exactly the first ones have failed, and they are so many. -/
def FailsFirst (y : Tally) (f : Nat) : Prop :=
  y.outcomes.map Except.isOk = (List.range y.outcomes.length).map fun k => decide (f ≤ k)

end Tally

def NodeLog.Blank (e : NodeLog) : Prop :=
  (e.status = .skipped ∨ e.status = .running) ∧ e.inputs = none

theorem NodeLog.blank_skippedEntry (id : String) : (Run.skippedEntry id).Blank := ⟨Or.inl rfl, rfl⟩

theorem NodeLog.blank_runningEntry (time : Moment) (n : Node) : (Run.runningEntry time n).Blank := ⟨Or.inr rfl, rfl⟩

namespace Run

open Relation (ReflTransGen)

/-- Something happens to a run, but it is neither that the task of the node goes on nor that an alarm rings for it. -/
inductive Elsewhere (engine : Engine) (id : String) : Run → Run → Prop
  | launch {r : Run} (now : Nat) (hb : r.Unbegun) : Elsewhere engine id r (r.launch engine now)
  | resume {r : Run} {x : String} (now : Nat) (hu : r.isFinished = false) (hx : x ∈ r.agenda) (hne : x ≠ id) :
    Elsewhere engine id r (r.resume engine now x)
  | ring {r : Run} {t : Task} {alarm : Alarm} (hu : r.isFinished = false) (ht : t ∈ r.tasks)
    (ha : t.phase.Heeds engine t.node alarm) (hne : t.node.id ≠ id) : Elsewhere engine id r (r.ring engine t alarm)
  | gather {r : Run} (now : Nat) (hu : r.isFinished = false) (hf : r.tasks.any Task.isFinished = true) :
    Elsewhere engine id r ((r.handleBatch (engine.moment now)).proceed engine now)
  | cancel (r : Run) (time : Moment) : Elsewhere engine id r (r.cancel time)

/-- A run has come to a state, and nothing has stopped it while the node was running; this is the tally of the
node. -/
inductive Undisturbed (engine : Engine) (r₀ : Run) (id : String) : Tally → Run → Prop
  | start : Undisturbed engine r₀ id ⟨[], [], []⟩ r₀
  | goesOn {y : Tally} {r : Run} (h : Undisturbed engine r₀ id y r) (now : Nat) (hu : r.isFinished = false)
    (hid : id ∈ r.agenda) : Undisturbed engine r₀ id (y.note id r) (r.resume engine now id)
  | rings {y : Tally} {r : Run} {t : Task} {alarm : Alarm} (h : Undisturbed engine r₀ id y r)
    (hu : r.isFinished = false) (ht : t ∈ r.tasks) (hid : t.node.id = id) (ha : t.phase.Heeds engine t.node alarm) :
    Undisturbed engine r₀ id (y.noteAlarm t) (r.ring engine t alarm)
  | elsewhere {y : Tally} {r r' : Run} (h : Undisturbed engine r₀ id y r) (he : Elsewhere engine id r r')
    (hruns : r.Runs id → r'.stop = none) : Undisturbed engine r₀ id y r'

/-- The entry of a node whose task was cancelled gets marked. -/
def Marked (id : String) (r r' : Run) : Prop :=
  r.isFinished = false ∧ ∃ t e time, r.task? id = some t ∧ t.phase = .unwound ∧ r.entry? id = some e ∧
    r'.entry? id = some (e.interrupted time none)

/-- What a node shows after something that is not its own doing: the same as before, or it has got its entry, or the
entry is marked. -/
structure Unmoved (id : String) (r r' : Run) : Prop where
  entry : r'.entry? id = r.entry? id ∨ (r.entry? id = none ∧ ∃ e, r'.entry? id = some e ∧ e.Blank) ∨ Marked id r r'
  task : r'.isFinished = false → ∀ t, r'.task? id = some t →
    r.task? id = some t ∨ r.entry? id = none ∧ t.phase = .fresh ∧ ∃ e, r'.entry? id = some e
  agenda : r'.isFinished = false → id ∈ r.agenda → id ∈ r'.agenda

section
variable {engine : Engine} {w : Workflow} {id x : String} {r₀ r r' m : Run} {t : Task} {f : Task → Task}
  {g : NodeLog → NodeLog} {now : Nat} {time : Moment} {y : Tally}

theorem Elsewhere.happens (h : Elsewhere engine id r r') : Happens engine r r' := by
  cases h with
  | launch now hb => exact .step (.launch now hb)
  | resume now hu hx hne => exact .step (.resume now hu hx)
  | ring hu ht ha hne => exact .step (.ring hu ht ha)
  | gather now hu hf => exact .step (.gather now hu hf)
  | cancel time => exact .cancel r time

/-- A run that has finished stays so. -/
theorem Elsewhere.unfinished (h : Elsewhere engine id r r') (hu' : r'.isFinished = false) : r.isFinished = false := by
  cases h with
  | launch now hb => exact hb.unfinished
  | resume now hu hx hne => exact hu
  | ring hu ht ha hne => exact hu
  | gather now hu hf => exact hu
  | cancel time =>
    cases hf : r.isFinished with
    | false => rfl
    | true =>
      rw [Run.isFinished, cancel_of_finished time hf] at hu'
      exact absurd (hu'.symm.trans hf) Bool.false_ne_true

/-- No run gets another id in its log. -/
theorem Happens.loggedAs {runId : String} (h : Happens engine r r') (hr : r.LoggedAs runId) : r'.LoggedAs runId := by
  cases h with
  | step hs =>
    cases hs with
    | launch now hb => exact (hr.admitAll _).proceed
    | resume now hu hid =>
      unfold Run.resume
      split
      · refine LoggedAs.goOn ?_ _
        exact hr
      · exact hr
    | ring hu ht ha => exact hr.ring _ _
    | gather now hu hf => exact (hr.handleBatch _).proceed
  | cancel time => exact (hr.stopWith _ _).complete _

theorem Undisturbed.happens (h : Undisturbed engine r₀ id y r) : ReflTransGen (Happens engine) r₀ r := by
  induction h with
  | start => exact .refl
  | goesOn _ now hu hid ih => exact ih.tail (.step (.resume now hu hid))
  | rings _ hu ht _ ha ih => exact ih.tail (.step (.ring hu ht ha))
  | elsewhere _ he _ ih => exact ih.tail he.happens

/-- Every step that does not stop the run while the node is running goes on with the history. -/
theorem Undisturbed.step (h : Undisturbed engine r₀ id y r) (hs : Step engine r r')
    (hruns : r.Runs id → r'.stop = none) : ∃ y', Undisturbed engine r₀ id y' r' := by
  cases hs with
  | launch now hb => exact ⟨y, h.elsewhere (.launch now hb) hruns⟩
  | @resume now x hu hx =>
    by_cases hid : x = id
    · subst hid
      exact ⟨_, h.goesOn now hu hx⟩
    · exact ⟨y, h.elsewhere (.resume now hu hx hid) hruns⟩
  | @ring t alarm hu ht ha =>
    by_cases hid : t.node.id = id
    · exact ⟨_, h.rings hu ht hid ha⟩
    · exact ⟨y, h.elsewhere (.ring hu ht ha hid) hruns⟩
  | gather now hu hf => exact ⟨y, h.elsewhere (.gather now hu hf) hruns⟩

/-! Entries are added -/

theorem entry?_of_append {cut : NodeLog → NodeLog} {new : List NodeLog}
    (hcut : ∀ e ∈ r.log.nodeLogs, (cut e).nodeId = e.nodeId)
    (h : r'.log.nodeLogs = r.log.nodeLogs.map cut ++ new) (id : String) :
    r'.entry? id = (r.entry? id).map cut ∨ r.entry? id = none ∧ ∃ e ∈ new, r'.entry? id = some e := by
  have hentry : r'.entry? id =
      ((r.entry? id).map cut).or (new.find? fun e => Decidable.decide (e.nodeId = id)) := by
    simp only [Run.entry?, ExecutionLog.nodeLog?, h, List.find?_append, List.find?_map]
    congr 2
    refine List.find?_congr fun e he => ?_
    rw [Function.comp_apply, hcut e he]
  rw [hentry]
  cases hr : r.entry? id with
  | some e => exact Or.inl rfl
  | none =>
    cases hn : new.find? fun e => Decidable.decide (e.nodeId = id) with
    | none => exact Or.inl rfl
    | some e => exact Or.inr ⟨rfl, e, List.mem_of_find?_eq_some hn, rfl⟩

theorem blank_of_mem_skipped {ids : List String} : ∀ e ∈ ids.map skippedEntry, e.Blank := by
  intro e he
  obtain ⟨id, -, rfl⟩ := List.mem_map.1 he
  exact NodeLog.blank_skippedEntry id

theorem blank_of_mem_started {nodes : List Node} : ∀ e ∈ nodes.map (runningEntry time), e.Blank := by
  intro e he
  obtain ⟨n, -, rfl⟩ := List.mem_map.1 he
  exact NodeLog.blank_runningEntry time n

/-! Another task goes on -/

theorem Touched.task? (h : Touched x f g r r') (id : String) :
    r'.task? id = if id = x then (r.task? id).map f else r.task? id := by
  have := find?_map_ite (fun t : Task => t.node.id) f (fun t => by rw [h.node t]) r.tasks x id
  rw [← h.tasks] at this
  exact this

theorem Touched.unmoved (h : Touched x f g r r') (hne : x ≠ id) (ha : ∀ x' ∈ r.agenda, x' ≠ x → x' ∈ r'.agenda) :
    Unmoved id r r' := by
  refine ⟨Or.inl ?_, fun _ t ht => Or.inl ?_, fun _ hid => ha id hid hne.symm⟩
  · rw [h.entry?, if_neg hne.symm]
  · rwa [h.task?, if_neg hne.symm] at ht

theorem Active.unmoved_resume (h : Active engine w r) (now : Nat) (hne : x ≠ id) :
    Unmoved id r (r.resume engine now x) := by
  rcases h.resume_cases now x with ⟨t, ht, -, p, hm, -, hagenda, -⟩ | ⟨-, heq⟩
  · obtain rfl := task?_id ht
    obtain ⟨f, g, htouch, -⟩ := Moved.of_agenda hm
    refine htouch.unmoved hne fun x' hx' hother => ?_
    have hkept := (List.mem_erase_of_ne hother).2 hx'
    rcases hagenda with ⟨ha, -⟩ | ⟨ha, -⟩ <;> rw [ha]
    · exact hkept
    · exact List.mem_append_left _ hkept
  · rw [heq]
    exact ⟨Or.inl rfl, fun _ t ht => Or.inl ht, fun _ hid => (List.mem_erase_of_ne hne.symm).2 hid⟩

theorem Active.unmoved_ring {alarm : Alarm} (h : Active engine w r) (ht : t ∈ r.tasks)
    (ha : t.phase.Heeds engine t.node alarm) (hne : t.node.id ≠ id) : Unmoved id r (r.ring engine t alarm) := by
  obtain ⟨p, ⟨f, g, htouch, -⟩, -, hagenda, -⟩ := goesOn_ring (r := r) (h.fits t ht) ha
  refine htouch.unmoved hne fun x hx _ => ?_
  rcases hagenda with hagenda | ⟨-, -, hagenda⟩ <;> rw [hagenda]
  · exact List.mem_append_left _ hx
  · exact hx

/-! Handling and starting -/

theorem Continues.unmoved {f : Front} (h : Continues f time r') (hu : r.isFinished = false) (hlog : f.run.log = r.log)
    (hstop : f.run.stop = none) (htodo : ∀ t ∈ f.todo, r.task? t.node.id = some t)
    (htasks : ∀ t, f.run.task? id = some t → r.task? id = some t) (hagenda : f.run.agenda = r.agenda) :
    Unmoved id r r' := by
  obtain @⟨q, _, order, nodes, hb, -, hs, hg⟩ := h
  have hh : Handled time f.todo f.run q := Front.handled_of_beats hb
  obtain ⟨cut, ids, hcut, hskipped⟩ := hh.log
  have hentries : r'.log.nodeLogs = r.log.nodeLogs.map (cutEntry time none cut) ++
      (ids.map skippedEntry ++ nodes.map (runningEntry time)) := by
    rw [hs.log]
    dsimp only
    rw [hskipped, hlog, hstop, List.append_assoc]
  refine ⟨?_, fun _ t ht => ?_, fun _ hid => ?_⟩
  · rcases entry?_of_append (fun e _ => keepsId_cutEntry time none cut e) hentries id with hsame | ⟨hnone, e, he, he'⟩
    · cases hr : r.entry? id with
      | none => exact Or.inl (by rw [hsame, hr, Option.map_none])
      | some e =>
        rw [hr, Option.map_some] at hsame
        by_cases hid : id ∈ cut
        · obtain ⟨t, ht, rfl, hp⟩ := hcut id hid
          rw [cutEntry, entry?_id hr, if_pos hid] at hsame
          exact Or.inr (Or.inr ⟨hu, t, e, time, htodo t ht, hp, hr, hsame⟩)
        · rw [cutEntry, entry?_id hr, if_neg hid] at hsame
          exact Or.inl hsame
    · refine Or.inr (Or.inl ⟨hnone, e, he', ?_⟩)
      rcases List.mem_append.1 he with he | he
      · exact blank_of_mem_skipped e he
      · exact blank_of_mem_started e he
  · have hsplit : r'.task? id =
        (f.run.task? id).or ((nodes.map freshTask).find? fun t => Decidable.decide (t.node.id = id)) := by
      simp only [Run.task?, hs.tasks, hh.tasks, List.find?_append]
    rw [hsplit] at ht
    cases hold : f.run.task? id with
    | some u =>
      rw [hold] at ht
      exact Or.inl (ht ▸ htasks u hold)
    | none =>
      rw [hold, Option.none_or] at ht
      have hid : t.node.id = id := by simpa using List.find?_some ht
      obtain ⟨n, hn, rfl⟩ := List.mem_map.1 (List.mem_of_find?_eq_some ht)
      have hnew : freshTask n ∈ r'.tasks := by
        rw [hs.tasks]
        exact List.mem_append_right _ (List.mem_map_of_mem hn)
      obtain ⟨e, he, -⟩ := hg.sound.task_entry (freshTask n) hnew
      refine Or.inr ⟨entry?_eq_none.2 fun hmem => ?_, rfl, e, hid ▸ he⟩
      -- no node gets a second entry
      have hnodup := hg.sound.entries_nodup
      have hkept : (r.log.nodeLogs.map (cutEntry time none cut)).map NodeLog.nodeId = r.entryIds := by
        rw [List.map_map, entryIds]
        exact List.map_congr_left fun e _ => keepsId_cutEntry time none cut e
      change (r'.log.nodeLogs.map NodeLog.nodeId).Nodup at hnodup
      rw [hentries, List.map_append, hkept, List.nodup_append] at hnodup
      refine hnodup.2.2 id hmem id ?_ rfl
      rw [List.map_append, List.mem_append]
      exact Or.inr (List.mem_map.2 ⟨runningEntry time n, List.mem_map_of_mem hn, hid⟩)
  · rw [hs.agenda]
    refine List.mem_append_left _ ?_
    change id ∈ q.agenda
    rw [hh.agenda, hagenda]
    exact hid

theorem Sound.task?_unfinished (h : r.Sound) (ht : r.unfinished.task? id = some t) : r.task? id = some t := by
  have hmem : t ∈ r.tasks := List.mem_of_mem_filter (task?_mem ht)
  rw [← task?_id ht]
  exact task?_of_mem h.tasks_nodup hmem

/-! The end -/

/-- What ends a run leaves a node alone that is not running, or it skips the node. -/
theorem Skips.entry? (h : Skips r r') (hquiet : ¬ r.Runs id) :
    r'.entry? id = r.entry? id ∨ r.entry? id = none ∧ ∃ e, r'.entry? id = some e ∧ e.Blank := by
  obtain ⟨g, ids, hcut, hlog⟩ := h
  refine (entry?_of_append (fun e he => (hcut e he).nodeId) hlog id).imp (fun hsame => ?_)
    fun ⟨hnone, e, he, he'⟩ => ⟨hnone, e, he', blank_of_mem_skipped e he⟩
  rw [hsame]
  cases hr : r.entry? id with
  | none => rfl
  | some e => rw [Option.map_some, (hcut e (entry?_mem hr)).eq fun hs => hquiet ⟨e, hr, hs⟩]

theorem unmoved_of_finished (hf : r'.isFinished = true)
    (hentry : r'.entry? id = r.entry? id ∨ (r.entry? id = none ∧ ∃ e, r'.entry? id = some e ∧ e.Blank) ∨
      Marked id r r') : Unmoved id r r' := by
  have hover : ∀ {p : Prop}, r'.isFinished = false → p := fun hu => absurd (hu.symm.trans hf) Bool.false_ne_true
  exact ⟨hentry, hover, hover⟩

theorem Skips.unmoved (h : Skips r r') (hf : r'.isFinished = true) (hquiet : ¬ r.Runs id) : Unmoved id r r' :=
  unmoved_of_finished hf ((h.entry? hquiet).imp_right Or.inl)

/-- The end of a run does not undo what was before. -/
theorem Unmoved.skips (h : Unmoved id r m) (hs : Skips m r') (hf : r'.isFinished = true) (hquiet : ¬ m.Runs id) :
    Unmoved id r r' := by
  refine unmoved_of_finished hf ?_
  rcases hs.entry? hquiet with hsame | ⟨hnone, e, he, hblank⟩
  · unfold Marked
    rw [hsame]
    exact h.entry
  · rcases h.entry with hold | ⟨-, e', he', -⟩ | ⟨-, t, e', time, -, -, -, he'⟩
    · exact Or.inr (Or.inl ⟨hold ▸ hnone, e, he, hblank⟩)
    · cases hnone.symm.trans he'
    · cases hnone.symm.trans he'

/-- The step that ends a run leaves a node alone, unless the node was running and the run has been stopped. -/
theorem Over.unmoved {f : Front} (h : Over f time m) (hf : Ready engine w f) (hlog : f.run.log = r.log)
    (htodo : ∀ t ∈ f.todo, r.task? t.node.id = some t) (htasks : ∀ t, f.run.task? id = some t → r.task? id = some t)
    (hagenda : f.run.agenda = r.agenda) (hruns : r.Runs id → (m.complete time).stop = none) :
    Unmoved id r (m.complete time) := by
  have hclose := hf.closable h
  have hfinished : (m.complete time).isFinished = true := hclose.covers.finished
  have hover : Skips f.run (m.complete time) := hf.skips h
  have hskips : Skips r (m.complete time) := by simpa only [Skips, hlog] using hover
  have hstop : (m.complete time).stop = m.stop := stop_complete time hclose.sound.wellFormed hclose.sound.tasks_nodup
  cases h with
  | done hc htnil hr =>
    have hu : r.isFinished = false := by simpa only [Run.isFinished, hlog] using hf.unfinished
    have hm : Unmoved id r m := hc.unmoved hu hlog hf.stop htodo htasks hagenda
    refine hm.skips hclose.skips hfinished ?_
    rintro ⟨e, he, hrun⟩
    rcases hclose.ended e (entry?_mem he) with hend | hid
    · rcases hend with hend | hend | hend <;> cases hrun.symm.trans hend
    · rw [taskIds, htnil] at hid
      cases hid
  | @halted m reason hb hs order =>
    have hhalt := Front.halt_stop time reason (hf.good.beats hb).live
    exact hskips.unmoved hfinished fun hr => by cases (hruns hr).symm.trans (hstop.trans hhalt)

theorem unmoved_cancel (hstop : r.stop = none) (hc : Closable w { r with stop := some ⟨.cancelled, cancelReason⟩ })
    (hruns : r.Runs id → (r.cancel time).stop = none) : Unmoved id r (r.cancel time) := by
  rw [cancel_eq hstop] at hruns ⊢
  have hskips : Skips r (Run.complete time { r with stop := some ⟨.cancelled, cancelReason⟩ }) := hc.skips
  refine hskips.unmoved hc.covers.finished fun hr => ?_
  cases (hruns hr).symm.trans (stop_complete time hc.sound.wellFormed hc.sound.tasks_nodup)

theorem unmoved_cancel_of_finished (hf : r.isFinished = true) : Unmoved id r (r.cancel time) := by
  have hlog := cancel_of_finished time hf
  refine unmoved_of_finished (by rwa [Run.isFinished, hlog]) (Or.inl ?_)
  rw [Run.entry?, Run.entry?, hlog]

/-! Whatever happens elsewhere -/

theorem Unbegun.unmoved (hlimit : 0 < engine.limit) (h : r.Unbegun) (he : Elsewhere engine id r r')
    (hruns : r.Runs id → r'.stop = none) : Unmoved id r r' := by
  cases he with
  | launch now hb =>
    rcases h.launch now hlimit with ⟨-, -, hc⟩ | ⟨m, hm, heq⟩
    · exact hc.unmoved h.unfinished rfl h.stop (List.forall_mem_nil _) (fun t ht => ht) rfl
    · have hready : Ready engine r.workflow (firstFront r) := h.ready_firstFront
      rw [heq] at hruns ⊢
      exact hm.unmoved hready rfl (List.forall_mem_nil _) (fun t ht => ht) rfl hruns
  | resume now hu hx hne =>
    rw [h.agenda] at hx
    cases hx
  | ring hu ht ha =>
    rw [h.tasks] at ht
    cases ht
  | gather now hu hf =>
    rw [h.tasks] at hf
    cases hf
  | cancel time => exact unmoved_cancel h.stop h.closable_cancel hruns

theorem Active.unmoved (hlimit : 0 < engine.limit) (h : Active engine w r) (he : Elsewhere engine id r r')
    (hruns : r.Runs id → r'.stop = none) : Unmoved id r r' := by
  have htodo : ∀ t ∈ r.batch, r.task? t.node.id = some t := fun t ht =>
    task?_of_mem h.good.sound.tasks_nodup (mem_batch.1 ht).1
  cases he with
  | launch now hb => exact absurd hb.tasks h.tasks
  | resume now hu hx hne => exact h.unmoved_resume now hne
  | ring hu ht ha hne => exact h.unmoved_ring ht ha hne
  | gather now hu hf =>
    rcases h.gather now hlimit hf with ⟨-, -, hc⟩ | ⟨m, hm, heq⟩
    · exact hc.unmoved h.unfinished rfl h.stop htodo (fun t ht => h.good.sound.task?_unfinished ht) rfl
    · rw [heq] at hruns ⊢
      exact hm.unmoved h.ready_batch rfl htodo (fun t ht => h.good.sound.task?_unfinished ht) rfl hruns
  | cancel time => exact unmoved_cancel h.stop h.closable_cancel hruns

theorem Undisturbed.unmoved (hlimit : 0 < engine.limit) (h₀ : r₀.Unbegun) (h : Undisturbed engine r₀ id y r)
    (he : Elsewhere engine id r r') (hruns : r.Runs id → r'.stop = none) : Unmoved id r r' := by
  cases hf : r.isFinished with
  | false =>
    rcases underway_of_happens hlimit h₀ h.happens hf with rfl | ha
    · exact h₀.unmoved hlimit he hruns
    · exact ha.unmoved hlimit he hruns
  | true =>
    cases he with
    | launch now hb => exact absurd (hb.unfinished.symm.trans hf) Bool.false_ne_true
    | resume now hu => exact absurd (hu.symm.trans hf) Bool.false_ne_true
    | ring hu => exact absurd (hu.symm.trans hf) Bool.false_ne_true
    | gather now hu => exact absurd (hu.symm.trans hf) Bool.false_ne_true
    | cancel time => exact unmoved_cancel_of_finished hf

end

end Run

end Flowgraph
