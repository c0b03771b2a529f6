import Flowgraph.Proofs.Run.Passage
import Flowgraph.Proofs.Run.Verdict

/-! What a run does at once can be taken apart into moves. A stop that cancels the tasks in flight, marks them and
completes the run is the end of a longer story, in which nothing else happens meanwhile; so whatever is shown of all
stories holds of the runs that are executed. -/

namespace Flowgraph

open Relation (ReflTransGen)

theorem Front.pulses_of_beats {time : Moment} {f g : Front} (h : ReflTransGen (Front.Beat time) f g) :
    f.Pulses time [] g := by
  induction h with
  | refl => exact .refl
  | tail _ hb ih => exact ih.beat hb

namespace Run

section
variable {engine : Engine} {lenient cancelled raised : Bool} {w : Workflow} {begun now : Nat} {time : Moment}
  {r₀ r r' b q : Run} {f : Front} {t : Task} {stop : Stop}

/-! Stopped runs -/

/-- In a stopped run handling a task does not look at which tasks are left and which nodes are ready. -/
theorem handle_withTasks (hstop : b.stop = some stop) (hover : t.phase.isOver = true) (tasks : List Task)
    (ready : List String) :
    Run.handle time { b with tasks, ready } t = { b.handle time t with tasks, ready } := by
  rcases Phase.isOver_iff.1 hover with ⟨failed, hp⟩ | hp
  · have hstop' : ({ b with tasks, ready } : Run).stop = some stop := hstop
    rw [handle_of_stopped hstop hp, handle_of_stopped hstop' hp]
  · rw [handle_unwound _ hp, handle_unwound _ hp]
    rfl

theorem handle_of_over (time : Moment) (hstop : b.stop = some stop) (hover : t.phase.isOver = true) :
    (b.handle time t).stop = some stop ∧ (b.handle time t).tasks = b.tasks ∧
      (b.handle time t).isFinished = b.isFinished ∧ b.handle time t = b.interrupt time t := by
  unfold interrupt
  rcases Phase.isOver_iff.1 hover with ⟨failed, hp⟩ | hp
  · rw [handle_of_stopped hstop hp, hp]
    exact ⟨hstop, rfl, rfl, rfl⟩
  · rw [handle_unwound _ hp, unwind, hp]
    exact ⟨hstop, rfl, rfl, rfl⟩

theorem without_of_nodup {before after : List Task} (hn : ((before ++ t :: after).map fun t => t.node.id).Nodup) :
    Run.without { b with tasks := before ++ t :: after } t = { b with tasks := before ++ after } := by
  rw [List.map_append, List.map_cons, List.nodup_append, List.nodup_cons] at hn
  obtain ⟨-, ⟨hafter, -⟩, hbefore⟩ := hn
  have hkeep : ∀ {l : List Task}, (∀ u ∈ l, u.node.id ≠ t.node.id) →
      l.filter (fun u => u.node.id ≠ t.node.id) = l := fun h =>
    List.filter_eq_self.2 fun u hu => by simpa using h u hu
  have htasks : (before ++ t :: after).filter (fun u => u.node.id ≠ t.node.id) = before ++ after := by
    rw [List.filter_append, List.filter_cons_of_neg (by simp), hkeep, hkeep]
    · exact fun u hu hid => hafter (hid ▸ List.mem_map_of_mem hu)
    · exact fun u hu hid => hbefore _ (List.mem_map_of_mem hu) _ (List.mem_cons_self ..) hid
  exact congrArg (fun tasks => ({ b with tasks } : Run)) htasks

/-- A task that is over is marked, and those before and behind it are left. -/
theorem moves_pick {before after : List Task} (ready : List String) (hstop : b.stop = some stop)
    (hu : b.isFinished = false) (hn : ((before ++ t :: after).map fun t => t.node.id).Nodup)
    (hover : t.phase.isOver = true) :
    Moves engine lenient now (scene { b with tasks := before ++ t :: after, ready }) .passes
      (scene { b.interrupt (engine.moment now) t with tasks := before ++ after, ready }) := by
  have hstopped : b.stopped = true := by rw [Run.stopped, hstop]; rfl
  have ht : t ∈ before ++ t :: after := List.mem_append_right _ (List.mem_cons_self ..)
  have hpick : Moves engine lenient now (scene { b with tasks := before ++ t :: after, ready }) _ _ :=
    .pick hstopped hu ht hover
  rw [run_scene, without_of_nodup (b := { b with ready }) hn, handle_withTasks hstop hover,
    (handle_of_over _ hstop hover).2.2.2] at hpick
  exact hpick

/-- Tasks that are over are marked one by one. -/
theorem passes_picks (todo : List Task) (ready : List String) (hstop : b.stop = some stop)
    (hu : b.isFinished = false) (hn : ((b.tasks ++ todo).map fun t => t.node.id).Nodup)
    (hover : ∀ t ∈ todo, t.phase.isOver = true) :
    Passes engine lenient now (scene { b with tasks := b.tasks ++ todo, ready })
      (scene { todo.foldl (Run.handle (engine.moment now)) b with ready }) := by
  induction todo generalizing b with
  | nil =>
    rw [List.append_nil]
    exact .refl
  | cons t rest ih =>
    have ht := hover t (List.mem_cons_self ..)
    obtain ⟨hstop', htasks, hu', heq⟩ := handle_of_over (engine.moment now) hstop ht
    have hrest := ih hstop' (hu'.trans hu) (by
      rw [htasks]
      refine hn.sublist (List.Sublist.map _ ?_)
      exact List.Sublist.append_left (List.sublist_cons_self t rest) _) fun u hu => hover u (List.mem_cons_of_mem _ hu)
    rw [htasks, heq] at hrest
    rw [List.foldl_cons, heq]
    exact .head (moves_pick ready hstop hu hn ht) hrest

theorem map_setPhase {rest : List Task} (p : Phase) (hn : ((t :: rest).map fun t => t.node.id).Nodup) :
    ((t :: rest).map fun u => if u.node.id = t.node.id then { u with phase := p } else u) =
      { t with phase := p } :: rest := by
  rw [List.map_cons, List.nodup_cons] at hn
  rw [List.map_cons, if_pos rfl]
  refine congrArg _ ?_
  conv_rhs => rw [← List.map_id rest]
  exact List.map_congr_left fun u hu => if_neg fun hid : u.node.id = t.node.id =>
    hn.1 (hid ▸ List.mem_map_of_mem hu)

theorem unwind_withTasks {rest : List Task} {ready : List String} (time : Moment)
    (hn : ((t :: rest).map fun t => t.node.id).Nodup) (hover : t.phase.isOver = false) :
    Run.unwind time t { b with tasks := t :: rest, ready } =
      { b.unwind time t with tasks := { t with phase := .unwound } :: rest, ready } := by
  have hleft : ∀ r : Run, Run.setPhase { r with tasks := t :: rest, ready } t.node.id .unwound =
      { r with tasks := { t with phase := .unwound } :: rest, ready } := fun r =>
    congrArg (fun tasks => ({ r with tasks, ready } : Run)) (map_setPhase .unwound hn)
  unfold unwind
  split
  · exact hleft b
  · next hp => rw [hp] at hover; cases hover
  · next hp => rw [hp] at hover; cases hover
  · exact hleft (Run.editEntry { b with scope := b.scope.exit t.node.id } t.node.id fun e =>
      { e with endTime := some time })

theorem interrupt_of_not_over (hover : t.phase.isOver = false) :
    b.interrupt time t = (b.unwind time t).markInterrupted time t.node.id := by
  unfold interrupt
  split
  · next hp => rw [hp] at hover; cases hover
  · rfl

theorem unwind_frame (b : Run) (time : Moment) (t : Task) :
    (b.unwind time t).stop = b.stop ∧ (b.unwind time t).isFinished = b.isFinished ∧
      (b.unwind time t).ready = b.ready := by
  unfold unwind
  split <;> exact ⟨rfl, rfl, rfl⟩

theorem interrupt_frame (b : Run) (time : Moment) (t : Task) :
    (b.interrupt time t).stop = b.stop ∧ (b.interrupt time t).isFinished = b.isFinished ∧
      (b.interrupt time t).ready = b.ready := by
  unfold interrupt
  split
  · exact ⟨rfl, rfl, rfl⟩
  · exact unwind_frame b time t

/-- A task leaves, unless it is over already, and is marked. -/
theorem passes_interrupt {rest : List Task} {ready : List String} (hstop : b.stop = some stop)
    (hu : b.isFinished = false) (hn : ((t :: rest).map fun t => t.node.id).Nodup) :
    Passes engine lenient now (scene { b with tasks := t :: rest, ready })
      (scene { b.interrupt (engine.moment now) t with tasks := rest, ready }) := by
  cases hover : t.phase.isOver with
  | true =>
    have hfirst : ((([] : List Task) ++ t :: rest).map fun t => t.node.id).Nodup := hn
    exact .single (moves_pick ready hstop hu hfirst hover)
  | false =>
    obtain ⟨hstop', hu', -⟩ := unwind_frame b (engine.moment now) t
    have hstopped : b.stopped = true := by rw [Run.stopped, hstop]; rfl
    have hdeliver : Moves engine lenient now (scene { b with tasks := t :: rest, ready }) .passes
        (scene (Run.unwind (engine.moment now) t { b with tasks := t :: rest, ready })) :=
      .deliver hstopped hu (List.mem_cons_self ..) hover
    rw [unwind_withTasks _ hn hover] at hdeliver
    have hleft : ((([] : List Task) ++ { t with phase := .unwound } :: rest).map fun t => t.node.id).Nodup := hn
    have hpick : Moves engine lenient now _ _ _ :=
      moves_pick (b := b.unwind (engine.moment now) t) ready (hstop'.trans hstop) (hu'.trans hu) hleft rfl
    rw [interrupt_of_not_over hover]
    exact (ReflTransGen.single hdeliver).tail hpick

theorem passes_interrupts (tasks : List Task) (ready : List String) (hstop : b.stop = some stop)
    (hu : b.isFinished = false) (hn : (tasks.map fun t => t.node.id).Nodup) :
    Passes engine lenient now (scene { b with tasks, ready })
      (scene { tasks.foldl (Run.interrupt (engine.moment now)) b with tasks := [], ready }) := by
  induction tasks generalizing b with
  | nil => exact .refl
  | cons t rest ih =>
    obtain ⟨hstop', hu', -⟩ := interrupt_frame b (engine.moment now) t
    rw [List.foldl_cons]
    refine (passes_interrupt hstop hu hn).trans (ih (hstop'.trans hstop) (hu'.trans hu) ?_)
    rw [List.map_cons, List.nodup_cons] at hn
    exact hn.2

theorem interrupts_frame (tasks : List Task) (b : Run) (time : Moment) :
    (tasks.foldl (Run.interrupt time) b).stop = b.stop ∧
      (tasks.foldl (Run.interrupt time) b).isFinished = b.isFinished ∧
      (tasks.foldl (Run.interrupt time) b).ready = b.ready := by
  induction tasks generalizing b with
  | nil => exact ⟨rfl, rfl, rfl⟩
  | cons t rest ih =>
    obtain ⟨hstop, hu, hready⟩ := interrupt_frame b time t
    obtain ⟨hstop', hu', hready'⟩ := ih (b.interrupt time t)
    exact ⟨hstop'.trans hstop, hu'.trans hu, hready'.trans hready⟩

/-- A stopped run winds down in moves, and comes to where it is brought at once. -/
theorem passes_complete (hstop : r.stop = some stop) (hu : r.isFinished = false) (hn : r.taskIds.Nodup) :
    Passes engine lenient now r.scene (r.complete (engine.moment now)).scene := by
  have hleft : Passes engine lenient now r.scene _ := passes_interrupts (b := r) r.tasks r.ready hstop hu hn
  obtain ⟨hstop', hu', hready⟩ := interrupts_frame r.tasks r (engine.moment now)
  set q := r.tasks.foldl (Run.interrupt (engine.moment now)) r
  have hstopped : q.stopped = true := by rw [Run.stopped, hstop', hstop]; rfl
  have hfinish : Moves engine lenient now (scene { q with tasks := [], ready := r.ready }) .passes
      (scene (Run.complete (engine.moment now) { q with tasks := [], ready := r.ready })) :=
    .finish hstopped (hu'.trans hu) rfl
  have heq : Run.complete (engine.moment now) { q with tasks := [], ready := r.ready } =
      r.complete (engine.moment now) := by
    have hdrain : Run.drain (engine.moment now) { q with tasks := [], ready := r.ready } =
        r.drain (engine.moment now) := by
      have hdrained : r.drain (engine.moment now) = { q with tasks := [], agenda := [] } := by
        rw [drain, hstop]
      rw [hdrained, drain, hstop', hstop, ← hready]
      rfl
    have hu'' : Run.isFinished { q with tasks := [], ready := r.ready } = false := hu'.trans hu
    rw [complete, complete, hu, hu'', hdrain, if_neg Bool.false_ne_true, if_neg Bool.false_ne_true]
  rw [heq] at hfinish
  exact hleft.tail hfinish

/-! What a run does at once -/

/-- A front that is handled at once, and then the run goes on or ends. -/
theorem BatchEnd.story {r q : Run} {f : Front} (hend : BatchEnd (engine.moment now) f q) (ho : Opens r f)
    (hf : Ready engine w f) (hnode : ∀ t ∈ f.todo, f.run.graph.node? t.node.id = some t.node)
    (h : Story engine lenient r₀ begun now cancelled raised r.scene) :
    ∃ raised, Story engine lenient r₀ begun now cancelled raised (q.proceed engine now).scene := by
  cases hend with
  | @calm q order hb hr =>
    exact ⟨raised, h.passes (.single (.handle (q := q) ho (Front.pulses_of_beats hb) hr))⟩
  | @halted m reason hb hs order =>
    have hp := Front.pulses_of_beats hb
    have hw : Winding engine w (haltedAt m reason order) := hf.winding hp hnode
    have hgood : m.Good := hf.good.beats hb
    have hstop := Front.halt_stop (engine.moment now) reason hgood.live
    have hhalt : Moves engine lenient now r.scene _ (haltedAt m reason order).scene := .halt ho hp hs
    have hpicks : Passes engine lenient now (haltedAt m reason order).scene
        (scene { m.halt (engine.moment now) reason with ready := order }) :=
      passes_picks (b := { m.run with stop := some ⟨.failed, reason⟩ }) m.todo order rfl hw.unfinished
        hw.sound.tasks_nodup fun t ht => (hgood.live.todo t ht).1
    have hh := Front.halt_handled (engine.moment now) reason hgood.live
    set q : Run := { m.halt (engine.moment now) reason with ready := order }
    have hends : Passes engine lenient now q.scene (q.proceed engine now).scene := by
      have hnodup : q.taskIds.Nodup := by
        have htasks : q.tasks = m.run.tasks := hh.tasks
        rw [taskIds, htasks]
        exact hw.sound.tasks_nodup.sublist ((List.sublist_append_left _ _).map _)
      have hproceed : q.proceed engine now = q.complete (engine.moment now) :=
        if_pos (by rw [Run.stopped, hstop]; rfl)
      rw [hproceed]
      exact passes_complete hstop (hh.isFinished.trans hw.unfinished) hnodup
    have hhalted := h.moves hhalt
    have hmark : ∀ m : Mark, m ≠ .asks → Decidable.decide (m = .asks) = false := fun _ => decide_eq_false
    rw [hmark _ (by split <;> simp), Bool.false_and, Bool.false_and, Bool.or_false] at hhalted
    exact ⟨_, hhalted.passes (hpicks.trans hends)⟩

theorem Story.finished (h : Story engine lenient r₀ begun now cancelled raised r.scene) (hf : r.isFinished = true) :
    Story engine lenient r₀ begun now cancelled raised (r.cancel (engine.moment now)).scene := by
  have hasked := h.moves .request
  rw [run_scene, hf, Bool.not_true, Bool.and_false, Bool.or_false, decide_eq_false (by simp), Bool.or_false] at hasked
  rw [cancel_eq_stopWith _ hf]
  exact hasked

/-- A cancellation that is carried out at once. -/
theorem Story.cancels (h : Story engine lenient r₀ begun now cancelled raised r.scene) (hu : r.isFinished = false)
    (hstop : r.stop = none) (hn : r.taskIds.Nodup) :
    Story engine lenient r₀ begun now true raised (r.cancel (engine.moment now)).scene := by
  have hasked := h.asks hstop hu
  have hq : r.stopWith .cancelled cancelReason = { r with stop := some ⟨.cancelled, cancelReason⟩ } :=
    stopWith_of_none hstop
  rw [run_scene, hq] at hasked
  rw [cancel_eq hstop]
  exact hasked.passes (passes_complete (r := { r with stop := some ⟨.cancelled, cancelReason⟩ }) rfl hu hn)

theorem Underway.stage (h₀ : r₀.Unbegun) (h : Underway engine r₀ r) : Stage engine r₀.workflow r := by
  rcases h with rfl | ha
  · exact .first h₀ rfl
  · exact .active ha

theorem Underway.unstopped (h₀ : r₀.Unbegun) (h : Underway engine r₀ r) : r.stop = none := by
  rcases h with rfl | ha
  · exact h₀.stop
  · exact ha.stop

/-- Whatever occurs at once to a run that has not finished is the end of a story. -/
theorem Occurs.story (h₀ : r₀.Unbegun) (hunder : r.isFinished = false → Underway engine r₀ r)
    (ho : Occurs engine now r r') (h : Story engine lenient r₀ begun now cancelled raised r.scene) :
    ∃ cancelled raised, Story engine lenient r₀ begun now cancelled raised r'.scene := by
  have hopens : ∀ {f : Front} {q : Run}, Opens r f → BatchEnd (engine.moment now) f q →
      ∃ cancelled raised, Story engine lenient r₀ begun now cancelled raised (q.proceed engine now).scene :=
    fun ho hend => by
      have hstage := (hunder ho.unfinished).stage h₀
      have hf := hstage.ready ho
      exact ⟨cancelled, hend.story ho hf (ho.todo_node (ho.sound hf.good hstage)) h⟩
  cases ho with
  | launch hb => exact hopens (.first hb) (BatchEnd.of_yields (Front.admitAll_yields hb.good hb.stop))
  | gather hu hf =>
    have hunder := hunder hu
    rcases hunder with rfl | ha
    · rw [h₀.tasks] at hf
      cases hf
    · exact hopens (.batch ha.stop hu hf) (handleBatch_ends _ ha.good ha.stop)
  | resume hu hid => exact ⟨_, _, h.passes (.single (.resume ((hunder hu).unstopped h₀) hu hid))⟩
  | ring hu ht ha => exact ⟨_, _, h.passes (.single (.ring ((hunder hu).unstopped h₀) hu ht ha))⟩
  | cancel =>
    cases hf : r.isFinished with
    | true => exact ⟨_, _, h.finished hf⟩
    | false =>
      have hunder := hunder hf
      exact ⟨_, _, h.cancels hf (hunder.unstopped h₀) ((hunder.stage h₀).sound hf).tasks_nodup⟩

theorem Reaches.story (lenient : Bool) (hlimit : 0 < engine.limit) (h₀ : r₀.Unbegun)
    (h : Reaches engine r₀ begun now r) :
    ∃ cancelled raised, Story engine lenient r₀ begun now cancelled raised r.scene := by
  induction h with
  | start => exact ⟨_, _, .start⟩
  | waits _ hle ih =>
    obtain ⟨cancelled, raised, hs⟩ := ih
    exact ⟨_, _, hs.waits hle⟩
  | occurs hpast ho ih =>
    obtain ⟨cancelled, raised, hs⟩ := ih
    exact ho.story h₀ (underway_of_happens hlimit h₀ hpast.happens) hs

/-- The log of a run that is executed to its end is that of the end of a story. -/
theorem exists_story_execute (lenient : Bool) (hlimit : 0 < engine.limit) (w : Workflow) (inputs secrets : Fields)
    (executionId : String) (now : Nat) :
    ∃ later cancelled raised s, Story engine lenient (start w inputs secrets executionId (engine.moment now)) now later
      cancelled raised s ∧ engine.execute w inputs secrets executionId now = s.run.log := by
  have h₀ := unbegun_start w inputs secrets executionId (engine.moment now)
  obtain ⟨later, hreaches⟩ := h₀.reaches_advance hlimit now none
  obtain ⟨cancelled, raised, hstory⟩ := hreaches.story lenient hlimit h₀
  exact ⟨later, cancelled, raised, _, hstory, rfl⟩

end

end Run

end Flowgraph
