import Flowgraph.Proofs.Run.Shift

/-! A run that is put off takes the same turns, as much later, from its launch to its end. -/

namespace Flowgraph

namespace Run

section
variable (d : Nat) (r : Run) (engine : Engine) (now : Nat)

/-! Deciding -/

theorem pathsOpen_later (satisfied : Bool) (l : List Edge) :
    (r.later d).pathsOpen satisfied l = r.pathsOpen satisfied l := by
  induction l generalizing satisfied with
  | nil => rfl
  | cons e rest ih =>
    have hstate : (r.later d).edgeState e = r.edgeState e := rfl
    have hgate : (r.later d).gateHolds e = r.gateHolds e := rfl
    simp only [pathsOpen, hstate, hgate, ih]

theorem decide_later (id : String) : (r.later d).decide id = r.decide id := by
  simp only [decide, pathsOpen_later, later_graph, later_scope]

theorem resolveTargets_later (ids : List String) :
    (r.later d).resolveTargets ids = ((r.resolveTargets ids).1.later d, (r.resolveTargets ids).2) := by
  induction ids generalizing r with
  | nil => rfl
  | cons id rest ih =>
    have hone : (r.later d).resolveOne id = ((r.resolveOne id).1.later d, (r.resolveOne id).2) := rfl
    simp only [resolveTargets, hone, ih]

theorem resolveOutgoing_later (id : String) (status : NodeStatus) :
    (r.later d).resolveOutgoing id status =
      ((r.resolveOutgoing id status).1.later d, (r.resolveOutgoing id status).2) :=
  resolveTargets_later d (r.settleEdges id status) (r.graph.targets id)

theorem skip_later (id : String) : (r.later d).skip id = (r.skip id).later d :=
  addEntry_later d r { nodeId := id, status := .skipped }

theorem decideAll_later (steps : Nat) (ids : List String) :
    decideAll steps ids (r.later d) = (decideAll steps ids r).later d := by
  induction steps generalizing ids r with
  | zero => cases ids <;> rfl
  | succ steps ih =>
    cases ids with
    | nil => rfl
    | cons id rest =>
      rw [decideAll, decideAll, decide_later]
      cases r.decide id with
      | error f => exact stopWith_later d r _ _
      | ok runs =>
        cases runs with
        | true => exact ih { r with ready := r.ready ++ [id] } rest
        | false =>
          dsimp only
          rw [skip_later, resolveOutgoing_later]
          exact ih _ _

theorem admitAll_later (ids : List String) : (r.later d).admitAll ids = (r.admitAll ids).later d :=
  decideAll_later d r _ _

/-! Handling and starting -/

/-- Steps that can be put off one by one can be put off together. -/
theorem foldl_later {α β : Type} (put : α → β) {f : Run → β → Run} {g : Run → α → Run}
    (h : ∀ q a, f (q.later d) (put a) = (g q a).later d) (l : List α) (r : Run) :
    (l.map put).foldl f (r.later d) = (l.foldl g r).later d := by
  induction l generalizing r with
  | nil => rfl
  | cons a rest ih => rw [List.map_cons, List.foldl_cons, List.foldl_cons, h, ih]

theorem entry?_bind_later {α : Type} (id : String) {f : NodeLog → Option α} (h : ∀ e, f (e.later d) = f e) :
    (Run.entry? (r.later d) id).bind f = (Run.entry? r id).bind f := by
  rw [entry?_later]
  cases r.entry? id with
  | none => rfl
  | some e => exact h e

theorem handle_later (time : Moment) (t : Task) :
    (r.later d).handle (time.later d) (t.later d) = (r.handle time t).later d := by
  have herror : (Run.entry? (r.later d) t.node.id).bind NodeLog.error =
      (Run.entry? r t.node.id).bind NodeLog.error :=
    entry?_bind_later d r _ fun _ => rfl
  have hite : ∀ (b : Bool) (p q : Run), (if b = true then p.later d else q.later d) =
      (if b = true then p else q).later d := fun b _ _ => by cases b <;> rfl
  unfold handle
  rw [Task.later_node, Task.later_phase]
  cases t.phase with
  | finished failed =>
    simp only [Phase.later, later_graph, later_workflow, herror, stopWith_later, hite, later_stopped,
      resolveOutgoing_later, admitAll_later]
  | _ => exact markInterrupted_later d r time t.node.id

theorem batch_later : (r.later d).batch = r.batch.map (Task.later d) := by
  have hfilter : (r.later d).tasks.filter Task.isFinished =
      (r.tasks.filter Task.isFinished).map (Task.later d) := by
    simp only [later, List.filter_map, Function.comp_def, Task.isFinished_later]
  unfold batch
  rw [hfilter]
  exact (List.map_mergeSort (f := Task.later d) fun _ _ _ _ => rfl).symm

theorem handleBatch_later (time : Moment) : (r.later d).handleBatch (time.later d) = (r.handleBatch time).later d := by
  have hrest : ({ r.later d with tasks := (r.later d).tasks.filter fun t => !t.isFinished } : Run) =
      Run.later d { r with tasks := r.tasks.filter fun t => !t.isFinished } := by
    simp only [later, List.filter_map, Function.comp_def, Task.isFinished_later]
  unfold handleBatch
  dsimp only
  rw [hrest, batch_later, foldl_later d (Task.later d) fun q t => handle_later d q time t]
  rfl

theorem startNode_later (time : Moment) (id : String) :
    (r.later d).startNode (time.later d) id = (r.startNode time id).later d := by
  unfold startNode
  rw [later_graph]
  cases r.graph.node? id with
  | none => rfl
  | some n =>
    have hentry := addEntry_later d r { nodeId := id, status := .running, startTime := some time }
    simp only [NodeLog.later, Option.map_some, Option.map_none] at hentry
    dsimp only
    rw [hentry]
    simp only [enqueue, later, List.map_append, List.map_cons, List.map_nil]
    rfl

theorem startReady_later (limit : Nat) (time : Moment) (steps : Nat) :
    startReady limit (time.later d) steps (r.later d) = (startReady limit time steps r).later d := by
  induction steps generalizing r with
  | zero => rfl
  | succ steps ih =>
    have hlength : (r.later d).tasks.length = r.tasks.length := List.length_map _
    rw [startReady, startReady, later_ready, hlength]
    cases r.ready with
    | nil => rfl
    | cons id rest =>
      have hstart := startNode_later d { r with ready := rest } time id
      dsimp only
      split_ifs
      · rw [← ih, ← hstart]
        rfl
      · rfl

/-! Ending -/

theorem interrupt_later (time : Moment) (t : Task) :
    (r.later d).interrupt (time.later d) (t.later d) = (r.interrupt time t).later d := by
  unfold interrupt unwind
  rw [Task.later_node, Task.later_phase]
  cases t.phase with
  | finished failed => rfl
  | fresh =>
    have hphase := setPhase_later d r t.node.id .unwound
    dsimp only [Phase.later] at hphase ⊢
    rw [hphase, markInterrupted_later]
  | unwound => exact markInterrupted_later d r time t.node.id
  | _ =>
    have hclose := close_later d r t.node.id time .unwound
    dsimp only [Phase.later] at hclose ⊢
    rw [hclose, markInterrupted_later]

theorem drain_later (time : Moment) : (r.later d).drain (time.later d) = (r.drain time).later d := by
  unfold drain
  rw [later_stop]
  cases r.stop with
  | none => rfl
  | some stop =>
    dsimp only
    rw [later_tasks, foldl_later d (Task.later d) fun q t => interrupt_later d q time t]
    rfl

theorem skipPending_later : (r.later d).skipPending = r.skipPending.later d := by
  let skipOne (r : Run) (id : String) : Run := if (r.entry? id).isSome then r else r.skip id
  have hskip : ∀ (q : Run) (id : String), skipOne (q.later d) id = (skipOne q id).later d := by
    intro q id
    dsimp only [skipOne]
    rw [entry?_later, Option.isSome_map, skip_later]
    split_ifs <;> rfl
  have hfold : ∀ order : List String, order.foldl skipOne (r.later d) = (order.foldl skipOne r).later d := by
    intro order
    have hmap := foldl_later d (fun id : String => id) hskip order r
    rwa [List.map_id'] at hmap
  exact hfold _

theorem failedNodes_later : (r.later d).failedNodes = r.failedNodes := by
  simp only [failedNodes, later, ExecutionLog.later, List.filter_map, List.map_map]
  rfl

theorem finalize_later (time : Moment) : (r.later d).finalize (time.later d) = (r.finalize time).later d := by
  unfold finalize
  rw [later_stop, failedNodes_later]
  cases r.stop with
  | some stop => rfl
  | none =>
    dsimp only
    split_ifs <;> rfl

theorem complete_later (time : Moment) : (r.later d).complete (time.later d) = (r.complete time).later d := by
  unfold complete
  rw [isFinished_later]
  split_ifs
  · rfl
  · rw [drain_later, skipPending_later, finalize_later]

theorem cancel_later (time : Moment) : (r.later d).cancel (time.later d) = (r.cancel time).later d := by
  unfold cancel halt
  rw [stopWith_later, complete_later]

/-! Turns -/

theorem proceed_later : (r.later d).proceed engine (now + d) = (r.proceed engine now).later d := by
  unfold proceed
  dsimp only
  rw [later_stopped, later_ready, Engine.moment_add, complete_later, startReady_later, complete_later]
  have hempty : ∀ q : Run, (q.later d).tasks.isEmpty = q.tasks.isEmpty := fun q => List.isEmpty_map
  rw [hempty]
  split_ifs <;> rfl

theorem launch_later : (r.later d).launch engine (now + d) = (r.launch engine now).later d := by
  unfold launch
  rw [later_graph, admitAll_later, proceed_later]

theorem isBusy_later : (r.later d).isBusy = r.isBusy := by
  have hany : (r.later d).tasks.any Task.isFinished = r.tasks.any Task.isFinished := by
    simp only [later, List.any_map, Function.comp_def, Task.isFinished_later]
  unfold isBusy
  rw [hany]
  rfl

theorem turn_later : (r.later d).turn engine (now + d) = (r.turn engine now).later d := by
  unfold turn
  rw [later_agenda]
  cases r.agenda with
  | nil =>
    dsimp only
    rw [Engine.moment_add, handleBatch_later, proceed_later]
  | cons id rest =>
    have htask := task?_later d { r with agenda := rest } id
    dsimp only
    cases ht : ({ r with agenda := rest } : Run).task? id with
    | none =>
      rw [ht] at htask
      have hnone : ({ r.later d with agenda := rest } : Run).task? id = none := htask
      rw [hnone]
      rfl
    | some t =>
      rw [ht] at htask
      have hsome : ({ r.later d with agenda := rest } : Run).task? id = some (t.later d) := htask
      rw [hsome]
      exact goOn_later d { r with agenda := rest } engine now t

theorem settle_later (steps : Nat) :
    settle engine (now + d) steps (r.later d) = (settle engine now steps r).later d := by
  induction steps generalizing r with
  | zero => rfl
  | succ steps ih =>
    rw [settle, settle, isBusy_later, turn_later, ih]
    split_ifs <;> rfl

theorem begin_later : (r.later d).begin engine (now + d) = (r.begin engine now).later d := by
  unfold Run.begin
  rw [later_turns, launch_later, settle_later]

/-! Time -/

theorem alarms_later : (r.later d).alarms = r.alarms.map fun a => (a.1.later d, a.2.later d) := by
  have hset : ((r.later d).tasks.flatMap fun t => t.alarms.map fun a => (a, t)) =
      (r.tasks.flatMap fun t => t.alarms.map fun a => (a, t)).map fun a => (a.1.later d, a.2.later d) := by
    simp only [later, List.flatMap_map, List.map_flatMap, Task.alarms_later, List.map_map]
    rfl
  unfold alarms
  rw [hset]
  exact (List.map_mergeSort fun a _ b _ => (Alarm.before_later d a.1 b.1).symm).symm

theorem nextDue?_later : (r.later d).nextDue? = r.nextDue?.map (· + d) := by
  unfold nextDue?
  rw [isFinished_later, alarms_later]
  split_ifs
  · rfl
  · rw [List.head?_map, Option.map_map, Option.map_map]
    rfl

def ringOne (engine : Engine) (r : Run) (a : Alarm × Task) : Run :=
  match r.task? a.2.node.id with
  | some t => r.ring engine t a.1
  | none => r

theorem ringOne_later (a : Alarm × Task) :
    ringOne engine (r.later d) (a.1.later d, a.2.later d) = (ringOne engine r a).later d := by
  unfold ringOne
  rw [Task.later_node, task?_later]
  cases r.task? a.2.node.id with
  | none => rfl
  | some t => exact ring_later d r engine t a.1

theorem ringDue_later : (r.later d).ringDue engine (now + d) = (r.ringDue engine now).later d := by
  have hfilter : (r.later d).alarms.filter (fun a => Decidable.decide (a.1.due ≤ now + d)) =
      (r.alarms.filter fun a => Decidable.decide (a.1.due ≤ now)).map fun a => (a.1.later d, a.2.later d) := by
    simp only [alarms_later, List.filter_map, Function.comp_def, Alarm.later, Nat.add_le_add_iff_right]
  unfold ringDue
  rw [hfilter]
  exact foldl_later d (fun a : Alarm × Task => (a.1.later d, a.2.later d)) (fun q a => ringOne_later d q engine a) _ r

theorem wake_later : (r.later d).wake engine (now + d) = (r.wake engine now).later d := by
  unfold wake
  rw [later_turns, ringDue_later, settle_later]

theorem runTo_later (horizon : Option Nat) (steps : Nat) :
    Run.runTo engine (horizon.map (· + d)) steps (r.later d) = (Run.runTo engine horizon steps r).later d := by
  induction steps generalizing r with
  | zero => rfl
  | succ steps ih =>
    rw [Run.runTo, Run.runTo, nextDue?_later]
    cases r.nextDue? with
    | none => rfl
    | some now =>
      have hle : (horizon.map (· + d)).all (now + d ≤ ·) = horizon.all (now ≤ ·) := by
        cases horizon with
        | none => rfl
        | some h => simp
      dsimp only [Option.map_some]
      rw [hle, wake_later, ih]
      split_ifs <;> rfl

/-- A run that is put off goes on as before, as much later. -/
theorem advance_later (horizon : Option Nat) :
    (r.later d).advance engine (horizon.map (· + d)) = (r.advance engine horizon).later d :=
  runTo_later d r engine horizon _

end

/-- A run that starts later starts as before, as much later. -/
theorem start_later (d : Nat) (w : Workflow) (inputs secrets : Fields) (executionId : String) (time : Moment) :
    Run.start w inputs secrets executionId (time.later d) = (Run.start w inputs secrets executionId time).later d := rfl

end Run

theorem refusal_later (d : Nat) (executionId workflowId : String) (problems : List String) (time : Moment) :
    refusal executionId workflowId problems (time.later d) =
      (refusal executionId workflowId problems time).later d := rfl

end Flowgraph
