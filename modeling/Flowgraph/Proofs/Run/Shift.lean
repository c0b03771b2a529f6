import Flowgraph.Proofs.Run.View

/-! Runs do not look at the clock. A run that is put off by some time does all that it did before, as much
later: its alarms ring later, its log shows later times, and nothing else changes. -/

namespace Flowgraph

/-! Putting off -/

def NodeLog.later (d : Nat) (e : NodeLog) : NodeLog :=
  { e with startTime := e.startTime.map fun m => m.later d, endTime := e.endTime.map fun m => m.later d }

def ExecutionLog.later (d : Nat) (log : ExecutionLog) : ExecutionLog :=
  { log with
    startTime := log.startTime.later d
    endTime := log.endTime.map fun m => m.later d
    nodeLogs := log.nodeLogs.map (NodeLog.later d) }

def Alarm.later (d : Nat) (a : Alarm) : Alarm :=
  { a with due := a.due + d }

def Phase.later (d : Nat) : Phase → Phase
  | .calling attempt limit => .calling attempt (limit.later d)
  | .working attempt act wake limit => .working attempt act (wake.map (Alarm.later d)) (limit.later d)
  | .resting attempt wake => .resting attempt (wake.map (Alarm.later d))
  | p => p

def Task.later (d : Nat) (t : Task) : Task :=
  { t with phase := t.phase.later d }

def Run.later (d : Nat) (r : Run) : Run :=
  { r with log := r.log.later d, tasks := r.tasks.map (Task.later d) }

@[simp] theorem Task.later_node (d : Nat) (t : Task) : (t.later d).node = t.node := rfl

@[simp] theorem Task.later_inputs (d : Nat) (t : Task) : (t.later d).inputs = t.inputs := rfl

@[simp] theorem Task.later_credentials (d : Nat) (t : Task) : (t.later d).credentials = t.credentials := rfl

@[simp] theorem Task.later_phase (d : Nat) (t : Task) : (t.later d).phase = t.phase.later d := rfl

theorem Engine.moment_add (engine : Engine) (now d : Nat) : engine.moment (now + d) = (engine.moment now).later d := by
  simp only [Engine.moment, Moment.later, Moment.mk.injEq, and_true]
  omega

theorem Alarm.later_injective (d : Nat) : Function.Injective (Alarm.later d) := by
  rintro ⟨due, order⟩ ⟨due', order'⟩ h
  simp only [Alarm.later, Alarm.mk.injEq] at h ⊢
  omega

theorem Alarm.before_later (d : Nat) (a b : Alarm) : (a.later d).before (b.later d) = a.before b := by
  have hdue : a.due + d = b.due + d ↔ a.due = b.due := by omega
  have hlt : a.due + d < b.due + d ↔ a.due < b.due := by omega
  unfold Alarm.before Alarm.later
  simp only [hdue, hlt]

theorem Task.alarms_later (d : Nat) (t : Task) : (t.later d).alarms = t.alarms.map (Alarm.later d) := by
  unfold Task.alarms Task.later Phase.later
  cases t.phase with
  | working attempt act wake limit => cases wake <;> rfl
  | resting attempt wake => cases wake <;> rfl
  | _ => rfl

theorem Task.isFinished_later (d : Nat) (t : Task) : (t.later d).isFinished = t.isFinished := by
  unfold Task.isFinished Task.later Phase.later
  cases t.phase <;> rfl

namespace Run

section
variable (d : Nat) (r : Run)

@[simp] theorem later_workflow : (r.later d).workflow = r.workflow := rfl

@[simp] theorem later_graph : (r.later d).graph = r.graph := rfl

@[simp] theorem later_executionId : (r.later d).log.executionId = r.log.executionId := rfl

@[simp] theorem later_scope : (r.later d).scope = r.scope := rfl

@[simp] theorem later_ready : (r.later d).ready = r.ready := rfl

@[simp] theorem later_tasks : (r.later d).tasks = r.tasks.map (Task.later d) := rfl

@[simp] theorem later_agenda : (r.later d).agenda = r.agenda := rfl

@[simp] theorem later_stop : (r.later d).stop = r.stop := rfl

@[simp] theorem later_stopped : (r.later d).stopped = r.stopped := rfl

@[simp] theorem later_turns (engine : Engine) : (r.later d).turns engine = r.turns engine := rfl

/-! Elementary changes -/

theorem entry?_later (id : String) : Run.entry? (r.later d) id = (Run.entry? r id).map (NodeLog.later d) := by
  simp only [Run.entry?, ExecutionLog.nodeLog?, later, ExecutionLog.later, List.find?_map]
  rfl

theorem task?_later (id : String) : (r.later d).task? id = (r.task? id).map (Task.later d) := by
  simp only [task?, later, List.find?_map]
  rfl

theorem isFinished_later : (r.later d).isFinished = r.isFinished := rfl

theorem stopWith_later (status : RunStatus) (reason : String) :
    (r.later d).stopWith status reason = (r.stopWith status reason).later d := by
  unfold stopWith
  rw [later_stop]
  cases r.stop <;> rfl

theorem addEntry_later (e : NodeLog) : (r.later d).addEntry (e.later d) = (r.addEntry e).later d := by
  simp [addEntry, later, ExecutionLog.later]

theorem editEntry_later (id : String) {f g : NodeLog → NodeLog} (h : ∀ e, f (e.later d) = (g e).later d) :
    (r.later d).editEntry id f = (r.editEntry id g).later d := by
  have hmap : (r.log.nodeLogs.map (NodeLog.later d)).map (fun e => if e.nodeId = id then f e else e) =
      (r.log.nodeLogs.map fun e => if e.nodeId = id then g e else e).map (NodeLog.later d) := by
    rw [List.map_map, List.map_map]
    refine List.map_congr_left fun e _ => ?_
    have hid : (e.later d).nodeId = e.nodeId := rfl
    simp only [Function.comp_apply, hid]
    split_ifs
    · exact h e
    · rfl
  simp only [editEntry, later, ExecutionLog.later, hmap]

theorem mapTasks_later {f g : Task → Task} (h : ∀ t, f (t.later d) = (g t).later d) :
    (r.later d).tasks.map f = (r.tasks.map g).map (Task.later d) := by
  simp only [later, List.map_map]
  exact List.map_congr_left fun t _ => h t

theorem setPhase_later (id : String) (p : Phase) : (r.later d).setPhase id (p.later d) = (r.setPhase id p).later d := by
  have hmap := mapTasks_later d r (f := fun t => if t.node.id = id then { t with phase := p.later d } else t)
    (g := fun t => if t.node.id = id then { t with phase := p } else t) fun t => by
      have hid : (t.later d).node.id = t.node.id := rfl
      simp only [hid]
      split_ifs <;> rfl
  simp only [setPhase, hmap]
  rfl

theorem enqueue_later (id : String) : (r.later d).enqueue id = (r.enqueue id).later d := rfl

/-- A task that goes on in the present instant also goes on in a later one. -/
theorem requeue_later (id : String) (p : Phase) :
    ((r.later d).setPhase id (p.later d)).enqueue id = ((r.setPhase id p).enqueue id).later d := by
  rw [← enqueue_later, ← setPhase_later]

theorem close_later (id : String) (time : Moment) (p : Phase) :
    (r.later d).close id (time.later d) (p.later d) = (r.close id time p).later d := by
  unfold close
  have hscope : ({ r.later d with scope := (r.later d).scope.exit id } : Run) =
      Run.later d { r with scope := r.scope.exit id } := rfl
  dsimp only
  rw [hscope, editEntry_later d _ id (g := fun e => { e with endTime := some time }) fun _ => rfl]
  exact setPhase_later d _ id p

theorem failTask_later (id : String) (time : Moment) (f : Failure) :
    (r.later d).failTask id (time.later d) f = (r.failTask id time f).later d := by
  unfold failTask
  rw [editEntry_later d r id (g := fun e => { e with status := .failed, error := some f.describe }) fun _ => rfl]
  exact close_later d _ id time (.finished true)

theorem succeedTask_later (engine : Engine) (id : String) (time : Moment) (outputs : Fields) :
    (r.later d).succeedTask engine id (time.later d) outputs = (r.succeedTask engine id time outputs).later d := by
  unfold succeedTask
  have hscope : ({ r.later d with scope := (r.later d).scope.recordOutput id outputs } : Run) =
      Run.later d { r with scope := r.scope.recordOutput id outputs } := rfl
  dsimp only
  rw [hscope]
  cases engine.copyFault? (.object outputs) with
  | some f => exact failTask_later d _ id time f
  | none =>
    dsimp only
    rw [editEntry_later d _ id (g := fun e => { e with status := .success, outputs := some outputs }) fun _ => rfl]
    exact close_later d _ id time (.finished false)

theorem markInterrupted_later (time : Moment) (id : String) :
    (r.later d).markInterrupted (time.later d) id = (r.markInterrupted time id).later d := by
  refine editEntry_later d { r with lost := r.lost ++ [id] } id fun e => ?_
  have hstatus : (e.later d).status = e.status := rfl
  unfold NodeLog.interrupted
  rw [hstatus]
  split_ifs
  · obtain ⟨id, start, finish⟩ := e
    cases finish <;> rfl
  · rfl

/-! Attempts -/

variable (engine : Engine) (now : Nat)

theorem setAlarm_later (micros : Nat) :
    (r.later d).setAlarm (now + d) micros = ((r.setAlarm now micros).1.later d, (r.setAlarm now micros).2.later d) := by
  simp only [setAlarm, later, Alarm.later, Prod.mk.injEq, Alarm.mk.injEq, and_true, true_and]
  omega

theorem beginAttempt_later (n : Node) (attempt : Nat) :
    (r.later d).beginAttempt engine (now + d) n attempt = (r.beginAttempt engine now n attempt).later d := by
  unfold beginAttempt
  have hedit := editEntry_later d r n.id (f := fun e => { e with retries := attempt - 1 })
    (g := fun e => { e with retries := attempt - 1 }) fun _ => rfl
  simp only [later_workflow, hedit]
  split_ifs
  · exact requeue_later d _ _ (.returned attempt _)
  · rw [setAlarm_later]
    exact requeue_later d _ _ (.calling attempt _)

theorem prepare_later (t : Task) (inputs : Fields) :
    (r.later d).prepare (t.later d) inputs = (r.prepare t inputs).later d := by
  let provide (u : Task) : Task :=
    if u.node.id = t.node.id then { u with inputs, credentials := credentialsOf t.node r.secrets } else u
  have hmap : (r.later d).tasks.map provide = (r.tasks.map provide).map (Task.later d) :=
    mapTasks_later d r fun u => by
      have hid : (u.later d).node.id = u.node.id := rfl
      simp only [provide, hid]
      split_ifs <;> rfl
  have hprepare : r.prepare t inputs =
      { r with scope := r.scope.enter t.node.id inputs, tasks := r.tasks.map provide } := rfl
  have hprepare' : (r.later d).prepare (t.later d) inputs =
      { r.later d with scope := r.scope.enter t.node.id inputs, tasks := (r.later d).tasks.map provide } := rfl
  rw [hprepare, hprepare', hmap]
  rfl

theorem resolveTask_later (t : Task) :
    (r.later d).resolveTask engine (now + d) (t.later d) = (r.resolveTask engine now t).later d := by
  unfold resolveTask
  dsimp only
  rw [Task.later_node, later_scope, Engine.moment_add]
  cases r.scope.fillFields (some t.node.id) t.node.inputs with
  | error f => exact failTask_later d r _ _ _
  | ok inputs =>
    have hedit := editEntry_later d r t.node.id (f := fun e => { e with inputs := some inputs })
      (g := fun e => { e with inputs := some inputs }) fun _ => rfl
    dsimp only
    rw [hedit]
    cases engine.copyFault? (.object inputs) with
    | some f => exact failTask_later d r _ _ _
    | none =>
      cases engine.executor? t.node with
      | none => exact failTask_later d _ _ _ _
      | some _ =>
        dsimp only
        rw [prepare_later, beginAttempt_later]

theorem runAction_later (id : String) (attempt : Nat) (act : Action) :
    (r.later d).runAction id attempt act = (r.runAction id attempt act).later d := by
  unfold runAction
  exact requeue_later d { r with scope := (act r.scope).1 } id (.returning attempt (act r.scope).2)

theorem callExecutor_later (t : Task) (attempt : Nat) (limit : Alarm) :
    (r.later d).callExecutor engine (now + d) (t.later d) attempt (limit.later d) =
      (r.callExecutor engine now t attempt limit).later d := by
  unfold callExecutor
  dsimp only
  rw [Task.later_node, Task.later_inputs, Task.later_credentials, later_executionId]
  cases engine.executor? t.node with
  | none => rfl
  | some executor =>
    dsimp only
    cases executor.perform ⟨t.node, t.inputs, t.credentials, r.log.executionId, attempt⟩ with
    | now act => exact runAction_later d r _ _ _
    | after seconds act =>
      dsimp only
      cases microsOf seconds with
      | none => exact setPhase_later d r _ (.working attempt act none limit)
      | some micros =>
        dsimp only
        split_ifs
        · exact requeue_later d r _ (.working attempt act none limit)
        · rw [setAlarm_later]
          exact setPhase_later d _ _ (.working attempt act (some _) limit)

theorem rest_later (id : String) (attempt : Nat) (delay : Number) :
    (r.later d).rest (now + d) id attempt delay = (r.rest now id attempt delay).later d := by
  unfold rest
  cases microsOf delay with
  | none => exact setPhase_later d r id (.resting attempt none)
  | some micros =>
    dsimp only
    split_ifs
    · exact requeue_later d r id (.resting attempt none)
    · rw [setAlarm_later]
      exact setPhase_later d _ _ (.resting attempt (some _))

theorem recordAttempt_later (t : Task) (attempt : Nat) (result : Except Failure Value) :
    (r.later d).recordAttempt engine (now + d) (t.later d) attempt result =
      (r.recordAttempt engine now t attempt result).later d := by
  unfold recordAttempt
  dsimp only
  rw [Task.later_node, later_workflow, Engine.moment_add]
  cases result with
  | ok v => exact succeedTask_later d r engine _ _ _
  | error f =>
    dsimp only
    split_ifs
    · exact close_later d r _ _ .unwound
    · cases engine.backoff.delay attempt with
      | ok delay => exact rest_later d r now _ _ _
      | error g => exact failTask_later d r _ _ _
    · exact failTask_later d r _ _ _

theorem goOn_later (t : Task) : (r.later d).goOn engine (now + d) (t.later d) = (r.goOn engine now t).later d := by
  unfold goOn
  rw [Task.later_node, Task.later_phase]
  cases hp : t.phase with
  | fresh => exact resolveTask_later d r engine now t
  | calling attempt limit => exact callExecutor_later d r engine now t attempt limit
  | working attempt act wake limit => exact runAction_later d r _ attempt act
  | returning attempt result => exact requeue_later d r _ (.returned attempt result)
  | returned attempt result => exact recordAttempt_later d r engine now t attempt result
  | resting attempt wake => exact beginAttempt_later d r engine now _ _
  | finished failed => rfl
  | unwound => rfl

theorem ring_later (t : Task) (alarm : Alarm) :
    (r.later d).ring engine (t.later d) (alarm.later d) = (r.ring engine t alarm).later d := by
  have hsome : ∀ wake : Option Alarm, wake.map (Alarm.later d) = some (alarm.later d) ↔ wake = some alarm := by
    intro wake
    rw [← Option.map_some, (Option.map_injective (Alarm.later_injective d)).eq_iff]
  unfold ring
  simp only [Task.later_node, Task.later_phase, later_workflow]
  cases hp : t.phase with
  | calling attempt limit =>
    simp only [Phase.later, (Alarm.later_injective d).eq_iff]
    split_ifs
    · exact setPhase_later d r _ (.returned attempt _)
    · rfl
  | working attempt act wake limit =>
    simp only [Phase.later, hsome, (Alarm.later_injective d).eq_iff]
    split_ifs
    · exact requeue_later d r _ (.working attempt act none limit)
    · exact requeue_later d r _ (.returned attempt _)
    · rfl
  | resting attempt wake =>
    simp only [Phase.later, hsome]
    split_ifs
    · exact requeue_later d r _ (.resting attempt none)
    · rfl
  | _ => rfl

end

end Run

end Flowgraph
