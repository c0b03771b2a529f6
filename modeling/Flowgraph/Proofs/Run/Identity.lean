import Flowgraph.Run
import Mathlib.Tactic

/-! The id under which a run is logged. Nothing that happens in the course of a run changes it. -/

namespace Flowgraph

namespace Run

def LoggedAs (id : String) (r : Run) : Prop :=
  r.log.executionId = id

section
variable {id : String} {r : Run}

theorem loggedAs_start (w : Workflow) (inputs secrets : Fields) (id : String) (time : Moment) :
    (start w inputs secrets id time).LoggedAs id := rfl

theorem LoggedAs.of_log_eq {r' : Run} (h : r.LoggedAs id) (hlog : r'.log = r.log) : r'.LoggedAs id := by
  unfold LoggedAs
  rwa [hlog]

theorem LoggedAs.foldl {α : Type} {as : List α} {f : Run → α → Run} (h : r.LoggedAs id)
    (hf : ∀ r, r.LoggedAs id → ∀ a ∈ as, (f r a).LoggedAs id) : (as.foldl f r).LoggedAs id :=
  List.foldlRecOn as f h hf

/-! Small changes -/

theorem LoggedAs.stopWith (h : r.LoggedAs id) (status : RunStatus) (reason : String) :
    (r.stopWith status reason).LoggedAs id := by
  unfold Run.stopWith
  split <;> exact h

variable {engine : Engine} {now : Nat}

theorem LoggedAs.succeedTask (h : r.LoggedAs id) (node : String) (time : Moment) (outputs : Fields) :
    (r.succeedTask engine node time outputs).LoggedAs id := by
  unfold Run.succeedTask
  dsimp only
  split <;> exact h

/-! Tasks -/

theorem LoggedAs.beginAttempt (h : r.LoggedAs id) (n : Node) (attempt : Nat) :
    (r.beginAttempt engine now n attempt).LoggedAs id := by
  unfold Run.beginAttempt
  dsimp only
  split_ifs <;> exact h

theorem LoggedAs.resolveTask (h : r.LoggedAs id) (t : Task) : (r.resolveTask engine now t).LoggedAs id := by
  unfold Run.resolveTask
  dsimp only
  split
  · exact h
  · split
    · exact h
    · split
      · exact h
      · refine LoggedAs.beginAttempt ?_ _ _
        exact h

theorem LoggedAs.runAction (h : r.LoggedAs id) (node : String) (attempt : Nat) (act : Action) :
    (r.runAction node attempt act).LoggedAs id := h

theorem LoggedAs.callExecutor (h : r.LoggedAs id) (t : Task) (attempt : Nat) (limit : Alarm) :
    (r.callExecutor engine now t attempt limit).LoggedAs id := by
  unfold Run.callExecutor
  dsimp only
  split
  · exact h
  · split
    · exact h.runAction _ _ _
    · split
      · exact h
      · split_ifs <;> exact h

theorem LoggedAs.rest (h : r.LoggedAs id) (node : String) (attempt : Nat) (delay : Number) :
    (r.rest now node attempt delay).LoggedAs id := by
  unfold Run.rest
  split
  · exact h
  · split_ifs <;> exact h

theorem LoggedAs.recordAttempt (h : r.LoggedAs id) (t : Task) (attempt : Nat) (result : Except Failure Value) :
    (r.recordAttempt engine now t attempt result).LoggedAs id := by
  unfold Run.recordAttempt
  dsimp only
  split
  · exact h.succeedTask _ _ _
  · split_ifs
    · exact h
    · split
      · exact h.rest _ _ _
      · exact h
    · exact h

theorem LoggedAs.goOn (h : r.LoggedAs id) (t : Task) : (r.goOn engine now t).LoggedAs id := by
  unfold Run.goOn
  dsimp only
  split
  · exact h.resolveTask t
  · exact h.callExecutor t _ _
  · exact h.runAction _ _ _
  · exact h
  · exact h.recordAttempt t _ _
  · exact h.beginAttempt _ _
  · exact h
  · exact h

theorem LoggedAs.ring (h : r.LoggedAs id) (t : Task) (alarm : Alarm) : (r.ring engine t alarm).LoggedAs id := by
  unfold Run.ring
  dsimp only
  split
  · split_ifs <;> exact h
  · split_ifs <;> exact h
  · split_ifs <;> exact h
  · exact h

/-! Nodes -/

theorem LoggedAs.resolveTargets (h : r.LoggedAs id) (targets : List String) :
    (r.resolveTargets targets).1.LoggedAs id := by
  induction targets generalizing r with
  | nil => exact h
  | cons t rest ih => exact ih (r := (r.resolveOne t).1) h

theorem LoggedAs.resolveOutgoing (h : r.LoggedAs id) (node : String) (status : NodeStatus) :
    (r.resolveOutgoing node status).1.LoggedAs id :=
  LoggedAs.resolveTargets (r := r.settleEdges node status) h _

theorem LoggedAs.decideAll (h : r.LoggedAs id) (steps : Nat) (ids : List String) :
    (decideAll steps ids r).LoggedAs id := by
  induction steps generalizing r ids with
  | zero => exact h
  | succ n ih =>
    cases ids with
    | nil => exact h
    | cons node rest =>
      unfold Run.decideAll
      split
      · exact h.stopWith _ _
      · refine ih ?_ rest
        exact h
      · exact ih (LoggedAs.resolveOutgoing (r := r.skip node) h node .skipped) _

theorem LoggedAs.admitAll (h : r.LoggedAs id) (ids : List String) : (r.admitAll ids).LoggedAs id :=
  h.decideAll _ _

theorem LoggedAs.handle (h : r.LoggedAs id) (time : Moment) (t : Task) : (r.handle time t).LoggedAs id := by
  unfold Run.handle
  split
  · next failed _ =>
    extract_lets node contained error r'
    have hr : r'.LoggedAs id := by
      unfold r'
      split_ifs
      · exact h.stopWith _ _
      · exact h
    split_ifs
    · exact hr
    · exact (hr.resolveOutgoing _ _).admitAll _
    · exact (hr.resolveOutgoing _ _).admitAll _
  · exact h

theorem LoggedAs.handleBatch (h : r.LoggedAs id) (time : Moment) : (r.handleBatch time).LoggedAs id :=
  LoggedAs.foldl (r := { r with tasks := r.tasks.filter fun t => !t.isFinished }) h fun _ hr t _ => hr.handle time t

theorem LoggedAs.startReady (h : r.LoggedAs id) (limit : Nat) (time : Moment) (steps : Nat) :
    (startReady limit time steps r).LoggedAs id := by
  induction steps generalizing r with
  | zero => exact h
  | succ n ih =>
    unfold Run.startReady
    split
    · exact h
    · split_ifs
      · refine ih ?_
        unfold startNode
        split <;> exact h
      · exact h

/-! The end -/

theorem LoggedAs.drain (h : r.LoggedAs id) (time : Moment) : (r.drain time).LoggedAs id := by
  unfold Run.drain
  split
  · exact h
  · refine LoggedAs.of_log_eq (r := r.tasks.foldl (interrupt time) r) (h.foldl fun q hq t _ => ?_) rfl
    unfold interrupt unwind
    cases t.phase <;> exact hq

theorem LoggedAs.skipPending (h : r.LoggedAs id) : r.skipPending.LoggedAs id := by
  refine h.foldl fun q hq node _ => ?_
  split_ifs <;> exact hq

theorem LoggedAs.finalize (h : r.LoggedAs id) (time : Moment) : (r.finalize time).LoggedAs id := by
  unfold Run.finalize
  dsimp only
  split
  · exact h
  · split_ifs <;> exact h

theorem LoggedAs.complete (h : r.LoggedAs id) (time : Moment) : (r.complete time).LoggedAs id := by
  unfold Run.complete
  split_ifs
  · exact h
  · exact (h.drain time).skipPending.finalize time

theorem LoggedAs.proceed (h : r.LoggedAs id) : (r.proceed engine now).LoggedAs id := by
  unfold Run.proceed
  dsimp only
  split_ifs
  · exact h.complete _
  · exact (h.startReady _ _ _).complete _
  · exact h.startReady _ _ _

/-! Turns -/

theorem LoggedAs.turn (h : r.LoggedAs id) : (r.turn engine now).LoggedAs id := by
  unfold Run.turn
  split
  · dsimp only
    split
    · refine LoggedAs.goOn ?_ _
      exact h
    · exact h
  · exact (h.handleBatch _).proceed

theorem LoggedAs.settle (h : r.LoggedAs id) (steps : Nat) : (settle engine now steps r).LoggedAs id := by
  induction steps generalizing r with
  | zero => exact h
  | succ n ih =>
    unfold Run.settle
    split_ifs
    · exact ih h.turn
    · exact h

theorem LoggedAs.begin (h : r.LoggedAs id) : (r.begin engine now).LoggedAs id :=
  (h.admitAll r.graph.roots).proceed.settle _

theorem LoggedAs.wake (h : r.LoggedAs id) : (r.wake engine now).LoggedAs id := by
  refine LoggedAs.settle (h.foldl fun q hq a _ => ?_) _
  split
  · exact hq.ring _ _
  · exact hq

/-- However far a run goes on, it stays logged under its id. -/
theorem LoggedAs.advance (h : r.LoggedAs id) (horizon : Option Nat) : (r.advance engine horizon).LoggedAs id := by
  unfold Run.advance
  generalize r.turns engine = steps
  induction steps generalizing r with
  | zero => exact h
  | succ n ih =>
    unfold runTo
    split
    · split_ifs
      · exact ih h.wake
      · exact h
    · exact h

end

end Run

end Flowgraph
