import Flowgraph.Proofs.Run.Life

/-! A run at the grain at which what goes on in it interleaves. A stop is not the end yet: it cancels the tasks in
flight, each of them leaves when it gets to that, and is marked later; only then is the run completed. Meanwhile more
requests arrive, and values that are held in place may be changed at any moment. -/

namespace Flowgraph

open Relation (ReflTransGen)

def Phase.isUnderCall : Phase → Bool
  | .calling _ _ | .working _ _ _ _ | .returning _ _ | .returned _ _ => true
  | _ => false

/-- Variables are written and values are changed in place, those recorded of some nodes among them; no node is entered
or left meanwhile, and none records. -/
structure Scope.Alters (changed : List String) (s s' : Scope) : Prop where
  running : ∀ id, s'.isRunning id = s.isRunning id
  recorded : ∀ id, s'.outputs.contains id = s.outputs.contains id
  outputs : ∀ id, id ∉ changed → s'.outputs.get? id = s.outputs.get? id

/-- A run, and what is remembered of it for the theory only: the nodes whose calls have outlasted a cancellation, and
those whose recorded outputs may have been changed in place. -/
structure Scene where
  run : Run
  spared : List String
  altered : List String

namespace Scene

def withRun (s : Scene) (r : Run) : Scene :=
  { s with run := r }

@[simp] theorem run_withRun (s : Scene) (r : Run) : (s.withRun r).run = r := rfl

@[simp] theorem spared_withRun (s : Scene) (r : Run) : (s.withRun r).spared = s.spared := rfl

@[simp] theorem altered_withRun (s : Scene) (r : Run) : (s.withRun r).altered = s.altered := rfl

end Scene

def Front.withScope (f : Front) (scope : Scope) : Front :=
  ⟨{ f.run with scope }, f.todo, f.waiting⟩

/-- A front goes on by beats, and guards may change values in place between them. -/
inductive Front.Pulses (time : Moment) (f : Front) : List String → Front → Prop
  | refl : Pulses time f [] f
  | beat {changed : List String} {g g' : Front} (h : Pulses time f changed g) (hb : Beat time g g') :
    Pulses time f changed g'
  | alter {changed more : List String} {g : Front} {scope : Scope} (h : Pulses time f changed g)
    (ha : Scope.Alters more g.run.scope scope) : Pulses time f (changed ++ more) (g.withScope scope)

namespace Run

def scene (r : Run) : Scene :=
  ⟨r, [], []⟩

@[simp] theorem run_scene (r : Run) : r.scene.run = r := rfl

@[simp] theorem altered_scene (r : Run) : r.scene.altered = [] := rfl

/-- Where handling begins: at the nodes without sources, or at the tasks that are over. -/
inductive Opens (r : Run) : Front → Prop
  | first (hb : r.Unbegun) : Opens r (firstFront r)
  | batch (hstop : r.stop = none) (hu : r.isFinished = false) (hf : r.tasks.any Task.isFinished = true) :
    Opens r r.batchFront

/-- A run that is stopped while its front is handled: what is left to handle is among its tasks again. -/
def haltedAt (m : Front) (reason : String) (order : List String) : Run :=
  { m.run with stop := some ⟨.failed, reason⟩, tasks := m.run.tasks ++ m.todo, ready := order }

def without (r : Run) (t : Task) : Run :=
  { r with tasks := r.tasks.filter fun u => u.node.id ≠ t.node.id }

/-- What tasks hold may change, but not which tasks there are and what they do next. -/
def Renews (renew : Task → Task) : Prop :=
  ∀ t, (renew t).node = t.node ∧ (renew t).phase = t.phase

/-- What a move says about the end: nothing, a request to cancel the run, or that deciding a node has raised. -/
inductive Mark where
  | passes
  | asks
  | raises
  deriving DecidableEq

/-- What can happen next. Tasks go on as long as the run is not stopped. Then each of them is still to get its
cancellation, unless it is over; and each of them is marked, also in between. Where calls are `lenient`, one of them may
outlast the cancellation of its task, which then goes on: the executor does not heed it, or had already returned. -/
inductive Moves (engine : Engine) (lenient : Bool) (now : Nat) (s : Scene) : Mark → Scene → Prop
  | handle {f : Front} {q : Run} {changed order : List String} (ho : Opens s.run f)
    (hp : f.Pulses (engine.moment now) changed q.front) (hr : order.Perm q.ready) :
    Moves engine lenient now s .passes ⟨{ q with ready := order }.proceed engine now, s.spared, s.altered ++ changed⟩
  | halt {f m : Front} {reason : String} {changed order : List String} (ho : Opens s.run f)
    (hp : f.Pulses (engine.moment now) changed m) (hs : m.Stops reason) :
    Moves engine lenient now s (if m.waiting = [] then .passes else .raises)
      ⟨haltedAt m reason order, s.spared, s.altered ++ changed⟩
  | resume {id : String} (hstop : s.run.stop = none) (hu : s.run.isFinished = false) (hid : id ∈ s.run.agenda) :
    Moves engine lenient now s .passes (s.withRun (s.run.resume engine now id))
  | ring {t : Task} {alarm : Alarm} (hstop : s.run.stop = none) (hu : s.run.isFinished = false) (ht : t ∈ s.run.tasks)
    (ha : t.phase.Heeds engine t.node alarm) :
    Moves engine lenient now s .passes (s.withRun (s.run.ring engine t alarm))
  | request : Moves engine lenient now s .asks (s.withRun (s.run.stopWith .cancelled cancelReason))
  | deliver {t : Task} (hstop : s.run.stopped = true) (hu : s.run.isFinished = false) (ht : t ∈ s.run.tasks)
    (hover : t.phase.isOver = false) :
    Moves engine lenient now s .passes (s.withRun (s.run.unwind (engine.moment now) t))
  | outlast {t : Task} {r : Run} (hl : lenient = true) (hstop : s.run.stopped = true) (hu : s.run.isFinished = false)
    (ht : t ∈ s.run.tasks) (hover : t.phase.isOver = false)
    (hcall : t.phase.isUnderCall = true ∨ t.node.id ∈ s.spared)
    (hr : r = s.run.goOn engine now t ∨ ∃ alarm, t.phase.Heeds engine t.node alarm ∧ r = s.run.ring engine t alarm) :
    Moves engine lenient now s .passes ⟨r, t.node.id :: s.spared, s.altered⟩
  | pick {t : Task} (hstop : s.run.stopped = true) (hu : s.run.isFinished = false) (ht : t ∈ s.run.tasks)
    (hover : t.phase.isOver = true) :
    Moves engine lenient now s .passes (s.withRun ((s.run.without t).handle (engine.moment now) t))
  | finish (hstop : s.run.stopped = true) (hu : s.run.isFinished = false) (ht : s.run.tasks = []) :
    Moves engine lenient now s .passes (s.withRun (s.run.complete (engine.moment now)))
  | alter {changed : List String} {scope : Scope} {renew : Task → Task} (ha : Scope.Alters changed s.run.scope scope)
    (hn : Renews renew) :
    Moves engine lenient now s .passes
      ⟨{ s.run with scope, tasks := s.run.tasks.map renew }, s.spared, s.altered ++ changed⟩

/-- Something happens, at whatever instant. -/
def Goes (engine : Engine) (lenient : Bool) (s s' : Scene) : Prop :=
  ∃ now mark, Moves engine lenient now s mark s'

/-- A run has come to a scene by an instant, and on the way a request to cancel it has arrived before anything else
stopped it, or deciding a node has raised. -/
inductive Story (engine : Engine) (lenient : Bool) (r₀ : Run) (begun : Nat) : Nat → Bool → Bool → Scene → Prop
  | start : Story engine lenient r₀ begun begun false false r₀.scene
  | waits {now later : Nat} {cancelled raised : Bool} {s : Scene}
    (h : Story engine lenient r₀ begun now cancelled raised s) (hle : now ≤ later) :
    Story engine lenient r₀ begun later cancelled raised s
  | moves {now : Nat} {cancelled raised : Bool} {mark : Mark} {s s' : Scene}
    (h : Story engine lenient r₀ begun now cancelled raised s) (hm : Moves engine lenient now s mark s') :
    Story engine lenient r₀ begun now (cancelled || (mark = .asks && !s.run.stopped && !s.run.isFinished))
      (raised || mark = .raises) s'

theorem Story.goes {engine : Engine} {lenient : Bool} {r₀ : Run} {begun now : Nat} {cancelled raised : Bool} {s : Scene}
    (h : Story engine lenient r₀ begun now cancelled raised s) :
    ReflTransGen (Goes engine lenient) r₀.scene s := by
  induction h with
  | start => exact .refl
  | waits _ _ ih => exact ih
  | moves _ hm ih => exact ih.tail ⟨_, _, hm⟩

end Run

section
variable {time : Moment} {changed more : List String} {f g : Front} {scope scope' scope'' : Scope} {r r' : Run}
  {todo : List Task}

theorem Scope.Alters.refl (s : Scope) : Scope.Alters [] s s :=
  ⟨fun _ => rfl, fun _ => rfl, fun _ _ => rfl⟩

theorem Scope.Alters.trans (h : Scope.Alters changed scope scope') (h' : Scope.Alters more scope' scope'') :
    Scope.Alters (changed ++ more) scope scope'' where
  running id := (h'.running id).trans (h.running id)
  recorded id := (h'.recorded id).trans (h.recorded id)
  outputs id hid := by
    rw [List.mem_append, not_or] at hid
    exact (h'.outputs id hid.2).trans (h.outputs id hid.1)

namespace Run

theorem Handled.withScope (h : Handled time todo r r') (scope : Scope) :
    Handled time todo { r with scope } { r' with scope } :=
  ⟨h.workflow, h.graph, rfl, h.tasks, h.agenda, h.stop, h.log⟩

end Run

namespace Front

theorem Good.withScope (h : f.Good) (scope : Scope) : (f.withScope scope).Good :=
  ⟨h.sound.congr rfl rfl rfl rfl,
    h.live.congr rfl rfl rfl rfl rfl h.live.todo h.live.ended (List.Perm.refl _)⟩

theorem Pulses.todo_subset (h : f.Pulses time changed g) : ∀ t ∈ g.todo, t ∈ f.todo := by
  induction h with
  | refl => exact fun _ ht => ht
  | beat _ hb ih => exact fun t ht => ih t (hb.todo_subset t ht)
  | alter _ _ ih => exact ih

theorem Pulses.good (h : f.Pulses time changed g) (hf : f.Good) : g.Good := by
  induction h with
  | refl => exact hf
  | beat _ hb ih => exact ih.beat hb
  | alter _ _ ih => exact ih.withScope _

theorem Pulses.alters (h : f.Pulses time changed g) : Scope.Alters changed f.run.scope g.run.scope := by
  induction h with
  | refl => exact .refl _
  | beat _ hb ih =>
    rw [hb.handled.scope]
    exact ih
  | alter _ ha ih => exact ih.trans ha

/-- Apart from the variables, what handling changes is what it does without anything being altered. -/
theorem Pulses.handled (h : f.Pulses time changed g) :
    Run.Handled time f.todo (f.withScope g.run.scope).run g.run := by
  induction h with
  | refl => exact Run.handled_refl time f.todo f.run
  | beat hbefore hb ih =>
    rw [hb.handled.scope]
    exact ih.trans hbefore.todo_subset hb.handled
  | alter _ _ ih => exact ih.withScope _

end Front

end

end Flowgraph
