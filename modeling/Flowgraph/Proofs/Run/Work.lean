import Flowgraph.Proofs.Run.View

/-! What a task does to its run when it goes on or when one of its alarms rings: it changes its own
phase and its own entry, and it pays for the turns that it asks for. -/

namespace Flowgraph

def Phase.status : Phase → NodeStatus
  | .finished failed => if failed then .failed else .success
  | _ => .running

/-- Whether a task in this phase goes on by itself, so that it has to stand on the agenda. -/
def Phase.isDue : Phase → Bool
  | .fresh | .calling _ _ | .returning _ _ | .returned _ _ | .resting _ none => true
  | _ => false

def Phase.isResting : Phase → Bool
  | .resting _ _ => true
  | _ => false

/-- Twice the turns that a task in this phase can still ask for, and one more for every alarm that
is set for it, when the node has so many retries. -/
def Phase.cost (retries : Nat) : Phase → Nat
  | .fresh => 12 * retries + 11
  | .calling attempt _ => 12 * (retries + 1 - attempt) + 9
  | .working attempt _ (some _) _ => 12 * (retries + 1 - attempt) + 9
  | .working attempt _ none _ => 12 * (retries + 1 - attempt) + 6
  | .returning attempt _ => 12 * (retries + 1 - attempt) + 4
  | .returned attempt _ => 12 * (retries + 1 - attempt) + 2
  | .resting attempt (some _) => 12 * (retries - attempt) + 14
  | .resting attempt none => 12 * (retries - attempt) + 11
  | .finished _ | .unwound => 2

def Phase.isOver : Phase → Bool
  | .finished _ | .unwound => true
  | _ => false

theorem Phase.isOver_iff {p : Phase} : p.isOver = true ↔ (∃ failed, p = .finished failed) ∨ p = .unwound := by
  cases p <;> simp [Phase.isOver]

def Phase.attempt? : Phase → Option Nat
  | .calling attempt _ | .working attempt _ _ _ | .returning attempt _ | .returned attempt _
  | .resting attempt _ => some attempt
  | _ => none

def Phase.Fits (engine : Engine) (n : Node) (p : Phase) : Prop :=
  ∀ attempt, p.attempt? = some attempt → 1 ≤ attempt ∧ (engine.executor? n).isSome

/-- Every wait between two attempts ends. -/
def Engine.DelaysFinite (engine : Engine) : Prop :=
  ∀ attempt : Nat, 1 ≤ attempt → ∀ delay, engine.backoff.delay attempt = .ok delay →
    (microsOf delay).isSome

/-- Calls of the executor of a node may have to wait for a worker. -/
def Engine.MayQueue (engine : Engine) (n : Node) : Prop :=
  (engine.executor? n).any fun executor => !executor.isAsync

/-- The alarms that a task of a node in this phase waits for. -/
def Phase.Heeds (engine : Engine) (n : Node) (alarm : Alarm) : Phase → Prop
  | .calling _ limit => limit = alarm ∧ engine.MayQueue n
  | .working _ _ wake limit => wake = some alarm ∨ limit = alarm
  | .resting _ wake => wake = some alarm
  | _ => False

namespace Run

def retries (engine : Engine) (r : Run) (n : Node) : Nat :=
  (Policy.resolve r.workflow n engine.defaultTimeout).retries

/-- All that is not the business of a task is as it was. -/
structure SameFrame (r r' : Run) : Prop where
  workflow : r'.workflow = r.workflow
  graph : r'.graph = r.graph
  ready : r'.ready = r.ready
  unresolved : r'.unresolved = r.unresolved
  edgeStates : r'.edgeStates = r.edgeStates
  stop : r'.stop = r.stop
  lost : r'.lost = r.lost
  log : r'.log = { r.log with nodeLogs := r'.log.nodeLogs }

/-- Apart from the scope, the agenda and the alarms, only the task and the entry of one node have
changed. -/
structure Touched (id : String) (f : Task → Task) (g : NodeLog → NodeLog) (r r' : Run) : Prop where
  frame : SameFrame r r'
  node : ∀ t, (f t).node = t.node
  nodeId : KeepsId g
  tasks : r'.tasks = r.tasks.map fun t => if t.node.id = id then f t else t
  entries : r'.log.nodeLogs = r.log.nodeLogs.map fun e => if e.nodeId = id then g e else e

theorem Touched.trans {id : String} {f f' : Task → Task} {g g' : NodeLog → NodeLog} {r r' r'' : Run}
    (h : Touched id f g r r') (h' : Touched id f' g' r' r'') :
    Touched id (f' ∘ f) (g' ∘ g) r r'' where
  frame :=
    { workflow := h'.frame.workflow.trans h.frame.workflow
      graph := h'.frame.graph.trans h.frame.graph
      ready := h'.frame.ready.trans h.frame.ready
      unresolved := h'.frame.unresolved.trans h.frame.unresolved
      edgeStates := h'.frame.edgeStates.trans h.frame.edgeStates
      stop := h'.frame.stop.trans h.frame.stop
      lost := h'.frame.lost.trans h.frame.lost
      log := by
        have h1 := h.frame.log
        have h2 := h'.frame.log
        rw [h1] at h2
        exact h2 }
  node := fun t => (h'.node (f t)).trans (h.node t)
  nodeId := fun e => (h'.nodeId (g e)).trans (h.nodeId e)
  tasks := by
    rw [h'.tasks, h.tasks, List.map_map]
    apply List.map_congr_left
    intro t _
    by_cases ht : t.node.id = id
    · simp [ht, h.node t]
    · simp [ht]
  entries := by
    rw [h'.entries, h.entries, List.map_map]
    apply List.map_congr_left
    intro e _
    by_cases he : e.nodeId = id
    · simp [he, h.nodeId e]
    · simp [he]

section
variable {r : Run} {id : String}

theorem touched_editEntry {g : NodeLog → NodeLog} (hg : KeepsId g) :
    Touched id (fun t => t) g r (r.editEntry id g) :=
  ⟨⟨rfl, rfl, rfl, rfl, rfl, rfl, rfl, rfl⟩, fun _ => rfl, hg, by simp [editEntry], rfl⟩

theorem touched_setPhase (p : Phase) :
    Touched id (fun t => { t with phase := p }) (fun e => e) r (r.setPhase id p) :=
  ⟨⟨rfl, rfl, rfl, rfl, rfl, rfl, rfl, rfl⟩, fun _ => rfl, fun _ => rfl, rfl, by simp [setPhase]⟩

theorem touched_of_tasks_log {r' : Run} (hf : SameFrame r r') (ht : r'.tasks = r.tasks)
    (hl : r'.log.nodeLogs = r.log.nodeLogs) : Touched id (fun t => t) (fun e => e) r r' :=
  ⟨hf, fun _ => rfl, fun _ => rfl, by simp [ht], by simp [hl]⟩

theorem touched_enqueue (x : String) : Touched id (fun t => t) (fun e => e) r (r.enqueue x) :=
  touched_of_tasks_log ⟨rfl, rfl, rfl, rfl, rfl, rfl, rfl, rfl⟩ rfl rfl

theorem touched_scope (s : Scope) : Touched id (fun t => t) (fun e => e) r { r with scope := s } :=
  touched_of_tasks_log ⟨rfl, rfl, rfl, rfl, rfl, rfl, rfl, rfl⟩ rfl rfl

theorem touched_refl (id : String) (r : Run) : Touched id (fun t => t) (fun e => e) r r :=
  touched_scope r.scope

theorem touched_setAlarm (now micros : Nat) :
    Touched id (fun t => t) (fun e => e) r (r.setAlarm now micros).1 :=
  touched_of_tasks_log ⟨rfl, rfl, rfl, rfl, rfl, rfl, rfl, rfl⟩ rfl rfl

theorem touched_prepare (t : Task) (inputs : Fields) :
    Touched t.node.id (fun u => { u with inputs, credentials := credentialsOf t.node r.secrets })
      (fun e => e) r (r.prepare t inputs) :=
  ⟨⟨rfl, rfl, rfl, rfl, rfl, rfl, rfl, rfl⟩, fun _ => rfl, fun _ => rfl, rfl, by simp [prepare]⟩

end

def Moved (id : String) (p : Phase) (r r' : Run) : Prop :=
  ∃ f g, Touched id f g r r' ∧ (∀ t, (f t).phase = p) ∧ ∀ e, e.status = .running → (g e).status = p.status

/-- A move from one phase to another is paid for, a place on the agenda included; a phase that goes
on by itself gets one, a rest only if waits end. -/
structure Paid (engine : Engine) (n : Node) (p p' : Phase) (r r' : Run) : Prop where
  fits : p'.Fits engine n
  agenda : r'.agenda = r.agenda ∧ p'.cost (retries engine r n) ≤ p.cost (retries engine r n) ∨
    r'.agenda = r.agenda ++ [n.id] ∧ p'.cost (retries engine r n) + 2 ≤ p.cost (retries engine r n)
  due : (p'.isResting → engine.DelaysFinite) → p'.isDue → r'.agenda = r.agenda ++ [n.id]

section
variable {engine : Engine} {now : Nat} {r : Run} {id : String} {n : Node} {time : Moment}

/-- The phase changes last: what came before has left the status of the entry as it was. -/
theorem Touched.moved_setPhase {f : Task → Task} {g : NodeLog → NodeLog} {r' : Run} {p : Phase}
    (h : Touched id f g r r') (hp : p.status = .running) (hg : ∀ e, (g e).status = e.status) :
    Moved id p r (r'.setPhase id p) :=
  ⟨_, _, h.trans (touched_setPhase p), fun _ => rfl, fun e he => by
    rw [hp, ← he]
    exact hg e⟩

theorem Moved.enqueue {p : Phase} {r' : Run} (h : Moved id p r r') (x : String) :
    Moved id p r (r'.enqueue x) := by
  obtain ⟨f, g, ht, hp, hs⟩ := h
  exact ⟨_, _, ht.trans (touched_enqueue x), hp, hs⟩

theorem Touched.then_moved {f : Task → Task} {g : NodeLog → NodeLog} {r' r'' : Run} {p : Phase}
    (h : Touched id f g r r') (hg : ∀ e, (g e).status = e.status) (h' : Moved id p r' r'') :
    Moved id p r r'' := by
  obtain ⟨f', g', ht, hp, hs⟩ := h'
  exact ⟨_, _, h.trans ht, fun t => hp (f t), fun e he => hs (g e) ((hg e).trans he)⟩

theorem Touched.close {f : Task → Task} {g : NodeLog → NodeLog} {r' : Run} (h : Touched id f g r r') (time : Moment)
    (p : Phase) :
    Touched id (fun t => { f t with phase := p }) (fun e => { g e with endTime := some time }) r
      (r'.close id time p) := by
  have hexit := h.trans (touched_scope (r'.scope.exit id))
  have hstamp := hexit.trans (touched_editEntry (g := fun e => { e with endTime := some time }) fun _ => rfl)
  exact hstamp.trans (touched_setPhase p)

theorem moved_close {g : NodeLog → NodeLog} {r' : Run} {p : Phase}
    (h : Touched id (fun t => t) g r r')
    (hs : ∀ e, e.status = .running → (g e).status = p.status) :
    Moved id p r (r'.close id time p) :=
  ⟨_, _, h.close time p, fun _ => rfl, hs⟩

theorem moved_failTask (f : Failure) : Moved id (.finished true) r (r.failTask id time f) :=
  moved_close
    (touched_editEntry (g := fun e => { e with status := .failed, error := some f.describe }) fun _ => rfl)
    fun _ _ => rfl

/-- A task succeeds, or fails because its outputs cannot be copied. -/
theorem moved_succeedTask (outputs : Fields) :
    ∃ failed, Moved id (.finished failed) r (r.succeedTask engine id time outputs) := by
  have hrecord : Touched id _ _ r _ := touched_scope (r.scope.recordOutput id outputs)
  unfold succeedTask
  dsimp only
  split
  · next f _ => exact ⟨true, hrecord.then_moved (fun _ => rfl) (moved_failTask f)⟩
  · exact ⟨false, moved_close (hrecord.trans
      (touched_editEntry (g := fun e => { e with status := .success, outputs := some outputs }) fun _ => rfl))
      fun _ _ => rfl⟩

def GoesOn (engine : Engine) (n : Node) (p : Phase) (r r' : Run) : Prop :=
  ∃ p', Moved n.id p' r r' ∧ Paid engine n p p' r r'

theorem Phase.fits_of_none {p : Phase} (h : p.attempt? = none) : p.Fits engine n := by
  intro attempt ha
  rw [h] at ha
  cases ha

theorem two_le_cost (p : Phase) (k : Nat) : 2 ≤ p.cost k := by
  cases p with
  | working attempt act wake limit => cases wake <;> simp [Phase.cost]
  | resting attempt wake => cases wake <;> simp [Phase.cost]
  | _ => simp [Phase.cost]

/-- Every phase can pay for the end. -/
theorem goesOn_finished {p : Phase} {r' : Run} {failed : Bool} (hm : Moved n.id (.finished failed) r r')
    (ha : r'.agenda = r.agenda) : GoesOn engine n p r r' :=
  ⟨_, hm, Phase.fits_of_none rfl, Or.inl ⟨ha, two_le_cost p _⟩, fun _ h => by cases h⟩

theorem goesOn_unwound {p : Phase} {r' : Run} (hm : Moved n.id .unwound r r')
    (ha : r'.agenda = r.agenda) : GoesOn engine n p r r' :=
  ⟨_, hm, Phase.fits_of_none rfl, Or.inl ⟨ha, two_le_cost p _⟩, fun _ h => by cases h⟩

theorem agenda_succeedTask (outputs : Fields) : (r.succeedTask engine id time outputs).agenda = r.agenda := by
  unfold succeedTask
  dsimp only
  split <;> rfl

/-- Going on in the present instant, with a place on the agenda. -/
theorem goesOn_enqueue {p p' : Phase} {r' : Run} (hm : Moved n.id p' r r')
    (hf : p'.Fits engine n) (ha : r'.agenda = r.agenda)
    (hc : p'.cost (retries engine r n) + 2 ≤ p.cost (retries engine r n)) :
    GoesOn engine n p r (r'.enqueue n.id) := by
  have hagenda : (r'.enqueue n.id).agenda = r.agenda ++ [n.id] := by
    rw [enqueue, ha]
  exact ⟨p', hm.enqueue n.id, hf, Or.inr ⟨hagenda, hc⟩, fun _ _ => hagenda⟩

/-- Waiting for an alarm. -/
theorem goesOn_wait {p p' : Phase} {r' : Run} (hm : Moved n.id p' r r')
    (hf : p'.Fits engine n) (hd : p'.isDue = false) (ha : r'.agenda = r.agenda)
    (hc : p'.cost (retries engine r n) ≤ p.cost (retries engine r n)) :
    GoesOn engine n p r r' :=
  ⟨p', hm, hf, Or.inl ⟨ha, hc⟩, fun _ h => by rw [hd] at h; cases h⟩

theorem Phase.fits_mk {p : Phase} {attempt : Nat} (hp : p.attempt? = some attempt) (h1 : 1 ≤ attempt)
    (he : (engine.executor? n).isSome) : p.Fits engine n := by
  intro k hk
  rw [hp] at hk
  cases hk
  exact ⟨h1, he⟩

theorem goesOn_beginAttempt {p : Phase} {attempt : Nat} (h1 : 1 ≤ attempt)
    (he : (engine.executor? n).isSome)
    (hc : 12 * (retries engine r n + 1 - attempt) + 11 ≤ p.cost (retries engine r n)) :
    GoesOn engine n p r (r.beginAttempt engine now n attempt) := by
  have hedit : Touched n.id (fun t => t) (fun e => { e with retries := attempt - 1 }) r
      (r.editEntry n.id fun e => { e with retries := attempt - 1 }) :=
    touched_editEntry fun _ => rfl
  unfold beginAttempt
  dsimp only
  split_ifs with ht
  · refine goesOn_enqueue (hedit.moved_setPhase rfl fun _ => rfl) (Phase.fits_mk rfl h1 he) rfl
      (Nat.le_trans ?_ hc)
    simp only [Phase.cost]
    omega
  · refine goesOn_enqueue ((hedit.trans (touched_setAlarm now _)).moved_setPhase rfl fun _ => rfl)
      (Phase.fits_mk rfl h1 he) rfl (Nat.le_trans ?_ hc)
    simp only [Phase.cost]
    omega

theorem goesOn_runAction {p : Phase} {attempt : Nat} {act : Action} (h1 : 1 ≤ attempt)
    (he : (engine.executor? n).isSome)
    (hc : 12 * (retries engine r n + 1 - attempt) + 6 ≤ p.cost (retries engine r n)) :
    GoesOn engine n p r (r.runAction n.id attempt act) := by
  unfold runAction
  refine goesOn_enqueue ((touched_scope _).moved_setPhase rfl fun _ => rfl) (Phase.fits_mk rfl h1 he) rfl
    (Nat.le_trans ?_ hc)
  simp only [Phase.cost]
  omega

theorem goesOn_callExecutor {t : Task} {attempt : Nat} {limit : Alarm} (h1 : 1 ≤ attempt)
    (he : (engine.executor? t.node).isSome) :
    GoesOn engine t.node (.calling attempt limit) r (r.callExecutor engine now t attempt limit) := by
  obtain ⟨executor, hex⟩ := Option.isSome_iff_exists.1 he
  unfold callExecutor
  rw [hex]
  dsimp only
  split
  · apply goesOn_runAction h1 he
    simp only [Phase.cost]
    omega
  · next seconds act _ =>
    split
    · exact goesOn_wait (Touched.moved_setPhase (touched_scope r.scope) rfl fun _ => rfl)
        (Phase.fits_mk rfl h1 he) rfl rfl (by simp only [Phase.cost]; omega)
    · next micros _ =>
      split_ifs
      · refine goesOn_enqueue (Touched.moved_setPhase (touched_scope r.scope) rfl fun _ => rfl)
          (Phase.fits_mk rfl h1 he) rfl ?_
        simp only [Phase.cost]
        omega
      · exact goesOn_wait ((touched_setAlarm now _).moved_setPhase rfl fun _ => rfl)
          (Phase.fits_mk rfl h1 he) rfl rfl (by simp only [Phase.cost]; omega)

theorem goesOn_rest {p : Phase} {attempt : Nat} {delay : Number} (h1 : 1 ≤ attempt)
    (he : (engine.executor? n).isSome) (hd : engine.DelaysFinite → (microsOf delay).isSome)
    (hc : 12 * (retries engine r n - attempt) + 14 ≤ p.cost (retries engine r n)) :
    GoesOn engine n p r (r.rest now n.id attempt delay) := by
  unfold rest
  split
  · next hnone =>
    refine ⟨_, Touched.moved_setPhase (touched_scope r.scope) rfl fun _ => rfl, Phase.fits_mk rfl h1 he,
      Or.inl ⟨rfl, Nat.le_trans ?_ hc⟩, fun hfin _ => ?_⟩
    · simp only [Phase.cost]
      omega
    · have := hd (hfin rfl)
      rw [hnone] at this
      cases this
  · next micros _ =>
    split_ifs
    · refine goesOn_enqueue (Touched.moved_setPhase (touched_scope r.scope) rfl fun _ => rfl)
        (Phase.fits_mk rfl h1 he) rfl (Nat.le_trans ?_ hc)
      simp only [Phase.cost]
      omega
    · exact goesOn_wait ((touched_setAlarm now micros.toNat).moved_setPhase rfl fun _ => rfl)
        (Phase.fits_mk rfl h1 he) rfl rfl hc

theorem goesOn_recordAttempt {t : Task} {attempt : Nat} {result : Except Failure Value} (h1 : 1 ≤ attempt)
    (he : (engine.executor? t.node).isSome) :
    GoesOn engine t.node (.returned attempt result) r (r.recordAttempt engine now t attempt result) := by
  unfold recordAttempt
  cases result with
  | ok v =>
    obtain ⟨failed, hm⟩ : ∃ failed, Moved t.node.id (.finished failed) r
        (r.succeedTask engine t.node.id (engine.moment now) (outputsOf v)) := moved_succeedTask _
    exact goesOn_finished hm (agenda_succeedTask _)
  | error f =>
    dsimp only
    split_ifs with hcancelled hleft
    · exact goesOn_unwound (moved_close (touched_refl t.node.id r) fun _ h => h) rfl
    · split
      · next delay hdelay =>
        refine goesOn_rest h1 he (fun hfin => hfin attempt h1 delay hdelay) ?_
        have : attempt ≤ retries engine r t.node := hleft
        simp only [Phase.cost]
        omega
      · exact goesOn_finished (moved_failTask _) rfl
    · exact goesOn_finished (moved_failTask _) rfl

theorem Touched.then_goesOn {p : Phase} {f : Task → Task} {g : NodeLog → NodeLog} {r' r'' : Run}
    (h : Touched n.id f g r r') (hg : ∀ e, (g e).status = e.status) (ha : r'.agenda = r.agenda)
    (h' : GoesOn engine n p r' r'') : GoesOn engine n p r r'' := by
  obtain ⟨p', hm, hf, hagenda, hdue⟩ := h'
  have hretries : retries engine r' n = retries engine r n := by
    simp only [retries, h.frame.workflow]
  rw [hretries, ha] at hagenda
  rw [ha] at hdue
  exact ⟨p', h.then_moved hg hm, hf, hagenda, hdue⟩

theorem goesOn_resolveTask {t : Task} : GoesOn engine t.node .fresh r (r.resolveTask engine now t) := by
  unfold resolveTask
  dsimp only
  split
  · exact goesOn_finished (moved_failTask _) rfl
  · next inputs _ =>
    split
    · exact goesOn_finished (moved_failTask _) rfl
    have hedit : Touched t.node.id (fun t => t) (fun e => { e with inputs := some inputs }) r
        (r.editEntry t.node.id fun e => { e with inputs := some inputs }) :=
      touched_editEntry fun _ => rfl
    split
    · exact goesOn_finished (hedit.then_moved (fun _ => rfl) (moved_failTask _)) rfl
    · next executor hex =>
      have he : (engine.executor? t.node).isSome := by
        rw [hex]
        rfl
      refine (hedit.trans (touched_prepare t inputs)).then_goesOn (fun _ => rfl) rfl ?_
      refine goesOn_beginAttempt (Nat.le_refl 1) he ?_
      simp only [Phase.cost]
      omega

/-- One step of a task that has not ended. -/
theorem goesOn_goOn {t : Task} (hf : t.phase.Fits engine t.node) (hu : t.phase.isOver = false) :
    GoesOn engine t.node t.phase r (r.goOn engine now t) := by
  unfold goOn
  dsimp only
  split <;> rename_i hp <;> rw [hp] at hf ⊢
  · exact goesOn_resolveTask
  · next attempt limit =>
    obtain ⟨h1, he⟩ := hf attempt rfl
    exact goesOn_callExecutor h1 he
  · next attempt act wake limit =>
    obtain ⟨h1, he⟩ := hf attempt rfl
    refine goesOn_runAction h1 he ?_
    cases wake <;> simp only [Phase.cost] <;> omega
  · next attempt result =>
    obtain ⟨h1, he⟩ := hf attempt rfl
    refine goesOn_enqueue (Touched.moved_setPhase (touched_scope r.scope) rfl fun _ => rfl)
      (Phase.fits_mk rfl h1 he) rfl ?_
    simp only [Phase.cost]
    omega
  · next attempt result =>
    obtain ⟨h1, he⟩ := hf attempt rfl
    exact goesOn_recordAttempt h1 he
  · next attempt wake =>
    obtain ⟨h1, he⟩ := hf attempt rfl
    refine goesOn_beginAttempt (Nat.le_add_left 1 attempt) he ?_
    cases wake <;> simp only [Phase.cost] <;> omega
  all_goals
    rw [hp] at hu
    cases hu

theorem mayQueue_iff : engine.MayQueue n ↔ ((engine.executor? n).any fun executor => !executor.isAsync) = true :=
  Iff.rfl

theorem ring_of_not_heeds {t : Task} {alarm : Alarm} (h : ¬ t.phase.Heeds engine t.node alarm) :
    r.ring engine t alarm = r := by
  unfold ring
  dsimp only
  split <;> rename_i hp
  · rw [hp] at h
    refine if_neg fun hq => h ?_
    rw [Bool.and_eq_true, decide_eq_true_eq] at hq
    exact hq
  · rw [hp] at h
    obtain ⟨hw, hl⟩ := not_or.1 h
    rw [if_neg hw, if_neg hl]
  · rw [hp] at h
    exact if_neg h
  · rfl

/-- An alarm that is heeded takes a task further; nothing but the alarm itself pays for that. A task
that waits for a worker stands on the agenda already. -/
theorem goesOn_ring {t : Task} {alarm : Alarm} (hf : t.phase.Fits engine t.node)
    (hh : t.phase.Heeds engine t.node alarm) :
    ∃ p', Moved t.node.id p' r (r.ring engine t alarm) ∧ p'.Fits engine t.node ∧
      ((r.ring engine t alarm).agenda = r.agenda ++ [t.node.id] ∨
        t.phase.isDue ∧ t.phase.isResting = false ∧ (r.ring engine t alarm).agenda = r.agenda) ∧
      p'.cost (retries engine r t.node) + 3 ≤ t.phase.cost (retries engine r t.node) := by
  have hself : Touched t.node.id (fun t => t) (fun e => e) r r := touched_refl t.node.id r
  unfold ring
  dsimp only
  split
  · next attempt limit hp =>
    rw [hp] at hf hh ⊢
    obtain ⟨h1, he⟩ := hf attempt rfl
    rw [if_pos (by rw [Bool.and_eq_true, decide_eq_true_eq]; exact hh)]
    refine ⟨_, hself.moved_setPhase rfl fun _ => rfl, Phase.fits_mk rfl h1 he, Or.inr ⟨rfl, rfl, rfl⟩, ?_⟩
    simp only [Phase.cost]
    omega
  · next attempt act wake limit hp =>
    rw [hp] at hf hh ⊢
    obtain ⟨h1, he⟩ := hf attempt rfl
    split_ifs with hw hl
    · subst hw
      refine ⟨_, (hself.moved_setPhase rfl fun _ => rfl).enqueue _, Phase.fits_mk rfl h1 he, Or.inl rfl, ?_⟩
      simp only [Phase.cost]
      omega
    · refine ⟨_, (hself.moved_setPhase rfl fun _ => rfl).enqueue _, Phase.fits_mk rfl h1 he, Or.inl rfl, ?_⟩
      cases wake <;> simp only [Phase.cost] <;> omega
    · exact absurd hh (not_or.2 ⟨hw, hl⟩)
  · next attempt wake hp =>
    rw [hp] at hf hh ⊢
    obtain ⟨h1, he⟩ := hf attempt rfl
    obtain rfl : wake = some alarm := hh
    rw [if_pos rfl]
    refine ⟨_, (hself.moved_setPhase rfl fun _ => rfl).enqueue _, Phase.fits_mk rfl h1 he, Or.inl rfl, ?_⟩
    simp only [Phase.cost]
    omega
  · next hcall hwork hrest =>
    cases hp : t.phase with
    | calling attempt limit => exact absurd hp (hcall attempt limit)
    | working attempt act wake limit => exact absurd hp (hwork attempt act wake limit)
    | resting attempt wake => exact absurd hp (hrest attempt wake)
    | _ => rw [hp] at hh; cases hh

/-! What a move shows -/

section
variable {p : Phase} {r' : Run}

theorem Touched.entryIds {f : Task → Task} {g : NodeLog → NodeLog} (h : Touched id f g r r') :
    r'.entryIds = r.entryIds := by
  rw [Run.entryIds, h.entries, map_key_map_ite NodeLog.nodeId g h.nodeId]
  rfl

theorem Touched.nodes {f : Task → Task} {g : NodeLog → NodeLog} (h : Touched id f g r r') :
    r'.tasks.map Task.node = r.tasks.map Task.node := by
  rw [h.tasks, List.map_map]
  apply List.map_congr_left
  intro t _
  simp only [Function.comp_apply]
  split_ifs
  · exact h.node t
  · rfl

theorem taskIds_eq_of_nodes (h : r'.tasks.map Task.node = r.tasks.map Task.node) :
    r'.taskIds = r.taskIds := by
  have hids : ∀ r : Run, r.taskIds = (r.tasks.map Task.node).map Node.id := fun r => by
    simp [Run.taskIds]
  rw [hids, hids, h]

theorem Touched.entry? {f : Task → Task} {g : NodeLog → NodeLog} (h : Touched id f g r r') (x : String) :
    r'.entry? x = if x = id then (r.entry? x).map g else r.entry? x := by
  have := find?_map_ite NodeLog.nodeId g h.nodeId r.log.nodeLogs id x
  rw [← h.entries] at this
  exact this

end

end

end Run

end Flowgraph
