import Flowgraph.Proofs.Run.Life

/-! Where the outputs of a node come from. The inputs of its task are resolved once, at some moment of the run,
and whenever its executor is called it is called with them. What the executor gives acts on the variables at a
later moment, and the outputs of a node that has succeeded are what came of such an action. -/

namespace Flowgraph

open Relation (ReflTransGen)

/-- An effort comes to an action, at once or after waiting. -/
def Effort.Acts (e : Effort) (act : Action) : Prop :=
  e = .now act ∨ ∃ seconds, e = .after seconds act

/-- What is known about the attempts of a node: its resolved inputs, the actions that they have led to, and the
values that have come of those. -/
structure Account where
  resolved : Fields → Prop
  given : Action → Prop
  reached : Value → Prop

namespace Account

/-- What the task of a node can find out in a scope has become known. -/
structure Grows (engine : Engine) (n : Node) (s : Scope) (a a' : Account) : Prop where
  resolved : ∀ inputs, a.resolved inputs → a'.resolved inputs
  given : ∀ act, a.given act → a'.given act
  reached : ∀ v, a.reached v → a'.reached v
  resolve : ∀ inputs, s.fillFields (some n.id) n.inputs = .ok inputs → a'.resolved inputs
  call : ∀ executor i act, engine.executor? n = some executor → i.node = n → a.resolved i.inputs →
    (executor.perform i).Acts act → a.given act
  act : ∀ act v, a.given act → (act s).2 = .ok v → a'.reached v

end Account

/-- A task in this phase, with these inputs, has done nothing that is not known. -/
def Phase.Accords (a : Account) (inputs : Fields) : Phase → Prop
  | .fresh | .finished _ | .unwound => True
  | .calling _ _ | .resting _ _ => a.resolved inputs
  | .working _ act _ _ => a.resolved inputs ∧ a.given act
  | .returning _ result | .returned _ result => a.resolved inputs ∧ ∀ v, result = .ok v → a.reached v

def NodeLog.Accords (a : Account) (e : NodeLog) : Prop :=
  e.status = .success → ∃ v, a.reached v ∧ e.outputs = some (outputsOf v)

theorem NodeLog.accords_of_ne {a : Account} {e : NodeLog} (h : e.status ≠ .success) : e.Accords a :=
  fun hs => absurd hs h

namespace Run

def Carries (a : Account) (t : Task) (r r' : Run) : Prop :=
  ∃ f g, Touched t.node.id f g r r' ∧ (f t).phase.Accords a (f t).inputs ∧
    ∀ e, e.status = .running → (g e).Accords a

section
variable {engine : Engine} {now : Nat} {a a' : Account} {t : Task} {r r' : Run} {time : Moment} {attempt : Nat}
  {f : Task → Task} {g : NodeLog → NodeLog}

theorem Touched.carries (h : Touched t.node.id f g r r') (hg : ∀ e, (g e).status = e.status)
    (hp : (f t).phase.Accords a (f t).inputs) : Carries a t r r' :=
  ⟨f, g, h, hp, fun e he => NodeLog.accords_of_ne (by rw [hg, he]; exact nofun)⟩

theorem Touched.carries_setPhase {p : Phase} (h : Touched t.node.id f g r r') (hg : ∀ e, (g e).status = e.status)
    (hp : p.Accords a (f t).inputs) : Carries a t r (r'.setPhase t.node.id p) :=
  (h.trans (touched_setPhase p)).carries hg hp

theorem Touched.carries_enqueue {p : Phase} (h : Touched t.node.id f g r r') (hg : ∀ e, (g e).status = e.status)
    (hp : p.Accords a (f t).inputs) : Carries a t r ((r'.setPhase t.node.id p).enqueue t.node.id) :=
  ((h.trans (touched_setPhase p)).trans (touched_enqueue t.node.id)).carries hg hp

theorem Touched.carries_close {p : Phase} (h : Touched t.node.id f g r r') (hp : p.Accords a (f t).inputs)
    (hg : ∀ e, e.status = .running → (g e).Accords a) : Carries a t r (r'.close t.node.id time p) :=
  ⟨_, _, h.close time p, hp, hg⟩

theorem Touched.carries_failTask (h : Touched t.node.id f g r r') (failure : Failure) :
    Carries a t r (r'.failTask t.node.id time failure) :=
  (h.trans (touched_editEntry (g := fun e => { e with status := .failed, error := some failure.describe })
    fun _ => rfl)).carries_close (p := .finished true) trivial fun _ _ => NodeLog.accords_of_ne nofun

theorem carries_succeedTask {v : Value} (hv : a.reached v) :
    Carries a t r (r.succeedTask engine t.node.id time (outputsOf v)) := by
  have hrecord : Touched t.node.id _ _ r _ := touched_scope (r.scope.recordOutput t.node.id (outputsOf v))
  unfold succeedTask
  dsimp only
  split
  · exact hrecord.carries_failTask _
  · exact (hrecord.trans (touched_editEntry (g := fun e => { e with status := .success, outputs := some (outputsOf v) })
      fun _ => rfl)).carries_close (p := .finished false) trivial fun _ _ _ => ⟨v, hv, rfl⟩

/-- What becomes of a task does not depend on the agenda. -/
theorem Carries.of_agenda {agenda : List String} (h : Carries a t { r with agenda } r') : Carries a t r r' := by
  obtain ⟨f, g, ht, hcarried⟩ := h
  exact ⟨f, g, ht.of_agenda, hcarried⟩

/-! Each of the things that a task can do -/

theorem Touched.carries_beginAttempt (h : Touched t.node.id f g r r') (hg : ∀ e, (g e).status = e.status)
    (hx : a.resolved (f t).inputs) (attempt : Nat) :
    Carries a t r (r'.beginAttempt engine now t.node attempt) := by
  have hedit := h.trans (touched_editEntry (g := fun e => { e with retries := attempt - 1 }) fun _ => rfl)
  unfold beginAttempt
  dsimp only
  split_ifs
  · exact hedit.carries_enqueue hg ⟨hx, nofun⟩
  · exact (hedit.trans (touched_setAlarm now _)).carries_enqueue hg hx

theorem carries_resolveTask (ha : a.Grows engine t.node r.scope a') :
    Carries a' t r (r.resolveTask engine now t) := by
  unfold resolveTask
  dsimp only
  split
  · exact (touched_refl _ r).carries_failTask _
  · next inputs hfill =>
    have hedit : Touched t.node.id (fun t => t) (fun e => { e with inputs := some inputs }) r
        (r.editEntry t.node.id fun e => { e with inputs := some inputs }) :=
      touched_editEntry fun _ => rfl
    split
    · exact (touched_refl _ r).carries_failTask _
    split
    · exact hedit.carries_failTask _
    · exact (hedit.trans (touched_prepare t inputs)).carries_beginAttempt (fun _ => rfl) (ha.resolve inputs hfill) 1

theorem carries_runAction {act : Action} (ha : a.Grows engine t.node r.scope a') (hx : a.resolved t.inputs)
    (hact : a.given act) : Carries a' t r (r.runAction t.node.id attempt act) :=
  (touched_scope _).carries_enqueue (fun _ => rfl) ⟨ha.resolved _ hx, fun v hv => ha.act act v hact hv⟩

theorem carries_callExecutor {limit : Alarm} (ha : a.Grows engine t.node r.scope a') (hx : a.resolved t.inputs)
    (hp : t.phase.Accords a' t.inputs) : Carries a' t r (r.callExecutor engine now t attempt limit) := by
  unfold callExecutor
  dsimp only
  split
  · exact (touched_refl _ r).carries (fun _ => rfl) hp
  · next executor hex =>
    have hgiven : ∀ act, (executor.perform _).Acts act → a.given act := fun act =>
      ha.call executor ⟨t.node, t.inputs, t.credentials, r.log.executionId, attempt⟩ act hex rfl hx
    split
    · next act hnow => exact carries_runAction ha hx (hgiven act (Or.inl hnow))
    · next seconds act hafter =>
      have hwork : ∀ wake, (Phase.working attempt act wake limit).Accords a' t.inputs := fun wake =>
        ⟨ha.resolved _ hx, ha.given act (hgiven act (Or.inr ⟨seconds, hafter⟩))⟩
      split
      · exact (touched_refl _ r).carries_setPhase (fun _ => rfl) (hwork none)
      · split_ifs
        · exact (touched_refl _ r).carries_enqueue (fun _ => rfl) (hwork none)
        · exact (touched_setAlarm now _).carries_setPhase (fun _ => rfl) (hwork _)

theorem carries_rest {delay : Number} (hx : a.resolved t.inputs) :
    Carries a t r (r.rest now t.node.id attempt delay) := by
  unfold rest
  split
  · exact (touched_refl _ r).carries_setPhase (fun _ => rfl) hx
  · next micros _ =>
    split_ifs
    · exact (touched_refl _ r).carries_enqueue (fun _ => rfl) hx
    · exact (touched_setAlarm now micros.toNat).carries_setPhase (fun _ => rfl) hx

theorem carries_recordAttempt {result : Except Failure Value} (hx : a.resolved t.inputs)
    (hv : ∀ v, result = .ok v → a.reached v) : Carries a t r (r.recordAttempt engine now t attempt result) := by
  unfold recordAttempt
  dsimp only
  split
  · next v => exact carries_succeedTask (hv v rfl)
  · split_ifs
    · exact (touched_refl _ r).carries_close (p := .unwound) trivial fun e he =>
        NodeLog.accords_of_ne (by rw [he]; exact nofun)
    · split
      · exact carries_rest hx
      · exact (touched_refl _ r).carries_failTask _
    · exact (touched_refl _ r).carries_failTask _

/-- One step of a task that has not finished. -/
theorem carries_goOn (ha : a.Grows engine t.node r.scope a') (hu : t.phase.status = .running)
    (hp : t.phase.Accords a t.inputs) : Carries a' t r (r.goOn engine now t) := by
  unfold goOn
  dsimp only
  split <;> rename_i hphase <;> rw [hphase] at hp
  · exact carries_resolveTask ha
  · exact carries_callExecutor ha hp (by rw [hphase]; exact ha.resolved _ hp)
  · exact carries_runAction ha hp.1 hp.2
  · refine (touched_refl _ r).carries_enqueue (fun _ => rfl) ?_
    exact ⟨ha.resolved _ hp.1, fun v hv => ha.reached v (hp.2 v hv)⟩
  · exact carries_recordAttempt (ha.resolved _ hp.1) fun v hv => ha.reached v (hp.2 v hv)
  · exact (touched_refl _ r).carries_beginAttempt (fun _ => rfl) (ha.resolved _ hp) _
  · next failed =>
    rw [hphase] at hu
    cases failed <;> cases hu
  · exact (touched_refl _ r).carries (fun _ => rfl) (by rw [hphase]; trivial)

theorem carries_ring (alarm : Alarm) (hp : t.phase.Accords a t.inputs) : Carries a t r (r.ring engine t alarm) := by
  have hself : Carries a t r r := (touched_refl _ r).carries (fun _ => rfl) hp
  unfold ring
  dsimp only
  split
  · next hphase =>
    rw [hphase] at hp
    split_ifs
    · exact (touched_refl _ r).carries_setPhase (fun _ => rfl) ⟨hp, nofun⟩
    · exact hself
  · next hphase =>
    rw [hphase] at hp
    split_ifs
    · exact (touched_refl _ r).carries_enqueue (fun _ => rfl) hp
    · exact (touched_refl _ r).carries_enqueue (fun _ => rfl) ⟨hp.1, nofun⟩
    · exact hself
  · next hphase =>
    rw [hphase] at hp
    split_ifs
    · exact (touched_refl _ r).carries_enqueue (fun _ => rfl) hp
    · exact hself
  · exact hself

end

/-! Whole runs -/

/-- All that the tasks and the entries of a node show is known. -/
structure Accords (a : Account) (id : String) (r : Run) : Prop where
  tasks : r.isFinished = false → ∀ t ∈ r.tasks, t.node.id = id → t.phase.Accords a t.inputs
  entries : ∀ e ∈ r.log.nodeLogs, e.nodeId = id → e.Accords a

/-- Something happens to a run: it takes a step, or it is cancelled. -/
inductive Happens (engine : Engine) : Run → Run → Prop
  | step {r r' : Run} (hs : Step engine r r') : Happens engine r r'
  | cancel (r : Run) (time : Moment) : Happens engine r (r.cancel time)

/-- A run that has come to `r` has come by `q` before. -/
def Past (engine : Engine) (r₀ q r : Run) : Prop :=
  ReflTransGen (Happens engine) r₀ q ∧ ReflTransGen (Happens engine) q r

def Runs (r : Run) (id : String) : Prop :=
  ∃ e, r.entry? id = some e ∧ e.status = .running

def Resolved (engine : Engine) (r₀ : Run) (n : Node) (r : Run) (inputs : Fields) : Prop :=
  ∃ q, Past engine r₀ q r ∧ q.Runs n.id ∧ q.scope.fillFields (some n.id) n.inputs = .ok inputs

/-- The executor of the node, called with resolved inputs, comes to this action. -/
def Given (engine : Engine) (r₀ : Run) (n : Node) (r : Run) (act : Action) : Prop :=
  ∃ executor i, engine.executor? n = some executor ∧ i.node = n ∧ Resolved engine r₀ n r i.inputs ∧
    (executor.perform i).Acts act

def Reached (engine : Engine) (r₀ : Run) (n : Node) (r : Run) (v : Value) : Prop :=
  ∃ q act, Past engine r₀ q r ∧ q.Runs n.id ∧ Given engine r₀ n q act ∧ (act q.scope).2 = .ok v

def account (engine : Engine) (r₀ : Run) (n : Node) (r : Run) : Account where
  resolved := Resolved engine r₀ n r
  given := Given engine r₀ n r
  reached := Reached engine r₀ n r

section
variable {engine : Engine} {w : Workflow} {n : Node} {a a' : Account} {id : String} {r₀ r r' q : Run} {t : Task}
  {f : Front} {now : Nat} {time : Moment} {inputs : Fields} {act : Action} {v : Value}

theorem Past.later (h : Past engine r₀ q r) (hr : Happens engine r r') : Past engine r₀ q r' :=
  ⟨h.1, h.2.tail hr⟩

theorem Resolved.later (h : Resolved engine r₀ n r inputs) (hr : Happens engine r r') :
    Resolved engine r₀ n r' inputs := by
  obtain ⟨q, hq, hfill⟩ := h
  exact ⟨q, hq.later hr, hfill⟩

theorem Given.later (h : Given engine r₀ n r act) (hr : Happens engine r r') : Given engine r₀ n r' act := by
  obtain ⟨executor, i, hx, hi, hresolved, hact⟩ := h
  exact ⟨executor, i, hx, hi, hresolved.later hr, hact⟩

theorem Reached.later (h : Reached engine r₀ n r v) (hr : Happens engine r r') : Reached engine r₀ n r' v := by
  obtain ⟨q, act, hq, hact⟩ := h
  exact ⟨q, act, hq.later hr, hact⟩

theorem grows_account (hpast : ReflTransGen (Happens engine) r₀ r) (hruns : r.Runs n.id) (hr : Happens engine r r') :
    (account engine r₀ n r).Grows engine n r.scope (account engine r₀ n r') where
  resolved := fun _ h => Resolved.later h hr
  given := fun _ h => Given.later h hr
  reached := fun _ h => Reached.later h hr
  resolve := fun _ h => ⟨r, ⟨hpast, .single hr⟩, hruns, h⟩
  call := fun executor i _ hx hi hresolved hact => ⟨executor, i, hx, hi, hresolved, hact⟩
  act := fun act _ hgiven hact => ⟨r, act, ⟨hpast, .single hr⟩, hruns, hgiven, hact⟩

theorem Phase.Accords.later {p : Phase} (h : p.Accords (account engine r₀ n r) inputs) (hr : Happens engine r r') :
    p.Accords (account engine r₀ n r') inputs := by
  cases p with
  | fresh => trivial
  | finished failed => trivial
  | unwound => trivial
  | calling attempt limit => exact Resolved.later h hr
  | resting attempt wake => exact Resolved.later h hr
  | working attempt act wake limit => exact ⟨Resolved.later h.1 hr, Given.later h.2 hr⟩
  | returning attempt result => exact ⟨Resolved.later h.1 hr, fun v hv => Reached.later (h.2 v hv) hr⟩
  | returned attempt result => exact ⟨Resolved.later h.1 hr, fun v hv => Reached.later (h.2 v hv) hr⟩

theorem Accords.later (h : r.Accords (account engine r₀ n r) id) (hr : Happens engine r r') :
    r.Accords (account engine r₀ n r') id where
  tasks := fun hu t ht hid => Phase.Accords.later (h.tasks hu t ht hid) hr
  entries := fun e he hid hs => by
    obtain ⟨v, hv, houtputs⟩ := h.entries e he hid hs
    exact ⟨v, Reached.later hv hr, houtputs⟩

/-- Nothing that has succeeded comes from skipping. -/
theorem Skips.accords (h : Skips r r') (hx : ∀ e ∈ r.log.nodeLogs, e.nodeId = id → e.Accords a) :
    ∀ e ∈ r'.log.nodeLogs, e.nodeId = id → e.Accords a := fun e he hid hs =>
  hx e (h.mem_of_ne he (by rw [hs]; exact nofun) (by rw [hs]; exact nofun)) hid hs

theorem Accords.complete (h : r.Accords a id) (hc : Closable w r) : (r.complete time).Accords a id where
  tasks := fun hu => absurd (hu.symm.trans hc.covers.finished) Bool.false_ne_true
  entries := hc.skips.accords h.entries

/-- Nothing that handling and starting add has been attempted yet. -/
theorem Accords.continues (h : f.run.Accords a id) (hu : f.run.isFinished = false) (hc : Continues f time r) :
    r.Accords a id := by
  obtain @⟨q, _, order, nodes, hb, -, hs, -⟩ := hc
  have hh := Front.handled_of_beats hb
  refine ⟨fun _ t ht hid => ?_, fun e he hid => ?_⟩
  · rw [hs.tasks] at ht
    rcases List.mem_append.1 ht with ht | ht
    · exact h.tasks hu t (hh.tasks ▸ ht) hid
    · obtain ⟨n, -, rfl⟩ := List.mem_map.1 ht
      trivial
  · rw [hs.log] at he
    rcases List.mem_append.1 he with he | he
    · exact hh.skips.accords h.entries e he hid
    · obtain ⟨n, -, rfl⟩ := List.mem_map.1 he
      exact NodeLog.accords_of_ne nofun

theorem Accords.over (h : f.run.Accords a id) (hf : Ready engine w f) (ho : Over f time r) :
    (r.complete time).Accords a id where
  tasks := fun hu => absurd (hu.symm.trans (hf.closable ho).covers.finished) Bool.false_ne_true
  entries := (hf.skips ho).accords h.entries

/-- A task that goes on is the node's own, or it leaves the node alone. -/
theorem Accords.carried (h : r.Accords a id) (hu : r.isFinished = false) (hsound : r.Sound) (ht : t ∈ r.tasks)
    (hrun : t.phase.status = .running) (hown : t.node.id = id → Carries a t r r')
    (hother : ∃ f g, Touched t.node.id f g r r') : r'.Accords a id := by
  by_cases hid : t.node.id = id
  · obtain ⟨f, g, htouch, hp, hg⟩ := hown hid
    refine ⟨fun _ u' hu' _ => ?_, fun e' he' _ => ?_⟩
    · rw [htouch.tasks] at hu'
      obtain ⟨u, hmem, rfl⟩ := List.mem_map.1 hu'
      split_ifs with hsame
      · rwa [List.inj_on_of_nodup_map hsound.tasks_nodup hmem ht hsame]
      · rename_i hnode
        rw [if_neg hsame] at hnode
        exact h.tasks hu u hmem hnode
    · rw [htouch.entries] at he'
      obtain ⟨e, he, rfl⟩ := List.mem_map.1 he'
      split_ifs with hsame
      · obtain ⟨e₀, he₀, hst⟩ := hsound.task_entry t ht
        rw [← hsame, entry?_of_mem hsound.entries_nodup he] at he₀
        obtain rfl := Option.some.inj he₀
        exact hg e (hst.trans hrun)
      · rename_i hnode
        rw [if_neg hsame] at hnode
        exact h.entries e he hnode
  · obtain ⟨f, g, htouch⟩ := hother
    refine ⟨fun _ u' hu' hnode => ?_, fun e' he' hnode => ?_⟩
    · rw [htouch.tasks] at hu'
      obtain ⟨u, hmem, rfl⟩ := List.mem_map.1 hu'
      split_ifs at hnode ⊢ with hsame
      · exact absurd ((htouch.node u ▸ hsame).symm.trans hnode) hid
      · exact h.tasks hu u hmem hnode
    · rw [htouch.entries] at he'
      obtain ⟨e, he, rfl⟩ := List.mem_map.1 he'
      split_ifs at hnode ⊢ with hsame
      · exact absurd ((htouch.nodeId e ▸ hsame).symm.trans hnode) hid
      · exact h.entries e he hnode

theorem Sound.runs (h : r.Sound) (ht : t ∈ r.tasks) (hrun : t.phase.status = .running) : r.Runs t.node.id := by
  obtain ⟨e, he, hst⟩ := h.task_entry t ht
  exact ⟨e, he, hst.trans hrun⟩

theorem Sound.node_eq (h : r.Sound) (hn : r.graph.node? n.id = some n) (ht : t ∈ r.tasks) (hid : t.node.id = n.id) :
    t.node = n := by
  have := h.task_node t ht
  rw [hid, hn] at this
  exact (Option.some.inj this).symm

theorem Active.accords_resume (h : Active engine w r) (hn : r.graph.node? n.id = some n)
    (hpast : ReflTransGen (Happens engine) r₀ r) (hx : r.Accords (account engine r₀ n r) n.id)
    (hr : Happens engine r (r.resume engine now id)) :
    (r.resume engine now id).Accords (account engine r₀ n (r.resume engine now id)) n.id := by
  rcases h.resume_cases now id with ⟨t, ht, hover, p, hm, -⟩ | ⟨-, heq⟩
  · have hmem := task?_mem ht
    have hrun := Phase.status_of_not_over hover
    have hgo : r.resume engine now id = { r with agenda := r.agenda.erase id }.goOn engine now t := by
      unfold Run.resume
      rw [ht]
    obtain ⟨f, g, htouch, -⟩ := Moved.of_agenda hm
    refine (hx.later hr).carried h.unfinished h.good.sound hmem hrun (fun hid => ?_) ⟨f, g, htouch⟩
    obtain rfl := h.good.sound.node_eq hn hmem hid
    have hgrows := grows_account hpast (h.good.sound.runs hmem hrun) hr
    have hcarries : Carries (account engine r₀ t.node (r.resume engine now id)) t
        { r with agenda := r.agenda.erase id } ({ r with agenda := r.agenda.erase id }.goOn engine now t) :=
      carries_goOn hgrows hrun (hx.tasks h.unfinished t hmem rfl)
    rw [← hgo] at hcarries
    exact hcarries.of_agenda
  · have hlater := hx.later hr
    rw [heq] at hlater ⊢
    exact ⟨hlater.tasks, hlater.entries⟩

theorem Active.accords_ring {alarm : Alarm} (h : Active engine w r) (ht : t ∈ r.tasks)
    (ha : t.phase.Heeds engine t.node alarm)
    (hx : r.Accords (account engine r₀ n r) n.id) (hr : Happens engine r (r.ring engine t alarm)) :
    (r.ring engine t alarm).Accords (account engine r₀ n (r.ring engine t alarm)) n.id := by
  obtain ⟨p, ⟨f, g, htouch, -⟩, -⟩ := goesOn_ring (r := r) (h.fits t ht) ha
  have hlater := hx.later hr
  exact hlater.carried h.unfinished h.good.sound ht (Phase.Heeds.status ha)
    (fun hid => carries_ring alarm (hlater.tasks h.unfinished t ht hid)) ⟨f, g, htouch⟩

theorem Active.accords_step (hlimit : 0 < engine.limit) (h : Active engine w r) (hn : r.graph.node? n.id = some n)
    (hpast : ReflTransGen (Happens engine) r₀ r) (hx : r.Accords (account engine r₀ n r) n.id)
    (hs : Step engine r r') : r'.Accords (account engine r₀ n r') n.id := by
  have hr : Happens engine r r' := .step hs
  cases hs with
  | launch now hb => exact absurd hb.tasks h.tasks
  | resume now hu hid => exact h.accords_resume hn hpast hx hr
  | ring hu ht ha => exact h.accords_ring ht ha hx hr
  | gather now hu hf =>
    have hbatch : r.batchFront.run.Accords
        (account engine r₀ n ((r.handleBatch (engine.moment now)).proceed engine now)) n.id :=
      ⟨fun hu t ht => (hx.later hr).tasks hu t (List.mem_of_mem_filter ht), (hx.later hr).entries⟩
    rcases h.gather now hlimit hf with ⟨-, -, hc⟩ | ⟨m, hm, heq⟩
    · exact hbatch.continues h.unfinished hc
    · rw [heq] at hbatch ⊢
      exact hbatch.over h.ready_batch hm

theorem Unbegun.accords (h : r.Unbegun) (a : Account) (id : String) : r.Accords a id where
  tasks := fun _ t ht => by
    rw [h.tasks] at ht
    cases ht
  entries := fun e he => by
    rw [h.entries] at he
    cases he

theorem Unbegun.accords_step (hlimit : 0 < engine.limit) (h : r.Unbegun) (hs : Step engine r r') (a : Account)
    (id : String) : r'.Accords a id := by
  obtain ⟨now, rfl⟩ := h.step hs
  have hfirst : (firstFront r).run.Accords a id := h.accords a id
  rcases h.launch now hlimit with ⟨-, -, hc⟩ | ⟨m, hm, heq⟩
  · exact hfirst.continues h.unfinished hc
  · have hready : Ready engine r.workflow (firstFront r) := h.ready_firstFront
    rw [heq]
    exact hfirst.over hready hm

/-- However far things have gone, they are part of a life. -/
theorem exists_life (h : ReflTransGen (Happens engine) r₀ r) :
    ∃ cancelled raised, Life engine r₀ cancelled raised r := by
  induction h with
  | refl => exact ⟨false, false, .start⟩
  | @tail q r _ hr ih =>
    obtain ⟨cancelled, raised, hlife⟩ := ih
    cases hr with
    | step hs =>
      by_cases hraise : Raising engine q r
      · exact ⟨cancelled, true, hlife.raise hraise⟩
      · exact ⟨cancelled, raised, hlife.step hs hraise⟩
    | cancel time => exact ⟨_, raised, hlife.cancel time⟩

theorem underway_of_happens (hlimit : 0 < engine.limit) (h₀ : r₀.Unbegun) (h : ReflTransGen (Happens engine) r₀ r)
    (hu : r.isFinished = false) : Underway engine r₀ r := by
  obtain ⟨cancelled, raised, hlife⟩ := exists_life h
  exact hlife.underway hlimit h₀ hu

/-- Once a run has finished, its log tells about every node. -/
theorem covers_of_happens (hlimit : 0 < engine.limit) (h₀ : r₀.Unbegun) (h : ReflTransGen (Happens engine) r₀ r)
    (hf : r.isFinished = true) : Covers r₀.workflow r.log := by
  induction h with
  | refl => exact absurd (h₀.unfinished.symm.trans hf) Bool.false_ne_true
  | @tail q r hpast hr ih =>
    cases hr with
    | step hs =>
      rcases underway_of_happens hlimit h₀ hpast hs.unfinished with rfl | ha
      · obtain ⟨now, rfl⟩ := h₀.step hs
        refine (h₀.launch_covers now hlimit).resolve_left fun ha => ?_
        exact Bool.false_ne_true (ha.unfinished.symm.trans hf)
      · refine (ha.step_covers hlimit hs).resolve_left fun ha' => ?_
        exact Bool.false_ne_true (ha'.1.unfinished.symm.trans hf)
    | cancel time =>
      cases hq : q.isFinished with
      | true =>
        rw [cancel_of_finished time hq]
        exact ih hq
      | false =>
        rcases underway_of_happens hlimit h₀ hpast hq with rfl | ha
        · exact h₀.cancel_covers
        · exact ha.cancel_covers

theorem Accords.cancel (h : r.Accords a id) (hstop : r.stop = none)
    (hc : Closable w { r with stop := some ⟨.cancelled, cancelReason⟩ }) (time : Moment) :
    (r.cancel time).Accords a id := by
  rw [cancel_eq hstop]
  exact Accords.complete ⟨h.tasks, h.entries⟩ hc

theorem Underway.accords_cancel (h₀ : r₀.Unbegun) (h : Underway engine r₀ r) (hx : r.Accords a id) (time : Moment) :
    (r.cancel time).Accords a id := by
  rcases h with rfl | ha
  · exact hx.cancel h₀.stop h₀.closable_cancel time
  · exact hx.cancel ha.stop ha.closable_cancel time

/-- At every moment of a run, what a node shows is accounted for by earlier moments. -/
theorem accords_account (hlimit : 0 < engine.limit) (h₀ : r₀.Unbegun)
    (hn : (Graph.ofWorkflow r₀.workflow).node? n.id = some n) (h : ReflTransGen (Happens engine) r₀ r) :
    r.Accords (account engine r₀ n r) n.id := by
  induction h with
  | refl => exact h₀.accords _ _
  | @tail r r' hpast hr ih =>
    cases hr with
    | step hs =>
      rcases underway_of_happens hlimit h₀ hpast hs.unfinished with rfl | ha
      · exact h₀.accords_step hlimit hs _ _
      · exact ha.accords_step hlimit (ha.graph ▸ hn) hpast ih hs
    | cancel time =>
      have hlater := ih.later (.cancel r time)
      cases hf : r.isFinished with
      | true =>
        have hlog := cancel_of_finished time hf
        refine ⟨fun hu => ?_, fun e he => hlater.entries e (hlog ▸ he)⟩
        rw [Run.isFinished, hlog] at hu
        exact absurd (hu.symm.trans hf) Bool.false_ne_true
      | false => exact (underway_of_happens hlimit h₀ hpast hf).accords_cancel h₀ hlater time

end

end Run

end Flowgraph
