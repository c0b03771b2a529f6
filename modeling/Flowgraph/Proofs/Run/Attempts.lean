import Flowgraph.Proofs.Backoff
import Flowgraph.Proofs.Run.Tally

/-! The attempts of a node, one after the other. Its task stands where its tally says at every moment: so many
attempts have failed, each within the retry budget and with a time to wait after it, and the executor has been
called once for each of them that did not run out of time before, always with the same inputs. When the node has
ended, its entry says how. -/

namespace Flowgraph

/-- What the attempts of a node go by. -/
structure Terms where
  node : Node
  policy : Policy
  backoff : Backoff
  runId : String
  copyFault? : Value → Option Failure

/-- What the executor is called with for the first so many attempts, those apart in which it waited too long for a
worker; when the time limit has passed before it can be called, it is not. -/
def Terms.invocations (x : Terms) (inputs : Fields) (credentials : Value) (starved : List Nat) (attempts : Nat) :
    List Invocation :=
  if 0 < x.policy.timeout then
    ((List.range' 1 attempts).filter fun attempt => attempt ∉ starved).map fun attempt =>
      ⟨x.node, inputs, credentials, x.runId, attempt⟩
  else []

/-- An attempt that came out so has failed, and not because it was cancelled. -/
def Failure.Ordinary (result : Except Failure Value) : Prop :=
  ∃ f : Failure, result = .error f ∧ f.kind ≠ .cancelled

/-- So far all attempts have failed, within the budget, and after each there was a time to wait. -/
structure Tally.Spent (x : Terms) (y : Tally) : Prop where
  failed : ∀ result ∈ y.outcomes, Failure.Ordinary result
  lasts : x.backoff.Lasts y.outcomes.length
  within : y.outcomes.length ≤ x.policy.retries

/-- The tally of a task that is making attempts, with so many calls of its executor. -/
structure Tally.Backs (x : Terms) (y : Tally) (t : Task) (e : NodeLog) (calls : Nat) : Prop where
  spent : y.Spent x
  inputs : e.inputs = some t.inputs
  starved : ∀ attempt ∈ y.starved, attempt ≤ calls
  calls : y.calls = x.invocations t.inputs t.credentials y.starved calls

/-- What the entry of a node says whose outputs are these: they can be copied for the log, or the node fails. -/
def NodeLog.Delivers (x : Terms) (e : NodeLog) (outputs : Fields) : Prop :=
  match x.copyFault? (.object outputs) with
  | none => e.status = .success ∧ e.outputs = some outputs
  | some f => e.status = .failed ∧ e.error = some f.describe

/-- What the entry of a node says whose last attempt came out so, after this many that failed. -/
def NodeLog.Says (x : Terms) (before : Nat) (e : NodeLog) : Except Failure Value → Prop
  | .ok v => e.Delivers x (outputsOf v)
  | .error g => e.status = .failed ∧
    if g.kind = .cancelled then e.error = some (Stop.interruption none)
    else
      before = x.policy.retries ∧ e.error = some g.describe ∨
        before < x.policy.retries ∧ ∃ g', x.backoff.delay (before + 1 : Nat) = .error g' ∧ e.error = some g'.describe

/-- How a node has ended that was given these inputs: all attempts but the last have failed. -/
structure NodeLog.EndsWith (x : Terms) (y : Tally) (e : NodeLog) (inputs : Fields) (before : Nat)
    (result : Except Failure Value) (credentials : Value) : Prop where
  outcomes : ∃ earlier, y.outcomes = earlier ++ [result] ∧ earlier.length = before ∧
    ∀ result ∈ earlier, Failure.Ordinary result
  lasts : x.backoff.Lasts before
  within : before ≤ x.policy.retries
  retries : e.retries = before
  calls : y.calls = x.invocations inputs credentials y.starved (before + 1)
  verdict : e.Says x before result

def NodeLog.Ends (x : Terms) (y : Tally) (e : NodeLog) : Prop :=
  ∀ inputs, e.inputs = some inputs → ∃ before result credentials, e.EndsWith x y inputs before result credentials

def Task.Tells (x : Terms) (y : Tally) (agenda : List String) (t : Task) (e : NodeLog) : Prop :=
  match t.phase with
  | .fresh => y = ⟨[], [], []⟩ ∧ e.inputs = none
  | .calling attempt _ =>
    y.Backs x t e y.outcomes.length ∧ attempt = y.outcomes.length + 1 ∧ e.retries = y.outcomes.length ∧
      0 < x.policy.timeout
  | .working attempt _ _ _ | .returning attempt _ | .returned attempt _ =>
    y.Backs x t e (y.outcomes.length + 1) ∧ attempt = y.outcomes.length + 1 ∧ e.retries = y.outcomes.length
  | .resting attempt wake =>
    y.Backs x t e y.outcomes.length ∧ attempt = y.outcomes.length ∧
      (wake = none → x.node.id ∈ agenda ∨ ∃ delay, x.backoff.delay attempt = .ok delay ∧ microsOf delay = none)
  | .unwound => ∀ time, (e.interrupted time none).Ends x y
  | .finished _ => True

theorem NodeLog.ends_of_none {x : Terms} {y : Tally} {e : NodeLog} (h : e.inputs = none) : e.Ends x y := by
  intro inputs hinputs
  rw [h] at hinputs
  cases hinputs

section
variable {x : Terms} (inputs : Fields) (credentials : Value) {starved : List Nat} {attempts : Nat}

/-- The next attempt calls the executor. -/
theorem Terms.invocations_succ (h : 0 < x.policy.timeout) (hs : ∀ attempt ∈ starved, attempt ≤ attempts) :
    x.invocations inputs credentials starved (attempts + 1) =
      x.invocations inputs credentials starved attempts ++
        [⟨x.node, inputs, credentials, x.runId, attempts + 1⟩] := by
  have hnew : attempts + 1 ∉ starved := fun hmem => Nat.not_succ_le_self _ (hs _ hmem)
  simp [invocations, h, List.range'_1_concat, List.filter_append, Nat.add_comm 1 attempts, hnew]

/-- The next attempt does not get to that. -/
theorem Terms.invocations_starved :
    x.invocations inputs credentials (starved ++ [attempts + 1]) (attempts + 1) =
      x.invocations inputs credentials starved attempts := by
  have hlast : ∀ k ∈ List.range' 1 attempts, k ≠ attempts + 1 := fun k hk => by
    have := List.mem_range'_1.1 hk
    omega
  have hkeep : ((List.range' 1 attempts).filter fun k => k ∉ starved ++ [attempts + 1]) =
      (List.range' 1 attempts).filter fun k => k ∉ starved :=
    List.filter_congr fun k hk => by simp [hlast k hk]
  simp only [invocations, List.range'_1_concat, List.filter_append, hkeep]
  simp [Nat.add_comm 1 attempts]

theorem Terms.invocations_of_not (h : ¬ 0 < x.policy.timeout) (starved : List Nat) (attempts : Nat) :
    x.invocations inputs credentials starved attempts = [] := by
  rw [invocations, if_neg h]

end

theorem Tally.Backs.congr {x : Terms} {y : Tally} {t t' : Task} {e e' : NodeLog} {calls : Nat}
    (h : y.Backs x t e calls) (hi : t'.inputs = t.inputs) (hc : t'.credentials = t.credentials)
    (he : e'.inputs = e.inputs) : y.Backs x t' e' calls :=
  ⟨h.spent, by rw [he, hi, h.inputs], h.starved, by rw [hi, hc, h.calls]⟩

theorem Task.Tells.mono {x : Terms} {y : Tally} {agenda agenda' : List String} {t : Task} {e : NodeLog}
    (h : t.Tells x y agenda e) (ha : x.node.id ∈ agenda → x.node.id ∈ agenda') : t.Tells x y agenda' e := by
  unfold Task.Tells at h ⊢
  cases hp : t.phase with
  | resting attempt wake =>
    rw [hp] at h
    exact ⟨h.1, h.2.1, fun hw => (h.2.2 hw).imp_left ha⟩
  | _ =>
    rw [hp] at h
    exact h

/-- What is said of a task that has ended does not depend on the agenda. -/
theorem Task.Tells.of_over {x : Terms} {y : Tally} {agenda agenda' : List String} {t : Task} {e : NodeLog}
    (h : t.Tells x y agenda e) (hover : t.phase.isOver = true) : t.Tells x y agenda' e := by
  unfold Task.Tells at h ⊢
  rcases Phase.isOver_iff.1 hover with ⟨failed, hp⟩ | hp
  · rw [hp]
    trivial
  · rw [hp] at h ⊢
    exact h

theorem Task.tells_of_fresh {x : Terms} {y : Tally} {agenda : List String} {t : Task} {e : NodeLog}
    (hp : t.phase = .fresh) (hy : y = ⟨[], [], []⟩) (he : e.inputs = none) : t.Tells x y agenda e := by
  unfold Task.Tells
  rw [hp]
  exact ⟨hy, he⟩

namespace Run

def terms (engine : Engine) (r : Run) (n : Node) : Terms :=
  ⟨n, Policy.resolve r.workflow n engine.defaultTimeout, engine.backoff, r.log.executionId, engine.copyFault?⟩

def Advances (x : Terms) (y : Tally) (t : Task) (e : NodeLog) (r r' : Run) : Prop :=
  ∃ f g, Touched t.node.id f g r r' ∧ (f t).Tells x y r'.agenda (g e) ∧ ((g e).status ≠ .running → (g e).Ends x y)

section
variable {engine : Engine} {now attempt : Nat} {time : Moment} {t : Task} {e : NodeLog} {r r' : Run} {x : Terms}
  {y : Tally} {f : Task → Task} {g : NodeLog → NodeLog}

/-! The phase changes last -/

theorem Touched.advances_setPhase (h : Touched t.node.id f g r r') (p : Phase) (hrun : (g e).status = .running)
    (ht : Task.Tells x y r'.agenda { f t with phase := p } (g e)) :
    Advances x y t e r (r'.setPhase t.node.id p) :=
  ⟨_, _, h.trans (touched_setPhase p), ht, fun hs => absurd hrun hs⟩

theorem Touched.advances_enqueue (h : Touched t.node.id f g r r') (p : Phase) (hrun : (g e).status = .running)
    (ht : Task.Tells x y (r'.agenda ++ [t.node.id]) { f t with phase := p } (g e)) :
    Advances x y t e r ((r'.setPhase t.node.id p).enqueue t.node.id) :=
  ⟨_, _, (h.trans (touched_setPhase p)).trans (touched_enqueue t.node.id), ht, fun hs => absurd hrun hs⟩

theorem Touched.advances_failTask (h : Touched t.node.id f g r r') (failure : Failure)
    (he : NodeLog.Ends x y { g e with status := .failed, error := some failure.describe, endTime := some time }) :
    Advances x y t e r (r'.failTask t.node.id time failure) := by
  have hedit := h.trans
    (touched_editEntry (g := fun e => { e with status := .failed, error := some failure.describe }) fun _ => rfl)
  exact ⟨_, _, hedit.close time (.finished true), trivial, fun _ => he⟩

theorem advances_succeedTask (hx : x = r.terms engine t.node) (outputs : Fields)
    (he : ∀ e' : NodeLog, e'.inputs = e.inputs → e'.retries = e.retries → e'.Delivers x outputs → e'.Ends x y) :
    Advances x y t e r (r.succeedTask engine t.node.id time outputs) := by
  have hcopy : engine.copyFault? = x.copyFault? := by
    rw [hx]
    rfl
  have hrecord : Touched t.node.id (fun t => t) (fun e => e) r
      { r with scope := r.scope.recordOutput t.node.id outputs } := touched_scope _
  unfold succeedTask
  dsimp only
  rw [hcopy]
  split
  · next fault hfault =>
    refine hrecord.advances_failTask fault (he _ rfl rfl ?_)
    rw [NodeLog.Delivers, hfault]
    exact ⟨rfl, rfl⟩
  · next hnone =>
    have hedit := hrecord.trans
      (touched_editEntry (g := fun e => { e with status := .success, outputs := some outputs }) fun _ => rfl)
    refine ⟨_, _, hedit.close time (.finished false), trivial, fun _ => he _ rfl rfl ?_⟩
    rw [NodeLog.Delivers, hnone]
    exact ⟨rfl, rfl⟩

/-! Each of the things that a task can do -/

theorem Touched.advances_beginAttempt (h : Touched t.node.id f g r r') (hx : x = r.terms engine t.node)
    (hrun : (g e).status = .running) (hy : y.Backs x (f t) (g e) y.outcomes.length) :
    Advances x y t e r (r'.beginAttempt engine now t.node (y.outcomes.length + 1)) := by
  have hpolicy : Policy.resolve r'.workflow t.node engine.defaultTimeout = x.policy := by
    rw [hx, h.frame.workflow]
    rfl
  have hedit := h.trans
    (touched_editEntry (g := fun e => { e with retries := (y.outcomes.length + 1 : Nat) - 1 }) fun _ => rfl)
  have hretries : (((y.outcomes.length + 1 : Nat) : Int) - 1) = y.outcomes.length := by omega
  unfold beginAttempt
  dsimp only
  rw [hpolicy]
  split_ifs with htimeout
  · have hstarved : ∀ attempt ∈ y.starved, attempt ≤ y.outcomes.length + 1 := fun attempt hmem =>
      (hy.starved attempt hmem).trans (Nat.le_succ _)
    refine hedit.advances_enqueue _ hrun ⟨⟨hy.spent, hy.inputs, hstarved, ?_⟩, rfl, hretries⟩
    rw [hy.calls, Terms.invocations_of_not _ _ (not_lt.2 htimeout), Terms.invocations_of_not _ _ (not_lt.2 htimeout)]
  · refine (hedit.trans (touched_setAlarm now _)).advances_enqueue _ hrun ⟨?_, rfl, hretries, not_le.1 htimeout⟩
    exact ⟨hy.spent, hy.inputs, hy.starved, hy.calls⟩

theorem advances_resolveTask (hx : x = r.terms engine t.node) (hexecutor : (engine.executor? t.node).isSome)
    (hrun : e.status = .running) (hy : y = ⟨[], [], []⟩) (hnone : e.inputs = none) :
    Advances x y t e r (r.resolveTask engine now t) := by
  subst hy
  unfold resolveTask
  dsimp only
  split
  · exact (touched_refl _ r).advances_failTask _ (NodeLog.ends_of_none hnone)
  · next inputs hfill =>
    split
    · exact (touched_refl _ r).advances_failTask _ (NodeLog.ends_of_none hnone)
    · have hedit : Touched t.node.id (fun t => t) (fun e => { e with inputs := some inputs }) r
          (r.editEntry t.node.id fun e => { e with inputs := some inputs }) :=
        touched_editEntry fun _ => rfl
      obtain ⟨executor, hfound⟩ := Option.isSome_iff_exists.1 hexecutor
      rw [hfound]
      refine (hedit.trans (touched_prepare t inputs)).advances_beginAttempt hx hrun
        ⟨⟨nofun, ?_, Nat.zero_le _⟩, rfl, nofun, ?_⟩
      · intro k h1 hk
        exact absurd (h1.trans hk) (Nat.not_succ_le_zero 0)
      · unfold Terms.invocations
        split_ifs <;> rfl

theorem advances_runAction (act : Action) (hrun : e.status = .running)
    (hy : y.Backs x t e (y.outcomes.length + 1)) (hretries : e.retries = y.outcomes.length) :
    Advances x y t e r (r.runAction t.node.id (y.outcomes.length + 1) act) :=
  (touched_scope _).advances_enqueue _ hrun ⟨hy.congr rfl rfl rfl, rfl, hretries⟩

theorem advances_callExecutor {limit : Alarm} (hx : x = r.terms engine t.node)
    (hexecutor : (engine.executor? t.node).isSome) (hrun : e.status = .running)
    (hy : y.Backs x t e y.outcomes.length) (hretries : e.retries = y.outcomes.length)
    (htimeout : 0 < x.policy.timeout) :
    Advances x
      { y with calls := y.calls ++ [⟨t.node, t.inputs, t.credentials, r.log.executionId, y.outcomes.length + 1⟩] }
      t e r (r.callExecutor engine now t (y.outcomes.length + 1) limit) := by
  obtain ⟨executor, hfound⟩ := Option.isSome_iff_exists.1 hexecutor
  have hcalled : Tally.Backs x
      { y with calls := y.calls ++ [⟨t.node, t.inputs, t.credentials, r.log.executionId, y.outcomes.length + 1⟩] } t e
      (y.outcomes.length + 1) := by
    refine ⟨⟨hy.spent.failed, hy.spent.lasts, hy.spent.within⟩, hy.inputs,
      fun attempt hmem => (hy.starved attempt hmem).trans (Nat.le_succ _), ?_⟩
    rw [Terms.invocations_succ _ _ htimeout hy.starved, ← hy.calls, hx]
    rfl
  unfold callExecutor
  rw [hfound]
  dsimp only
  split
  · next act _ => exact advances_runAction act hrun hcalled hretries
  · next seconds act _ =>
    split
    · exact (touched_refl _ r).advances_setPhase _ hrun ⟨hcalled.congr rfl rfl rfl, rfl, hretries⟩
    · next micros _ =>
      split_ifs
      · exact (touched_refl _ r).advances_enqueue _ hrun ⟨hcalled.congr rfl rfl rfl, rfl, hretries⟩
      · exact (touched_setAlarm now micros.toNat).advances_setPhase _ hrun ⟨hcalled.congr rfl rfl rfl, rfl, hretries⟩

/-- A task that rests without an alarm goes on by itself, or it rests for ever. -/
theorem advances_rest {delay : Number} (hnode : x.node = t.node) (hrun : e.status = .running)
    (hy : y.Backs x t e y.outcomes.length) (hdelay : x.backoff.delay (y.outcomes.length : Nat) = .ok delay) :
    Advances x y t e r (r.rest now t.node.id y.outcomes.length delay) := by
  have hstands : ∀ (agenda : List String) (wake : Option Alarm), (wake = none → x.node.id ∈ agenda ∨
        ∃ d, x.backoff.delay (y.outcomes.length : Nat) = .ok d ∧ microsOf d = none) →
      Task.Tells x y agenda { t with phase := .resting y.outcomes.length wake } e :=
    fun agenda wake hw => ⟨hy.congr rfl rfl rfl, rfl, hw⟩
  unfold rest
  split
  · next hnone =>
    exact (touched_refl _ r).advances_setPhase _ hrun (hstands _ _ fun _ => Or.inr ⟨delay, hdelay, hnone⟩)
  · next micros _ =>
    split_ifs
    · refine (touched_refl _ r).advances_enqueue _ hrun (hstands _ _ fun _ => Or.inl ?_)
      rw [hnode]
      exact List.mem_append_right _ (List.mem_singleton_self _)
    · exact (touched_setAlarm now micros.toNat).advances_setPhase _ hrun (hstands _ _ nofun)

theorem advances_recordAttempt {result : Except Failure Value} (hx : x = r.terms engine t.node)
    (hrun : e.status = .running) (hy : y.Backs x t e (y.outcomes.length + 1))
    (hretries : e.retries = y.outcomes.length) :
    Advances x { y with outcomes := y.outcomes ++ [result] } t e r
      (r.recordAttempt engine now t (y.outcomes.length + 1) result) := by
  have hends : ∀ e' : NodeLog, e'.inputs = e.inputs → e'.retries = e.retries →
      e'.Says x y.outcomes.length result → e'.Ends x { y with outcomes := y.outcomes ++ [result] } := by
    intro e' hinputs hretries' hverdict inputs hgiven
    rw [hinputs, hy.inputs] at hgiven
    obtain rfl := Option.some.inj hgiven
    exact ⟨y.outcomes.length, result, t.credentials, ⟨_, rfl, rfl, hy.spent.failed⟩, hy.spent.lasts, hy.spent.within,
      hretries'.trans hretries, hy.calls, hverdict⟩
  unfold recordAttempt
  dsimp only
  cases result with
  | ok v => exact advances_succeedTask hx _ fun e' hi hr hd => hends e' hi hr hd
  | error g =>
    have hpolicy : Policy.resolve r.workflow t.node engine.defaultTimeout = x.policy := by
      rw [hx]
      rfl
    have hbackoff : engine.backoff = x.backoff := by
      rw [hx]
      rfl
    dsimp only
    rw [hpolicy, hbackoff]
    split_ifs with hcancelled hleft
    · refine ⟨_, _, (touched_refl _ r).close _ .unwound, fun time => hends _ ?_ ?_ ?_, fun hs => absurd hrun hs⟩
      · rw [NodeLog.interrupted, if_pos hrun]
      · rw [NodeLog.interrupted, if_pos hrun]
      · rw [NodeLog.interrupted, if_pos hrun]
        exact ⟨rfl, by rw [if_pos hcancelled]⟩
    · split
      · next delay hdelay =>
        set y' : Tally := { y with outcomes := y.outcomes ++ [.error g] }
        have hlength : y'.outcomes.length = y.outcomes.length + 1 := List.length_append
        rw [← hlength] at hdelay hleft ⊢
        have hfailed : ∀ result ∈ y'.outcomes, Failure.Ordinary result := by
          intro result hmem
          rcases List.mem_append.1 hmem with hmem | hmem
          · exact hy.spent.failed result hmem
          · exact ⟨g, List.mem_singleton.1 hmem, hcancelled⟩
        have hlasts : x.backoff.Lasts y'.outcomes.length := by
          rw [hlength] at hdelay ⊢
          exact hy.spent.lasts.succ hdelay
        refine advances_rest (by rw [hx]; rfl) hrun ⟨⟨hfailed, hlasts, hleft⟩, hy.inputs, ?_, ?_⟩ hdelay <;>
          rw [hlength]
        · exact hy.starved
        · exact hy.calls
      · next g' hdelay =>
        refine (touched_refl _ r).advances_failTask _ (hends _ rfl rfl ⟨rfl, ?_⟩)
        rw [if_neg hcancelled]
        exact Or.inr ⟨hleft, g', hdelay, rfl⟩
    · have hspent : y.outcomes.length = x.policy.retries :=
        Nat.le_antisymm hy.spent.within (Nat.le_of_lt_succ (not_le.1 hleft))
      refine (touched_refl _ r).advances_failTask _ (hends _ rfl rfl ⟨rfl, ?_⟩)
      rw [if_neg hcancelled]
      exact Or.inl ⟨hspent, rfl⟩

/-- One step of a task that has not finished. -/
theorem advances_goOn (hx : x = r.terms engine t.node) (hexecutor : (engine.executor? t.node).isSome)
    (hrun : e.status = .running) (hphase : t.phase.isOver = false) {agenda : List String}
    (hy : t.Tells x y agenda e) :
    Advances x (y.noteTask r.log.executionId t) t e r (r.goOn engine now t) := by
  unfold goOn Tally.noteTask
  unfold Task.Tells at hy
  cases hp : t.phase with
  | fresh =>
    rw [hp] at hy
    exact advances_resolveTask hx hexecutor hrun hy.1 hy.2
  | calling attempt limit =>
    rw [hp] at hy
    obtain ⟨hy, rfl, hretries, htimeout⟩ := hy
    exact advances_callExecutor hx hexecutor hrun hy hretries htimeout
  | working attempt act wake limit =>
    rw [hp] at hy
    obtain ⟨hy, rfl, hretries⟩ := hy
    exact advances_runAction _ hrun hy hretries
  | returning attempt result =>
    rw [hp] at hy
    obtain ⟨hy, hattempt, hretries⟩ := hy
    exact (touched_refl _ r).advances_enqueue _ hrun ⟨hy.congr rfl rfl rfl, hattempt, hretries⟩
  | returned attempt result =>
    rw [hp] at hy
    obtain ⟨hy, rfl, hretries⟩ := hy
    exact advances_recordAttempt hx hrun hy hretries
  | resting attempt wake =>
    rw [hp] at hy
    obtain ⟨hy, rfl, -⟩ := hy
    exact (touched_refl _ r).advances_beginAttempt hx hrun hy
  | _ =>
    rw [hp] at hphase
    cases hphase

/-- An alarm ends a wait, or it ends an attempt, perhaps before the executor is called. -/
theorem advances_ring (alarm : Alarm) (hnode : x.node = t.node) (hrun : e.status = .running)
    (ha : t.phase.Heeds engine t.node alarm) {agenda : List String} (hy : t.Tells x y agenda e) :
    Advances x (y.noteAlarm t) t e r (r.ring engine t alarm) := by
  unfold Task.Tells at hy
  unfold ring Tally.noteAlarm
  dsimp only
  cases hp : t.phase with
  | calling attempt limit =>
    rw [hp] at hy ha
    obtain ⟨hy, rfl, hretries, -⟩ := hy
    obtain ⟨rfl, hqueues⟩ := ha
    have hboth : (limit = limit && (engine.executor? t.node).any fun executor => !executor.isAsync) = true := by
      simpa using mayQueue_iff.1 hqueues
    dsimp only
    rw [if_pos hboth]
    refine (touched_refl _ r).advances_setPhase _ hrun
      ⟨⟨⟨hy.spent.failed, hy.spent.lasts, hy.spent.within⟩, hy.inputs, fun attempt hmem => ?_, ?_⟩, rfl, hretries⟩
    · rcases List.mem_append.1 hmem with hmem | hmem
      · exact (hy.starved attempt hmem).trans (Nat.le_succ _)
      · exact (List.mem_singleton.1 hmem).le
    · exact hy.calls.trans (Terms.invocations_starved _ _).symm
  | working attempt act wake limit =>
    rw [hp] at hy ha
    obtain ⟨hy, hattempt, hretries⟩ := hy
    dsimp only
    split_ifs with hw hl
    · exact (touched_refl _ r).advances_enqueue _ hrun ⟨hy.congr rfl rfl rfl, hattempt, hretries⟩
    · exact (touched_refl _ r).advances_enqueue _ hrun ⟨hy.congr rfl rfl rfl, hattempt, hretries⟩
    · exact absurd ha (not_or.2 ⟨hw, hl⟩)
  | resting attempt wake =>
    rw [hp] at hy ha
    obtain ⟨hy, hattempt, -⟩ := hy
    have hwake : wake = some alarm := ha
    dsimp only
    rw [if_pos hwake]
    refine (touched_refl _ r).advances_enqueue _ hrun ⟨hy.congr rfl rfl rfl, hattempt, fun _ => Or.inl ?_⟩
    rw [hnode]
    exact List.mem_append_right _ (List.mem_singleton_self _)
  | _ =>
    rw [hp] at ha
    cases ha

/-! Whole runs -/

structure Tells (x : Terms) (y : Tally) (r : Run) : Prop where
  task : r.isFinished = false → ∀ t, r.task? x.node.id = some t →
    ∃ e, r.entry? x.node.id = some e ∧ t.Tells x y r.agenda e
  ended : ∀ e, r.entry? x.node.id = some e → e.status ≠ .running → e.Ends x y
  unentered : r.entry? x.node.id = none → y = ⟨[], [], []⟩

theorem Unbegun.tells (h : r.Unbegun) (x : Terms) : r.Tells x ⟨[], [], []⟩ where
  task := fun _ t ht => by
    have := task?_mem ht
    rw [h.tasks] at this
    cases this
  ended := fun e he => by
    have := entry?_mem he
    rw [h.entries] at this
    cases this
  unentered := fun _ => rfl

/-- An entry that has been marked is what its task was to leave. -/
theorem Tells.marked (h : r.Tells x y) (hm : Marked x.node.id r r') :
    ∃ (t : Task) (e : NodeLog) (time : Moment), r.task? x.node.id = some t ∧ t.phase = .unwound ∧
      r'.entry? x.node.id = some (e.interrupted time none) ∧ (e.interrupted time none).Ends x y := by
  obtain ⟨hu, t, e, time, ht, hp, he, he'⟩ := hm
  obtain ⟨e₀, he₀, htells⟩ := h.task hu t ht
  rw [Task.Tells, hp] at htells
  obtain rfl := Option.some.inj (he.symm.trans he₀)
  exact ⟨t, e, time, ht, hp, he', htells time⟩

theorem Tells.unmoved (h : r.Tells x y) (hu : Unmoved x.node.id r r')
    (hback : r'.isFinished = false → r.isFinished = false) : r'.Tells x y := by
  refine ⟨fun hunfinished t ht => ?_, fun e he hs => ?_, fun hnone => ?_⟩
  · rcases hu.task hunfinished t ht with hold | ⟨hnone, hfresh, e, he⟩
    · obtain ⟨e, he, htells⟩ := h.task (hback hunfinished) t hold
      rcases hu.entry with hsame | ⟨hnone, -⟩ | hmarked
      · exact ⟨e, hsame.trans he, htells.mono (hu.agenda hunfinished)⟩
      · rw [hnone] at he
        cases he
      · obtain ⟨t', e', time, ht', hp, he', hends⟩ := h.marked hmarked
        obtain rfl := Option.some.inj (hold.symm.trans ht')
        refine ⟨_, he', ?_⟩
        rw [Task.Tells, hp]
        intro time'
        rwa [interrupted_of_ne (interrupted_status_ne time none e')]
    · refine ⟨e, he, Task.tells_of_fresh hfresh (h.unentered hnone) ?_⟩
      rcases hu.entry with hsame | ⟨-, e', he', hblank⟩ | ⟨-, t', e', time, -, -, hsome, -⟩
      · rw [hsame, hnone] at he
        cases he
      · rw [he'] at he
        obtain rfl := Option.some.inj he
        exact hblank.2
      · rw [hnone] at hsome
        cases hsome
  · rcases hu.entry with hsame | ⟨-, e', he', hblank⟩ | hmarked
    · exact h.ended e (hsame ▸ he) hs
    · rw [he'] at he
      obtain rfl := Option.some.inj he
      exact NodeLog.ends_of_none hblank.2
    · obtain ⟨t, e', time, -, -, he', hends⟩ := h.marked hmarked
      rw [he'] at he
      obtain rfl := Option.some.inj he
      exact hends
  · rcases hu.entry with hsame | ⟨-, e', he', -⟩ | ⟨-, t, e', time, -, -, -, he'⟩
    · exact h.unentered (hsame ▸ hnone)
    · rw [he'] at hnone
      cases hnone
    · rw [he'] at hnone
      cases hnone

theorem Advances.tells (h : Advances x y t e r r') (ht : r.task? x.node.id = some t)
    (he : r.entry? x.node.id = some e) : r'.Tells x y := by
  obtain ⟨f, g, htouch, htells, hends⟩ := h
  have hid := task?_id ht
  have htask : r'.task? x.node.id = some (f t) := by
    rw [htouch.task?, if_pos hid.symm, ht, Option.map_some]
  have hentry : r'.entry? x.node.id = some (g e) := by
    rw [htouch.entry?, if_pos hid.symm, he, Option.map_some]
  refine ⟨fun _ u hu => ?_, fun e' he' hs => ?_, fun hnone => ?_⟩
  · rw [htask] at hu
    obtain rfl := Option.some.inj hu
    exact ⟨g e, hentry, htells⟩
  · rw [hentry] at he'
    obtain rfl := Option.some.inj he'
    exact hends hs
  · rw [hentry] at hnone
    cases hnone

theorem Advances.of_agenda {agenda : List String} (h : Advances x y t e { r with agenda } r') :
    Advances x y t e r r' := by
  obtain ⟨f, g, ht, hadvanced⟩ := h
  exact ⟨f, g, ht.of_agenda, hadvanced⟩

variable {w : Workflow} {r₀ : Run}

theorem Active.terms (h : Active engine w r) {runId : String} (hlog : r.LoggedAs runId) (n : Node) :
    r.terms engine n =
      ⟨n, Policy.resolve w n engine.defaultTimeout, engine.backoff, runId, engine.copyFault?⟩ := by
  rw [Run.terms, h.workflow, show r.log.executionId = runId from hlog]

/-- The task of the node goes on. -/
theorem Active.tells_resume (h : Active engine w r) (hx : x = r.terms engine x.node)
    (hexecutor : (engine.executor? x.node).isSome) (hnode : r.graph.node? x.node.id = some x.node) (now : Nat)
    (hy : r.Tells x y) : (r.resume engine now x.node.id).Tells x (y.note x.node.id r) := by
  unfold Run.resume Tally.note
  cases ht : r.task? x.node.id with
  | none =>
    refine ⟨fun _ t ht' => ?_, hy.ended, hy.unentered⟩
    change r.task? x.node.id = some t at ht'
    rw [ht] at ht'
    cases ht'
  | some t =>
    have hmem := task?_mem ht
    have hself : t.node = x.node := h.good.sound.node_eq hnode hmem (task?_id ht)
    obtain ⟨e, he, htells⟩ := hy.task h.unfinished t ht
    cases hrun : t.phase.isOver with
    | false =>
      obtain ⟨e', he', hst⟩ := h.good.sound.task_entry t hmem
      rw [hself] at he'
      obtain rfl : e = e' := Option.some.inj (he.symm.trans he')
      let q : Run := { r with agenda := r.agenda.erase x.node.id }
      have hterms : x = q.terms engine t.node := by
        rw [hself]
        exact hx
      have hadvances : Advances x (y.noteTask r.log.executionId t) t e q (q.goOn engine now t) :=
        advances_goOn hterms (hself ▸ hexecutor) (hst.trans (Phase.status_of_not_over hrun)) hrun htells
      exact (Advances.of_agenda hadvances).tells ht he
    | true =>
      have hnote : y.noteTask r.log.executionId t = y := by
        rcases Phase.isOver_iff.1 hrun with ⟨failed, hp⟩ | hp <;> rw [Tally.noteTask, hp]
      dsimp only
      rw [goOn_of_over hrun, hnote]
      refine ⟨fun _ u hu => ?_, hy.ended, hy.unentered⟩
      change r.task? x.node.id = some u at hu
      rw [ht] at hu
      obtain rfl := Option.some.inj hu
      exact ⟨e, he, htells.of_over hrun⟩

theorem Active.tells_ring {alarm : Alarm} (h : Active engine w r) (hnode : r.graph.node? x.node.id = some x.node)
    (hmem : t ∈ r.tasks) (hid : t.node.id = x.node.id) (ha : t.phase.Heeds engine t.node alarm) (hy : r.Tells x y) :
    (r.ring engine t alarm).Tells x (y.noteAlarm t) := by
  have ht : r.task? x.node.id = some t := hid ▸ task?_of_mem h.good.sound.tasks_nodup hmem
  have hself : t.node = x.node := h.good.sound.node_eq hnode hmem hid
  obtain ⟨e, he, htells⟩ := hy.task h.unfinished t ht
  obtain ⟨e', he', hst⟩ := h.good.sound.task_entry t hmem
  rw [hself] at he'
  obtain rfl : e = e' := Option.some.inj (he.symm.trans he')
  exact (advances_ring alarm hself.symm (hst.trans (Phase.Heeds.status ha)) ha htells).tells ht he

theorem Undisturbed.loggedAs {id : String} (h : Undisturbed engine r₀ id y r) : r.LoggedAs r₀.log.executionId := by
  have hpast := h.happens
  clear h
  induction hpast with
  | refl => rfl
  | tail _ hr ih => exact hr.loggedAs ih

/-- Along every history a node stands where its tally says. -/
theorem tells_of_undisturbed {n : Node} (hlimit : 0 < engine.limit) (h₀ : r₀.Unbegun)
    (hn : (Graph.ofWorkflow r₀.workflow).node? n.id = some n) (hexecutor : (engine.executor? n).isSome)
    (h : Undisturbed engine r₀ n.id y r) : r.Tells (r₀.terms engine n) y := by
  induction h with
  | start => exact h₀.tells _
  | @goesOn y r h now hu hid ih =>
    rcases underway_of_happens hlimit h₀ h.happens hu with rfl | ha
    · rw [h₀.agenda] at hid
      cases hid
    · exact ha.tells_resume (x := r₀.terms engine n) (ha.terms h.loggedAs n).symm hexecutor (ha.graph ▸ hn) now ih
  | @rings y r t alarm h hu ht hid ha ih =>
    rcases underway_of_happens hlimit h₀ h.happens hu with rfl | hactive
    · rw [h₀.tasks] at ht
      cases ht
    · exact hactive.tells_ring (x := r₀.terms engine n) (hactive.graph ▸ hn) ht hid ha ih
  | elsewhere h he hruns ih =>
    exact ih.unmoved (x := r₀.terms engine n) (h.unmoved hlimit h₀ he hruns) he.unfinished

end

end Run

end Flowgraph
