import Flowgraph.Proofs.Run.Attempts

/-! The retry budget of a node. As long as its executor fails, a node makes one attempt more than its budget of
retries, and the first attempt that succeeds is the last. What can cut the budget short is the waiting time after a
failed attempt: where it cannot be computed the node fails at once, with the failure of the computation. An attempt
that is cancelled from within is not made again either. -/

namespace Flowgraph

open Relation (ReflTransGen)

/-- How a node ends within its budget whose executor fails on exactly its first attempts, so many of them. -/
structure Honours (x : Terms) (f : Nat) (y : Tally) (e : NodeLog) : Prop where
  recovers : f ≤ x.policy.retries →
    e.retries = f ∧ ∃ v, y.outcomes[f]? = some (.ok v) ∧ e.Delivers x (outputsOf v)
  gives_up : x.policy.retries < f →
    e.status = .failed ∧ e.retries = x.policy.retries ∧
      ∃ g, y.outcomes[x.policy.retries]? = some (.error g) ∧ e.error = some g.describe

section
variable {x : Terms} {y : Tally} {e : NodeLog} {inputs : Fields} {credentials : Value} {before f : Nat}
  {result : Except Failure Value}

/-- When all attempts but the last have failed, the last one decides where the failures end. -/
theorem Tally.FailsFirst.of_concat {earlier : List (Except Failure Value)} (h : y.FailsFirst f)
    (hy : y.outcomes = earlier ++ [result]) (hfailed : ∀ result ∈ earlier, Failure.Ordinary result) :
    earlier.length ≤ f ∧ result.isOk = decide (f ≤ earlier.length) := by
  unfold Tally.FailsFirst at h
  simp only [hy, List.length_append, List.length_singleton, List.range_succ, List.map_append, List.map_cons,
    List.map_nil] at h
  obtain ⟨hearlier, hlast⟩ := List.append_inj h (by simp)
  refine ⟨Nat.le_of_not_lt fun hlt => ?_, by simpa using hlast⟩
  have hat := congrArg (·[f]?) hearlier
  simp [hlt] at hat
  obtain ⟨g, hg, -⟩ := hfailed _ (List.getElem_mem hlt)
  rw [hg] at hat
  cases hat

theorem NodeLog.EndsWith.honours (h : e.EndsWith x y inputs before result credentials) (hf : y.FailsFirst f)
    (hkept : ∀ g, .error g ∈ y.outcomes → g.kind ≠ .cancelled) (hlasts : x.backoff.Lasts (min f x.policy.retries)) :
    Honours x f y e ∧ y.calls = x.invocations inputs credentials y.starved (min f x.policy.retries + 1) := by
  obtain ⟨earlier, hy, rfl, hfailed⟩ := h.outcomes
  obtain ⟨hle, hlast⟩ := hf.of_concat hy hfailed
  have hat : y.outcomes[earlier.length]? = some result := by simp [hy]
  have hwithin := h.within
  have hverdict := h.verdict
  cases result with
  | ok v =>
    have hend : f ≤ earlier.length := of_decide_eq_true hlast.symm
    obtain rfl : earlier.length = f := by omega
    refine ⟨⟨fun _ => ⟨h.retries, v, hat, hverdict⟩, fun hlt => ?_⟩, ?_⟩
    · omega
    · rw [Nat.min_eq_left hwithin]
      exact h.calls
  | error g =>
    have hmore : ¬ f ≤ earlier.length := of_decide_eq_false hlast.symm
    obtain ⟨hstatus, hverdict⟩ := hverdict
    rw [if_neg (hkept g (hy ▸ List.mem_append_right _ (List.mem_singleton_self _)))] at hverdict
    rcases hverdict with ⟨hspent, herror⟩ | ⟨hleft, g', hdelay, -⟩
    · refine ⟨⟨fun hle' => ?_, fun _ => ⟨hstatus, ?_, g, ?_, herror⟩⟩, ?_⟩
      · omega
      · rw [h.retries, hspent]
      · rw [← hspent]
        exact hat
      · rw [Nat.min_eq_right (by omega), ← hspent]
        exact h.calls
    · have := hlasts.delay_ne (by omega) hdelay
      omega

/-- The first waiting time that cannot be computed ends the attempts. -/
theorem NodeLog.EndsWith.cut_short (h : e.EndsWith x y inputs before result credentials) (hf : y.FailsFirst f)
    (hkept : ∀ g, .error g ∈ y.outcomes → g.kind ≠ .cancelled) {k : Nat} {g : Failure}
    (h1 : 1 ≤ k) (hk : k ≤ min f x.policy.retries) (hlasts : x.backoff.Lasts (k - 1))
    (hdelay : x.backoff.delay k = .error g) :
    e.status = .failed ∧ e.retries = (k : Int) - 1 ∧ e.error = some g.describe ∧
      y.calls = x.invocations inputs credentials y.starved k := by
  obtain ⟨earlier, hy, rfl, hfailed⟩ := h.outcomes
  obtain ⟨hle, hlast⟩ := hf.of_concat hy hfailed
  have hlate : earlier.length < k := h.lasts.delay_ne h1 hdelay
  have hverdict := h.verdict
  cases result with
  | ok v =>
    have hend : f ≤ earlier.length := of_decide_eq_true hlast.symm
    omega
  | error g₀ =>
    obtain ⟨hstatus, hverdict⟩ := hverdict
    rw [if_neg (hkept g₀ (hy ▸ List.mem_append_right _ (List.mem_singleton_self _)))] at hverdict
    rcases hverdict with ⟨hspent, -⟩ | ⟨hleft, g', hdelay', herror⟩
    · omega
    · have hnow : k - 1 < earlier.length + 1 := hlasts.delay_ne (by omega) hdelay'
      obtain rfl : k = earlier.length + 1 := by omega
      rw [hdelay'] at hdelay
      obtain rfl := Except.error.inj hdelay
      exact ⟨hstatus, by rw [h.retries]; omega, herror, h.calls⟩

/-- An attempt that was cancelled is the last, and the entry tells of that. -/
theorem NodeLog.EndsWith.cancelled (h : e.EndsWith x y inputs before result credentials) {g : Failure}
    (hg : .error g ∈ y.outcomes) (hkind : g.kind = .cancelled) :
    e.status = .failed ∧ e.retries = (y.outcomes.length : Int) - 1 ∧ e.error = some (Stop.interruption none) ∧
      y.calls = x.invocations inputs credentials y.starved y.outcomes.length := by
  obtain ⟨earlier, hy, rfl, hfailed⟩ := h.outcomes
  have hlength : y.outcomes.length = earlier.length + 1 := by simp [hy]
  obtain rfl : result = .error g := by
    rw [hy] at hg
    rcases List.mem_append.1 hg with hg | hg
    · obtain ⟨g', heq, hne⟩ := hfailed _ hg
      obtain rfl := Except.error.inj heq
      exact absurd hkind hne
    · exact (List.mem_singleton.1 hg).symm
  obtain ⟨hstatus, herror⟩ := h.verdict
  rw [if_pos hkind] at herror
  rw [hlength, h.retries]
  exact ⟨hstatus, by omega, herror, h.calls⟩

/-- Beyond the last waiting time that can be computed no node recovers, whatever its budget. -/
theorem NodeLog.EndsWith.failed_of_delay_error (h : e.EndsWith x y inputs before result credentials)
    (hf : y.FailsFirst f) {k : Nat} {g : Failure} (h1 : 1 ≤ k) (hk : k ≤ f) (hdelay : x.backoff.delay k = .error g) :
    e.status = .failed ∧ e.retries < k := by
  obtain ⟨earlier, hy, rfl, hfailed⟩ := h.outcomes
  have hlate : earlier.length < k := h.lasts.delay_ne h1 hdelay
  have hretries : e.retries < k := by
    rw [h.retries]
    omega
  have hverdict := h.verdict
  cases result with
  | ok v =>
    have hend : f ≤ earlier.length := of_decide_eq_true (hf.of_concat hy hfailed).2.symm
    omega
  | error g => exact ⟨hverdict.1, hretries⟩

end

namespace Run

section
variable {engine : Engine} {w : Workflow} {r₀ r r' : Run} {x : Terms} {y : Tally} {n : Node} {id : String}

theorem not_runs_of_covers (h : Covers w r.log) : ¬ r.Runs id := by
  rintro ⟨e, he, hs⟩
  rcases h.ended e (entry?_mem he) with hend | hend | hend <;> rw [hs] at hend <;> cases hend

/-- A running node whose waits end can go on. -/
theorem Active.progress_of_runs (h : Active engine w r) (hy : r.Tells x y) (hends : x.backoff.Ends x.policy.retries)
    (hruns : r.Runs x.node.id) : ∃ r', Step engine r r' := by
  obtain ⟨e, he, hrun⟩ := hruns
  have hid : x.node.id ∈ r.taskIds := by
    have hended := h.good.live.ended e (entry?_mem he)
    rw [opened_front, entry?_id he] at hended
    refine hended.resolve_left fun hend => ?_
    rcases hend with hend | hend | hend <;> rw [hrun] at hend <;> cases hend
  obtain ⟨t, ht⟩ := mem_taskIds.1 hid
  have hmem := task?_mem ht
  have htid := task?_id ht
  cases hover : t.phase.isOver with
  | true => exact ⟨_, .gather 0 h.unfinished (List.any_eq_true.2 ⟨t, hmem, by rwa [isFinished_eq]⟩)⟩
  | false =>
    cases hd : t.phase.isDue with
    | false =>
      obtain ⟨alarm, ha⟩ := Phase.heeds_of_waits t.node hover hd
      exact ⟨_, .ring h.unfinished hmem ha⟩
    | true =>
      suffices hagenda : t.node.id ∈ r.agenda from ⟨_, .resume 0 h.unfinished hagenda⟩
      cases hp : t.phase with
      | resting attempt wake =>
        obtain ⟨e', he', htells⟩ := hy.task h.unfinished t ht
        rw [Task.Tells, hp] at htells
        obtain ⟨hbacks, hattempt, hwaits⟩ := htells
        rw [hp] at hd
        have hwake : wake = none := by
          cases wake with
          | none => rfl
          | some alarm => cases hd
        rcases hwaits hwake with hagenda | ⟨delay, hdelay, hendless⟩
        · rw [htid]
          exact hagenda
        · obtain ⟨h1, -⟩ := h.fits t hmem attempt (by rw [hp]; rfl)
          have hfinite := hends attempt h1 (hattempt ▸ hbacks.spent.within) delay hdelay
          rw [hendless] at hfinite
          cases hfinite
      | _ =>
        refine h.due t hmem (fun hrests => ?_) hd
        rw [hp] at hrests
        cases hrests

/-- A node that runs will have ended, whatever happens. -/
theorem Undisturbed.inevitably_ends (hlimit : 0 < engine.limit) (h₀ : r₀.Unbegun)
    (hn : (Graph.ofWorkflow r₀.workflow).node? n.id = some n) (hexecutor : (engine.executor? n).isSome)
    (hends : engine.backoff.Ends (r₀.terms engine n).policy.retries) (h : Undisturbed engine r₀ n.id y r) :
    Inevitably engine (fun q => ¬ q.Runs n.id) r := by
  induction hk : rank engine r using Nat.strong_induction_on generalizing r y with
  | _ k ih =>
    by_cases hruns : r.Runs n.id
    · have hu : r.isFinished = false := by
        by_contra hf
        exact not_runs_of_covers (covers_of_happens hlimit h₀ h.happens (by simpa using hf)) hruns
      have ha : Active engine r₀.workflow r := by
        refine (underway_of_happens hlimit h₀ h.happens hu).resolve_left fun heq => ?_
        obtain ⟨e, he, -⟩ := hruns
        have hmem := entry?_mem he
        rw [heq, h₀.entries] at hmem
        cases hmem
      have hy := tells_of_undisturbed hlimit h₀ hn hexecutor h
      refine .later hu (ha.progress_of_runs hy hends hruns) (fun r' hs => ?_) fun time =>
        .now (not_runs_of_covers ha.cancel_covers)
      rcases ha.step_covers hlimit hs with ⟨ha', hrank⟩ | hcovers
      · obtain ⟨y', h'⟩ := h.step hs fun _ => ha'.stop
        exact ih _ (hk ▸ hrank) h' rfl
      · exact .now (not_runs_of_covers hcovers)
    · exact .now hruns

theorem Tally.starved_note (y : Tally) (id : String) (r : Run) : (y.note id r).starved = y.starved := by
  unfold Tally.note Tally.noteTask
  split
  · split <;> rfl
  · rfl

/-- An executor that is called at once never waits for a worker. -/
theorem Undisturbed.starved_eq_nil (hlimit : 0 < engine.limit) (h₀ : r₀.Unbegun)
    (hn : (Graph.ofWorkflow r₀.workflow).node? n.id = some n) (hat : ¬ engine.MayQueue n)
    (h : Undisturbed engine r₀ n.id y r) : y.starved = [] := by
  induction h with
  | start => rfl
  | goesOn _ now hu hid ih => rwa [Tally.starved_note]
  | @rings y r t alarm h hu ht hid ha ih =>
    unfold Tally.noteAlarm
    split
    · next attempt limit hp =>
      rw [hp] at ha
      rcases underway_of_happens hlimit h₀ h.happens hu with rfl | hactive
      · rw [h₀.tasks] at ht
        cases ht
      · exact absurd (hactive.good.sound.node_eq (hactive.graph ▸ hn) ht hid ▸ ha.2) hat
    · exact ih
  | elsewhere _ _ _ ih => exact ih

/-- With the standard factor no node recovers from more than 1024 failures, whatever its budget. -/
theorem failed_of_standardFactor (hlimit : 0 < engine.limit) (w : Workflow) (inputs secrets : Fields)
    (executionId : String) (now : Nat) (hn : (Graph.ofWorkflow w).node? n.id = some n)
    (hexecutor : (engine.executor? n).isSome) (hfactor : engine.backoff.factor = Backoff.standardFactor)
    (h : Undisturbed engine (start w inputs secrets executionId (engine.moment now)) n.id y r) {e : NodeLog}
    (he : r.entry? n.id = some e) (hs : e.status ≠ .running) (hgiven : e.inputs.isSome) {f : Nat}
    (hf : y.FailsFirst f) (hmany : 1024 < f) : e.status = .failed ∧ e.retries < 1025 := by
  have h₀ := unbegun_start w inputs secrets executionId (engine.moment now)
  have hy := tells_of_undisturbed hlimit h₀ hn hexecutor h
  obtain ⟨given, hgiven⟩ := Option.isSome_iff_exists.1 hgiven
  obtain ⟨before, result, credentials, hend⟩ := hy.ended e he hs given hgiven
  exact hend.failed_of_delay_error (k := 1025) hf (by decide) hmany (Backoff.delay_standardFactor hfactor)

end

/-! One node alone -/

def going (engine : Engine) (id : String) (y : Tally) (r : Run) : Nat → Tally × Run
  | 0 => (y, r)
  | times + 1 =>
    let (y, r) := going engine id y r times
    (y.note id r, r.resume engine 0 id)

theorem Undisturbed.going {engine : Engine} {r₀ r : Run} {id : String} {y : Tally} (h : Undisturbed engine r₀ id y r)
    (times : Nat) (hgo : ∀ k < times, (Run.going engine id y r k).2.isFinished = false ∧
      id ∈ (Run.going engine id y r k).2.agenda) :
    Undisturbed engine r₀ id (Run.going engine id y r times).1 (Run.going engine id y r times).2 := by
  induction times with
  | zero => exact h
  | succ times ih =>
    obtain ⟨hu, hid⟩ := hgo times (Nat.lt_succ_self times)
    exact (ih fun k hk => hgo k (Nat.lt_succ_of_lt hk)).goesOn 0 hu hid

def flaky (failures : Nat) : Executor where
  isAsync := true
  perform i :=
    if i.attempt ≤ failures then .failed ⟨.runtime, "busy"⟩ else .done [("attempt", .int i.attempt)]

def flakyEngine (failures : Nat) (backoff : Backoff) : Engine where
  registry := ⟨[{ provider := "test", operation := "call", executor := some (flaky failures) }]⟩
  limit := 1
  defaultTimeout := Policy.standardTimeout
  backoff
  epoch := ⟨0, none⟩

def callNode (retries : Nat) : Node where
  id := "call"
  type := .action
  provider := "test"
  operation := "call"
  runtime := { retries := some retries }

def oneCall (retries : Nat) : Workflow where
  id := "call"
  name := "One call"
  version := "1"
  nodes := [callNode retries]

def called (engine : Engine) (retries : Nat) : Run :=
  (decideAll 2 ["call"] (start (oneCall retries) [] [] "run" (engine.moment 0))).proceed engine 0

theorem undisturbed_called (engine : Engine) (retries : Nat) :
    Undisturbed engine (start (oneCall retries) [] [] "run" (engine.moment 0)) "call" ⟨[], [], []⟩
      (called engine retries) := by
  set r₀ := start (oneCall retries) [] [] "run" (engine.moment 0)
  have hroots : r₀.graph.roots = ["call"] := rfl
  have hlaunch : r₀.launch engine 0 = called engine retries := by
    rw [launch_of_sorted (by rw [hroots]; exact List.pairwise_singleton _ _), hroots]
    rfl
  have h₀ : r₀.Unbegun := unbegun_start (oneCall retries) [] [] "run" _
  rw [← hlaunch]
  refine Undisturbed.start.elsewhere (.launch 0 h₀) fun ⟨e, he, _⟩ => ?_
  have hmem := entry?_mem he
  rw [h₀.entries] at hmem
  cases hmem

def noWait : Backoff := ⟨.int 0, .int 0, .int 2, none⟩

def steep : Backoff := ⟨.float 0.0, .float 0.0, .float 1e200, none⟩

end Run

end Flowgraph
