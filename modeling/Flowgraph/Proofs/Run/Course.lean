import Flowgraph.Capability.Builtin
import Flowgraph.Proofs.Backoff
import Flowgraph.Proofs.Run.Coverage

/-! The course that a run takes by itself, from alarm to alarm, is made of steps, and the bounds on the
numbers of turns never cut it short: each turn takes two from the rank, and so does each waking. -/

namespace Flowgraph

open Relation (ReflTransGen)

namespace Run

/-- An active run in which nothing happens before the next alarm. -/
structure Calm (engine : Engine) (w : Workflow) (r : Run) : Prop where
  active : Active engine w r
  agenda : r.agenda = []
  waits : r.tasks.any Task.isFinished = false

section
variable {engine : Engine} {w : Workflow} {r r' : Run} {now : Nat} {t : Task}

theorem turn_of_agenda {id : String} {rest : List String} (h : r.agenda = id :: rest) :
    r.turn engine now = r.resume engine now id := by
  unfold turn Run.resume
  rw [h, List.erase_cons_head]
  rfl

theorem turn_of_nil (h : r.agenda = []) :
    r.turn engine now = (r.handleBatch (engine.moment now)).proceed engine now := by
  unfold turn
  rw [h]

theorem Active.isBusy_iff (h : Active engine w r) :
    r.isBusy = true ↔ r.agenda ≠ [] ∨ r.tasks.any Task.isFinished = true := by
  simp [isBusy, h.unfinished]

/-- A turn is a step, and takes two from the rank. -/
theorem Active.turn (now : Nat) (hlimit : 0 < engine.limit) (h : Active engine w r) (hb : r.isBusy = true) :
    Step engine r (r.turn engine now) ∧
      (Active engine w (r.turn engine now) ∧ rank engine (r.turn engine now) + 2 ≤ rank engine r ∨
        (r.turn engine now).isFinished = true) := by
  cases ha : r.agenda with
  | cons id rest =>
    have hid : id ∈ r.agenda := ha ▸ List.mem_cons_self ..
    rw [turn_of_agenda ha]
    exact ⟨Step.resume now h.unfinished hid, Or.inl (h.resume hid)⟩
  | nil =>
    have hf : r.tasks.any Task.isFinished = true := (h.isBusy_iff.1 hb).resolve_left (fun hne => hne ha)
    rw [turn_of_nil ha]
    refine ⟨Step.gather now h.unfinished hf, ?_⟩
    rcases h.gather now hlimit hf with ⟨hactive, hr, -⟩ | ⟨m, hm, heq⟩
    · exact Or.inl ⟨hactive, hr⟩
    · rw [heq]
      exact Or.inr (h.ready_batch.closable hm).covers.finished

theorem settle_of_finished (h : r.isFinished = true) (steps : Nat) : settle engine now steps r = r := by
  cases steps with
  | zero => rfl
  | succ n => simp [settle, isBusy, h]

/-- Settling goes on until the run is calm or has finished; a busy run pays two for that at least. -/
theorem Active.settle (now : Nat) (hlimit : 0 < engine.limit) (steps : Nat) (h : Active engine w r)
    (hsteps : rank engine r + 2 ≤ 2 * steps) :
    ReflTransGen (Step engine) r (settle engine now steps r) ∧
      (Calm engine w (settle engine now steps r) ∧
          rank engine (settle engine now steps r) + (if r.isBusy then 2 else 0) ≤ rank engine r ∨
        (settle engine now steps r).isFinished = true) := by
  induction steps generalizing r with
  | zero => omega
  | succ n ih =>
    rw [Run.settle]
    split_ifs with hb
    · obtain ⟨hs, ⟨ha, hr⟩ | hf⟩ := h.turn now hlimit hb
      · obtain ⟨hchain, hend⟩ := ih ha (by omega)
        exact ⟨hchain.head hs, hend.imp_left fun ⟨hc, hle⟩ => ⟨hc, by omega⟩⟩
      · rw [settle_of_finished hf]
        exact ⟨ReflTransGen.single hs, Or.inr hf⟩
    · rw [h.isBusy_iff, not_or, not_ne_iff, Bool.not_eq_true] at hb
      exact ⟨ReflTransGen.refl, Or.inl ⟨⟨h, hb.1, hb.2⟩, Nat.le_refl _⟩⟩

/-! Waking -/

theorem mem_alarms {a : Alarm × Task} : a ∈ r.alarms ↔ a.2 ∈ r.tasks ∧ a.1 ∈ a.2.alarms := by
  rw [alarms, (List.mergeSort_perm _ _).mem_iff]
  simp only [List.mem_flatMap, List.mem_map]
  constructor
  · rintro ⟨t, ht, alarm, ha, rfl⟩
    exact ⟨ht, ha⟩
  · rintro ⟨ht, ha⟩
    exact ⟨a.2, ht, a.1, ha, rfl⟩

/-- In a calm run every task waits for an alarm. -/
theorem Calm.waiting (hdelays : engine.DelaysFinite) (h : Calm engine w r) (ht : t ∈ r.tasks) :
    t.phase.isOver = false ∧ t.phase.isDue = false := by
  constructor
  · rw [← isFinished_eq, Bool.eq_false_iff]
    intro hf
    have hany : r.tasks.any Task.isFinished = true := List.any_eq_true.2 ⟨t, ht, hf⟩
    rw [h.waits] at hany
    cases hany
  · cases hd : t.phase.isDue with
    | false => rfl
    | true =>
      have := h.active.due t ht (fun _ => hdelays) hd
      rw [h.agenda] at this
      cases this

/-- In a calm run every alarm is heeded: a task that is about to call would be on the agenda. -/
theorem Calm.heeds (h : Calm engine w r) (ht : t ∈ r.tasks) {alarm : Alarm} (ha : alarm ∈ t.alarms) :
    t.phase.Heeds engine t.node alarm := by
  have hdue := h.active.due t ht
  rw [h.agenda] at hdue
  unfold Task.alarms at ha
  cases hp : t.phase with
  | working attempt act wake limit =>
    rw [hp] at ha
    rcases List.mem_append.1 ha with ha | ha
    · exact Or.inl (by simpa using ha)
    · exact Or.inr (List.mem_singleton.1 ha).symm
  | resting attempt wake =>
    rw [hp] at ha
    exact Option.mem_toList.1 ha
  | calling attempt limit =>
    rw [hp] at hdue
    exact absurd (hdue (fun h => nomatch h) rfl) List.not_mem_nil
  | _ =>
    rw [hp] at ha
    cases ha

theorem exists_alarm_of_nextDue (h : r.nextDue? = some now) : ∃ a rest, r.alarms = a :: rest ∧ a.1.due = now := by
  unfold nextDue? at h
  split_ifs at h
  cases hal : r.alarms with
  | nil =>
    rw [hal] at h
    cases h
  | cons a rest =>
    rw [hal] at h
    exact ⟨a, rest, rfl, Option.some.inj h⟩

theorem exists_mem_alarms (engine : Engine) (hu : t.phase.isOver = false) (hd : t.phase.isDue = false) :
    ∃ alarm, alarm ∈ t.alarms := by
  obtain ⟨alarm, ha⟩ : ∃ alarm, t.phase.Heeds engine t.node alarm := Phase.heeds_of_waits t.node hu hd
  unfold Task.alarms
  cases hp : t.phase with
  | working attempt act wake limit => exact ⟨limit, List.mem_append_right _ (List.mem_singleton_self _)⟩
  | resting attempt wake =>
    rw [hp] at ha
    exact ⟨alarm, Option.mem_toList.2 ha⟩
  | calling attempt limit =>
    rw [hp] at hd
    cases hd
  | _ =>
    rw [hp] at ha
    cases ha

/-- The next alarm of a calm run, and its instant. -/
theorem Calm.nextDue (hdelays : engine.DelaysFinite) (h : Calm engine w r) :
    ∃ a rest, r.alarms = a :: rest ∧ r.nextDue? = some a.1.due := by
  obtain ⟨t, ht⟩ := List.exists_mem_of_ne_nil _ h.active.tasks
  obtain ⟨hu, hd⟩ := h.waiting hdelays ht
  obtain ⟨alarm, ha⟩ := exists_mem_alarms engine hu hd
  have hmem : (alarm, t) ∈ r.alarms := mem_alarms.2 ⟨ht, ha⟩
  cases hal : r.alarms with
  | nil =>
    rw [hal] at hmem
    cases hmem
  | cons a rest =>
    refine ⟨a, rest, rfl, ?_⟩
    rw [nextDue?, if_neg (by simp [h.active.unfinished]), hal]
    rfl

def ringFor (engine : Engine) (r : Run) (a : Alarm × Task) : Run :=
  match r.task? a.2.node.id with
  | some t => r.ring engine t a.1
  | none => r

/-- What ringing one alarm or several comes to; what is on the agenda stays there. -/
structure Rung (engine : Engine) (w : Workflow) (r r' : Run) : Prop where
  steps : ReflTransGen (Step engine) r r'
  active : Active engine w r'
  rank : rank engine r' ≤ rank engine r
  agenda : r.agenda.Sublist r'.agenda

theorem Active.rung_refl (h : Active engine w r) : Rung engine w r r :=
  ⟨ReflTransGen.refl, h, Nat.le_refl _, List.Sublist.refl _⟩

theorem Active.rung_ringFor (a : Alarm × Task) (h : Active engine w r) : Rung engine w r (r.ringFor engine a) := by
  unfold ringFor
  cases ht : r.task? a.2.node.id with
  | none => exact h.rung_refl
  | some t =>
    by_cases ha : t.phase.Heeds engine t.node a.1
    · have hmem := task?_mem ht
      obtain ⟨hact, hr⟩ := h.ring hmem ha
      obtain ⟨p, -, -, hagenda, -⟩ := goesOn_ring (r := r) (h.fits t hmem) ha
      refine ⟨ReflTransGen.single (Step.ring h.unfinished hmem ha), hact, hr.le, ?_⟩
      dsimp only
      rcases hagenda with hagenda | ⟨-, -, hagenda⟩ <;> rw [hagenda]
      · exact List.sublist_append_left _ _
    · dsimp only
      rw [ring_of_not_heeds ha]
      exact h.rung_refl

theorem Active.rung_foldl (as : List (Alarm × Task)) (h : Active engine w r) :
    Rung engine w r (as.foldl (ringFor engine) r) := by
  induction as generalizing r with
  | nil => exact h.rung_refl
  | cons a rest ih =>
    have hone := h.rung_ringFor a
    have hrest := ih hone.active
    exact ⟨hone.steps.trans hrest.steps, hrest.active, hrest.rank.trans hone.rank, hone.agenda.trans hrest.agenda⟩

theorem Active.turns_eq (h : Active engine w r) (h' : Active engine w r') :
    r'.turns engine = r.turns engine := by
  refine turns_congr (h'.workflow.trans h.workflow.symm) ?_
  have hg : r.graph = Graph.ofWorkflow r.workflow := h.good.sound.graph
  have hg' : r'.graph = Graph.ofWorkflow r'.workflow := h'.good.sound.graph
  rw [hg, hg', h.workflow, h'.workflow]

/-- At the instant of its next alarm a calm run goes on: the ring and the turn after it take three
from the rank. -/
theorem Calm.wake (hlimit : 0 < engine.limit) (h : Calm engine w r)
    (hnow : r.nextDue? = some now) (hturns : rank engine r + 2 ≤ 2 * r.turns engine) :
    ReflTransGen (Step engine) r (r.wake engine now) ∧
      (Calm engine w (r.wake engine now) ∧ rank engine (r.wake engine now) + 2 ≤ rank engine r ∨
        (r.wake engine now).isFinished = true) := by
  obtain ⟨a, rest, hal, hdue⟩ := exists_alarm_of_nextDue hnow
  have hdue' : a.1.due ≤ now := hdue.le
  have hmem := mem_alarms.1 (hal ▸ List.mem_cons_self .. : a ∈ r.alarms)
  have hheeds := h.heeds hmem.1 hmem.2
  have htask : r.task? a.2.node.id = some a.2 := task?_of_mem h.active.good.sound.tasks_nodup hmem.1
  -- the first alarm is heeded, whatever the later ones find
  obtain ⟨hact, hr⟩ := h.active.ring hmem.1 hheeds
  obtain ⟨p, -, -, hagenda, -⟩ := goesOn_ring (r := r) (h.active.fits _ hmem.1) hheeds
  -- nobody waits for a worker in a calm run
  have hagenda : (r.ring engine a.2 a.1).agenda = r.agenda ++ [a.2.node.id] := by
    refine hagenda.resolve_right fun ⟨hcalling, hresting, _⟩ => ?_
    have hdue := h.active.due a.2 hmem.1 (fun hr => absurd (hresting.symm.trans hr) Bool.false_ne_true) hcalling
    rw [h.agenda] at hdue
    cases hdue
  have hstep : Step engine r (r.ring engine a.2 a.1) := Step.ring h.active.unfinished hmem.1 hheeds
  have hrung := hact.rung_foldl (rest.filter fun a => a.1.due ≤ now)
  have hring : r.ringDue engine now =
      (rest.filter fun a => a.1.due ≤ now).foldl (ringFor engine) (r.ring engine a.2 a.1) := by
    have hfirst : r.ringFor engine a = r.ring engine a.2 a.1 := by
      unfold ringFor
      rw [htask]
    rw [← hfirst, ringDue, hal, List.filter_cons_of_pos (by simpa using hdue'), List.foldl_cons]
    rfl
  rw [Run.wake, hring]
  revert hrung
  generalize (rest.filter fun a => a.1.due ≤ now).foldl (ringFor engine) (r.ring engine a.2 a.1) = q
  intro hrung
  have hbusy : q.isBusy = true := by
    rw [hrung.active.isBusy_iff]
    have hmem' : a.2.node.id ∈ q.agenda := by
      refine hrung.agenda.subset ?_
      rw [hagenda]
      exact List.mem_append_right _ (List.mem_singleton_self _)
    exact Or.inl (List.ne_nil_of_mem hmem')
  have hrank := hrung.rank
  obtain ⟨hsettle, hend⟩ := hrung.active.settle now hlimit (r.turns engine) (by omega)
  rw [if_pos hbusy] at hend
  exact ⟨(hrung.steps.trans hsettle).head hstep, hend.imp_left fun ⟨hc, hle⟩ => ⟨hc, by omega⟩⟩

theorem runTo_of_finished (h : r.isFinished = true) (horizon : Option Nat) (steps : Nat) :
    runTo engine horizon steps r = r := by
  cases steps with
  | zero => rfl
  | succ n => simp [runTo, nextDue?, h]

/-- Without a horizon the course goes on until the run has finished; a horizon may leave it calm. -/
theorem Calm.runTo (hlimit : 0 < engine.limit) (hdelays : engine.DelaysFinite) (horizon : Option Nat) (steps : Nat)
    (h : Calm engine w r) (hturns : rank engine r + 2 ≤ 2 * r.turns engine)
    (hsteps : rank engine r + 2 ≤ 2 * steps) :
    ReflTransGen (Step engine) r (runTo engine horizon steps r) ∧
      ((runTo engine horizon steps r).isFinished = true ∨
        horizon ≠ none ∧ Calm engine w (runTo engine horizon steps r)) := by
  induction steps generalizing r with
  | zero => omega
  | succ n ih =>
    obtain ⟨a, rest, -, hnext⟩ := h.nextDue hdelays
    rw [Run.runTo, hnext]
    dsimp only
    split_ifs with hhorizon
    · obtain ⟨hchain, ⟨hc, hr⟩ | hf⟩ := h.wake hlimit hnext hturns
      · have hteq := h.active.turns_eq hc.active
        obtain ⟨hchain', hend⟩ := ih hc (by omega) (by omega)
        exact ⟨hchain.trans hchain', hend⟩
      · rw [runTo_of_finished hf]
        exact ⟨hchain, Or.inl hf⟩
    · refine ⟨ReflTransGen.refl, Or.inr ⟨?_, h⟩⟩
      rintro rfl
      exact hhorizon rfl

/-- A run that is launched settles, as far as the present instant goes. -/
theorem Unbegun.begin (now : Nat) (hlimit : 0 < engine.limit) (h : r.Unbegun) :
    ReflTransGen (Step engine) r (r.begin engine now) ∧
      (Calm engine r.workflow (r.begin engine now) ∧
          rank engine (r.begin engine now) + 2 ≤ 2 * (r.begin engine now).turns engine ∨
        (r.begin engine now).isFinished = true) := by
  have hstep : Step engine r (r.launch engine now) := Step.launch now h
  have hturns : rank engine r + 2 ≤ 2 * r.turns engine := h.rank_add_le
  unfold Run.begin
  rcases h.launch now hlimit with ⟨ha, hr, -⟩ | ⟨m, hm, heq⟩
  · obtain ⟨hsettle, hend⟩ := ha.settle now hlimit (r.turns engine) (by omega)
    refine ⟨hsettle.head hstep, hend.imp_left fun ⟨hc, hle⟩ => ⟨hc, ?_⟩⟩
    have hgraph : r.graph = Graph.ofWorkflow r.workflow := h.graph
    have hteq : Run.turns engine (Run.settle engine now (r.turns engine) (r.launch engine now)) = r.turns engine := by
      refine turns_congr hc.active.workflow ?_
      have hg := hc.active.good.sound.graph
      rw [hgraph]
      exact hg.trans (congrArg Graph.ofWorkflow hc.active.workflow)
    omega
  · have hready : Ready engine r.workflow (firstFront r) := h.ready_firstFront
    have hf : (r.launch engine now).isFinished = true := by
      rw [heq]
      exact (hready.closable hm).covers.finished
    rw [settle_of_finished hf]
    exact ⟨ReflTransGen.single hstep, Or.inr hf⟩

/-- Running a workflow to its end takes steps from its start until it has finished. -/
theorem Unbegun.course (now : Nat) (hlimit : 0 < engine.limit) (hdelays : engine.DelaysFinite) (h : r.Unbegun) :
    ReflTransGen (Step engine) r ((r.begin engine now).advance engine none) ∧
      ((r.begin engine now).advance engine none).isFinished = true := by
  obtain ⟨hchain, ⟨hc, hturns⟩ | hf⟩ := h.begin now hlimit
  · obtain ⟨hchain', hend⟩ := hc.runTo hlimit hdelays none _ hturns hturns
    exact ⟨hchain.trans hchain', hend.resolve_right fun hno => hno.1 rfl⟩
  · unfold advance
    rw [runTo_of_finished hf]
    exact ⟨hchain, hf⟩

/-- Waits of whole seconds are always finite. -/
theorem delaysFinite_of_whole {base ceiling factor : Int}
    (h : engine.backoff = ⟨.int base, .int ceiling, .int factor, none⟩) : engine.DelaysFinite := by
  intro attempt h1 delay hd
  rw [h] at hd
  exact Backoff.ends_of_whole base ceiling factor attempt attempt h1 (Nat.le_refl attempt) delay hd

/-- A workflow that is run gets a log that tells about every node, and so it would in whatever order
the things that happen to it came, a cancellation at any moment included. -/
theorem executeChecked_covers (hlimit : 0 < engine.limit) (hdelays : engine.DelaysFinite) (w : Workflow)
    (inputs secrets : Fields) (executionId : String) (now : Nat) (validated : Bool)
    (hrun : (validated || w.validate.valid) = true) :
    Covers w (engine.executeChecked w inputs secrets executionId now validated) ∧
      Inevitably engine (fun r => Covers w r.log)
        (start w inputs secrets executionId (engine.moment now)) := by
  have hstart := unbegun_start w inputs secrets executionId (engine.moment now)
  refine ⟨?_, hstart.inevitably_covers hlimit hdelays⟩
  obtain ⟨hchain, hf⟩ := hstart.course now hlimit hdelays
  rw [Engine.executeChecked, if_pos hrun]
  rcases hstart.steps_cover hlimit hchain with heq | ha | hc
  · rw [heq] at hf
    exact absurd hf (by simp [hstart.unfinished])
  · rw [ha.unfinished] at hf
    cases hf
  · exact hc

end

def plainEngine : Engine where
  registry := Builtin.registry
  limit := 2
  defaultTimeout := Policy.standardTimeout
  backoff := ⟨.int 1, .int 30, .int 2, none⟩
  epoch := ⟨0, none⟩

def twoSteps : Workflow where
  id := "two"
  name := "Two steps"
  version := "1"
  nodes := [{ id := "in", type := .trigger, provider := "trigger", operation := "manual" },
    { id := "out", type := .action, provider := "core", operation := "noop" }]
  edges := [{ id := "e", source := "in", target := "out" }]

theorem executeChecked_covers_twoSteps :
    (0 < plainEngine.limit ∧ plainEngine.DelaysFinite ∧ (false || twoSteps.validate.valid) = true) ∧
      Covers twoSteps (plainEngine.executeChecked twoSteps [] [] "run" 0 false) ∧
      Inevitably plainEngine (fun r => Covers twoSteps r.log)
        (start twoSteps [] [] "run" (plainEngine.moment 0)) := by
  have hlimit : 0 < plainEngine.limit := by decide
  have hdelays : plainEngine.DelaysFinite := delaysFinite_of_whole rfl
  have hvalid : (false || twoSteps.validate.valid) = true := by decide +kernel
  exact ⟨⟨hlimit, hdelays, hvalid⟩, executeChecked_covers hlimit hdelays twoSteps [] [] "run" 0 false hvalid⟩

end Run

end Flowgraph
