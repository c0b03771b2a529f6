import Flowgraph.Proofs.Run.Account
import Flowgraph.Proofs.Run.Pace

/-! The passage of time. Things happen to a run at instants, and time does not go back. The course that a run takes
by itself is such a history: it goes from alarm to alarm, and no alarm is set for an instant that has passed. -/

namespace Flowgraph

open Relation (ReflTransGen)

namespace Run

/-- Something happens to a run at an instant. -/
inductive Occurs (engine : Engine) (now : Nat) : Run → Run → Prop
  | launch {r : Run} (hb : r.Unbegun) : Occurs engine now r (r.launch engine now)
  | resume {r : Run} {id : String} (hu : r.isFinished = false) (hid : id ∈ r.agenda) :
    Occurs engine now r (r.resume engine now id)
  | ring {r : Run} {t : Task} {alarm : Alarm} (hu : r.isFinished = false) (ht : t ∈ r.tasks)
    (ha : t.phase.Heeds engine t.node alarm) : Occurs engine now r (r.ring engine t alarm)
  | gather {r : Run} (hu : r.isFinished = false) (hf : r.tasks.any Task.isFinished = true) :
    Occurs engine now r ((r.handleBatch (engine.moment now)).proceed engine now)
  | cancel (r : Run) : Occurs engine now r (r.cancel (engine.moment now))

/-- A run has come to a state by an instant: on the way time has passed, or something has happened. -/
inductive Reaches (engine : Engine) (r₀ : Run) (begun : Nat) : Nat → Run → Prop
  | start : Reaches engine r₀ begun begun r₀
  | waits {now later : Nat} {r : Run} (h : Reaches engine r₀ begun now r) (hle : now ≤ later) :
    Reaches engine r₀ begun later r
  | occurs {now : Nat} {r r' : Run} (h : Reaches engine r₀ begun now r) (ho : Occurs engine now r r') :
    Reaches engine r₀ begun now r'

section
variable {engine : Engine} {w : Workflow} {begun soon now : Nat} {r₀ r r' : Run} {t : Task}

theorem Occurs.happens (h : Occurs engine now r r') : Happens engine r r' := by
  cases h with
  | launch hb => exact .step (.launch now hb)
  | resume hu hid => exact .step (.resume now hu hid)
  | ring hu ht ha => exact .step (.ring hu ht ha)
  | gather hu hf => exact .step (.gather now hu hf)
  | cancel => exact .cancel r _

theorem Reaches.happens (h : Reaches engine r₀ begun now r) : ReflTransGen (Happens engine) r₀ r := by
  induction h with
  | start => exact .refl
  | waits _ _ ih => exact ih
  | occurs _ ho ih => exact ih.tail ho.happens

/-! In one instant -/

theorem occurs_turn (hb : r.isBusy = true) : Occurs engine now r (r.turn engine now) := by
  unfold isBusy at hb
  rw [Bool.and_eq_true, Bool.not_eq_true', Bool.or_eq_true] at hb
  obtain ⟨hu, hb⟩ := hb
  cases ha : r.agenda with
  | cons id rest =>
    rw [turn_of_agenda ha]
    exact .resume hu (ha ▸ List.mem_cons_self ..)
  | nil =>
    rw [turn_of_nil ha]
    exact .gather hu (hb.resolve_left (by simp [ha]))

theorem Reaches.settle (h : Reaches engine r₀ begun now r) (steps : Nat) :
    Reaches engine r₀ begun now (Run.settle engine now steps r) := by
  induction steps generalizing r with
  | zero => exact h
  | succ n ih =>
    rw [Run.settle]
    split_ifs with hb
    · exact ih (h.occurs (occurs_turn hb))
    · exact h

theorem Unbegun.reaches_begin (h : r.Unbegun) (now : Nat) : Reaches engine r now now (r.begin engine now) :=
  (Reaches.start.occurs (.launch h)).settle _

theorem Reaches.ringFor (h : Reaches engine r₀ begun now r) (hu : r.isFinished = false) (a : Alarm × Task) :
    Reaches engine r₀ begun now (r.ringFor engine a) := by
  unfold Run.ringFor
  cases ht : r.task? a.2.node.id with
  | none => exact h
  | some t =>
    by_cases ha : t.phase.Heeds engine t.node a.1
    · exact h.occurs (.ring hu (task?_mem ht) ha)
    · dsimp only
      rwa [ring_of_not_heeds ha]

theorem Reaches.rings (as : List (Alarm × Task)) (h : Reaches engine r₀ begun now r) (ha : Active engine w r) :
    Reaches engine r₀ begun now (as.foldl (Run.ringFor engine) r) := by
  induction as generalizing r with
  | nil => exact h
  | cons a rest ih => exact ih (h.ringFor ha.unfinished a) (ha.rung_ringFor a).active

theorem Reaches.wake (h : Reaches engine r₀ begun now r) (ha : Active engine w r) :
    Reaches engine r₀ begun now (r.wake engine now) :=
  (h.rings _ ha).settle _

/-! From alarm to alarm -/

theorem Ahead.ring (h : r.Ahead soon) (ht : t ∈ r.tasks) (alarm : Alarm) : (r.ring engine t alarm).Ahead soon := by
  have hphase := h t ht
  unfold Run.ring
  dsimp only
  split <;> rename_i hp
  · split_ifs
    · exact h.setPhase (p := .returned _ _) trivial
    · exact h
  · rw [hp] at hphase
    split_ifs
    · exact (h.setPhase (p := .working _ _ none _) ⟨nofun, hphase.2⟩).congr rfl
    · exact (h.setPhase (p := .returned _ _) trivial).congr rfl
    · exact h
  · split_ifs
    · exact (h.setPhase (p := .resting _ none) nofun).congr rfl
    · exact h
  · exact h

theorem Ahead.rings (as : List (Alarm × Task)) (h : r.Ahead soon) : (as.foldl (ringFor engine) r).Ahead soon := by
  induction as generalizing r with
  | nil => exact h
  | cons a rest ih =>
    refine ih ?_
    unfold ringFor
    cases ht : r.task? a.2.node.id with
    | none => exact h
    | some t => exact h.ring (task?_mem ht) a.1

theorem Alarm.due_le_of_before {a b : Alarm} (h : a.before b = true) : a.due ≤ b.due := by
  unfold Alarm.before at h
  split_ifs at h with hdue
  · exact hdue.le
  · exact (of_decide_eq_true h).le

theorem pairwise_alarms (r : Run) : r.alarms.Pairwise fun a b => a.1.due ≤ b.1.due := by
  refine (List.pairwise_mergeSort (fun a b c hab hbc => ?_) (fun a b => ?_) _).imp fun h => Alarm.due_le_of_before h
  · unfold Alarm.before at *
    split_ifs at * <;> simp only [decide_eq_true_eq] at * <;> omega
  · unfold Alarm.before
    split_ifs <;> simp only [Bool.or_eq_true, decide_eq_true_eq] <;> omega

/-- No alarm rings before the next one. -/
theorem ahead_of_nextDue (h : r.nextDue? = some (soon + 1)) : r.Ahead soon := by
  obtain ⟨a, rest, hal, hdue⟩ := exists_alarm_of_nextDue h
  have hfirst := pairwise_alarms r
  rw [hal, List.pairwise_cons] at hfirst
  refine fun t ht => ahead_iff.2 fun alarm ha => ?_
  have hmem : (alarm, t) ∈ r.alarms := mem_alarms.2 ⟨ht, ha⟩
  rw [hal] at hmem
  rcases List.mem_cons.1 hmem with rfl | hmem
  · exact Nat.lt_of_succ_le hdue.ge
  · exact Nat.lt_of_succ_le (hdue.ge.trans (hfirst.1 _ hmem))

theorem Calm.ahead_wake (hlimit : 0 < engine.limit) (h : Calm engine w r) (ha : r.Ahead soon) (hle : soon ≤ now) :
    (r.wake engine now).Ahead soon ∨ (r.wake engine now).isFinished = true :=
  (h.active.rung_foldl _).active.ahead_settle hlimit _ (ha.rings _) hle

theorem Reaches.runTo (hlimit : 0 < engine.limit) (horizon : Option Nat) (steps : Nat)
    (h : Reaches engine r₀ begun now r) (hc : Calm engine w r) (hturns : rank engine r + 2 ≤ 2 * r.turns engine)
    (ha : r.Ahead soon) (hle : now ≤ soon + 1) :
    ∃ later, Reaches engine r₀ begun later (Run.runTo engine horizon steps r) := by
  induction steps generalizing r now soon with
  | zero => exact ⟨now, h⟩
  | succ n ih =>
    rw [Run.runTo]
    cases hnext : r.nextDue? with
    | none => exact ⟨now, h⟩
    | some due =>
      dsimp only
      split_ifs
      · have hdue : soon < due := ha.settled due hnext
        obtain ⟨k, rfl⟩ : ∃ k, due = k + 1 := ⟨due - 1, by omega⟩
        have hwake : Reaches engine r₀ begun (k + 1) (r.wake engine (k + 1)) := (h.waits (by omega)).wake hc.active
        rcases hc.wake_paced hlimit hturns hnext with ⟨hc', hteq, hr⟩ | hf
        · rcases hc.ahead_wake hlimit (ahead_of_nextDue hnext) (Nat.le_succ k) with ha' | hf
          · exact ih hwake hc' (by omega) ha' (Nat.le_refl _)
          · exact absurd (hc'.active.unfinished.symm.trans hf) Bool.false_ne_true
        · rw [runTo_of_finished hf]
          exact ⟨k + 1, hwake⟩
      · exact ⟨now, h⟩

/-- Wherever a run gets to by itself, it is a state that it reaches in time. -/
theorem Unbegun.reaches_advance (hlimit : 0 < engine.limit) (h : r.Unbegun) (now : Nat) (horizon : Option Nat) :
    ∃ later, Reaches engine r now later ((r.begin engine now).advance engine horizon) := by
  have hbegin : Reaches engine r now now (r.begin engine now) := h.reaches_begin now
  rcases h.ahead_begin now hlimit with ha | hf
  · obtain ⟨-, ⟨hc, hturns⟩ | hf⟩ := h.begin now hlimit
    · exact hbegin.runTo hlimit horizon _ hc hturns ha (Nat.le_succ now)
    · rw [advance_of_finished horizon hf]
      exact ⟨now, hbegin⟩
  · rw [advance_of_finished horizon hf]
    exact ⟨now, hbegin⟩

end

end Run

end Flowgraph
