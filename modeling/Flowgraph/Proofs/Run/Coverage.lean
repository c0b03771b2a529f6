import Flowgraph.Proofs.Run.Step

/-! However a run goes, it comes to an end, and its log then tells about every node: the tasks may go on
in any order, alarms may ring at any instant, finished tasks may be handled in batches of any kind, and
the run may be cancelled at any moment. -/

namespace Flowgraph

open Relation (ReflTransGen)

namespace Run

section
variable {engine : Engine} {w : Workflow} {r r' m : Run} {time : Moment}

theorem Ready.closable {f : Front} (hf : Ready engine w f) (h : Over f time m) :
    Closable w m := by
  cases h with
  | done hc ht hr =>
    obtain @⟨q, _, order, _, hb, -, hs, hg⟩ := hc
    have hhandled : Handled time f.todo f.run q := Front.handled_of_beats hb
    have hh := hhandled.with_ready order
    refine ⟨hs.workflow.trans (hh.workflow.trans hf.workflow), hg.sound, ?_, fun _ => ht, fun s hstop => ?_,
      Good.ended hg⟩
    · rw [hs.isFinished, hh.isFinished]
      exact hf.unfinished
    · rw [hs.stop, hh.stop, hf.stop] at hstop
      cases hstop
  | @halted m reason hb hs order =>
    have hh := Front.handled_of_beats hb
    have hgood := hf.good.beats hb
    have hhalt := Front.halt_handled time reason hgood.live
    have hstop : (m.halt time reason).stop = some ⟨.failed, reason⟩ := Front.halt_stop time reason hgood.live
    refine ⟨hhalt.workflow.trans (hh.workflow.trans hf.workflow), (hgood.halt_sound time reason).congr rfl rfl rfl rfl,
      ?_, ?_, ?_, fun e he => ?_⟩
    · exact hhalt.isFinished.trans (hh.isFinished.trans hf.unfinished)
    · exact fun hno => absurd (hstop.symm.trans hno) (Option.some_ne_none _)
    · intro s hs
      obtain rfl := Option.some.inj (hstop.symm.trans hs)
      exact nofun
    · change _ ∨ e.nodeId ∈ (m.halt time reason).taskIds
      rw [hhalt.taskIds]
      exact hgood.halt_ended time reason e he

theorem cancel_eq (h : r.stop = none) :
    r.cancel time = complete time { r with stop := some ⟨.cancelled, cancelReason⟩ } := by
  rw [cancel, halt, stopWith, h]

theorem closable_cancel (hw : r.workflow = w) (hs : r.Sound) (hu : r.isFinished = false)
    (hended : ∀ e ∈ r.log.nodeLogs, e.status.Ended ∨ e.nodeId ∈ r.taskIds) :
    Closable w { r with stop := some ⟨.cancelled, cancelReason⟩ } := by
  refine ⟨hw, hs.congr rfl rfl rfl rfl, hu, (fun hno => by cases hno), ?_, hended⟩
  rintro s ⟨⟩
  exact fun hno => by cases hno

theorem Active.closable_cancel (h : Active engine w r) :
    Closable w { r with stop := some ⟨.cancelled, cancelReason⟩ } :=
  Run.closable_cancel h.workflow h.good.sound h.unfinished (Good.ended h.good)

theorem Unbegun.closable_cancel (h : r.Unbegun) :
    Closable r.workflow { r with stop := some ⟨.cancelled, cancelReason⟩ } :=
  Run.closable_cancel rfl h.sound h.unfinished (h.entries ▸ List.forall_mem_nil _)

theorem Active.cancel_covers (h : Active engine w r) : Covers w (r.cancel time).log := by
  rw [cancel_eq h.stop]
  exact h.closable_cancel.covers

theorem Unbegun.cancel_covers (h : r.Unbegun) : Covers r.workflow (r.cancel time).log := by
  rw [cancel_eq h.stop]
  exact h.closable_cancel.covers

/-- A step leads on to an active run of smaller rank, or to a log that tells about every node. -/
theorem Active.step_covers (hlimit : 0 < engine.limit) (h : Active engine w r) (hs : Step engine r r') :
    Active engine w r' ∧ rank engine r' < rank engine r ∨ Covers w r'.log := by
  rcases h.step hlimit hs with ha | ⟨now, m, hm, rfl⟩
  · exact Or.inl ha
  · exact Or.inr (h.ready_batch.closable hm).covers

theorem Unbegun.launch_covers (now : Nat) (hlimit : 0 < engine.limit) (h : r.Unbegun) :
    Active engine r.workflow (r.launch engine now) ∨ Covers r.workflow (r.launch engine now).log := by
  rcases h.launch now hlimit with ⟨ha, -⟩ | ⟨m, hm, heq⟩
  · exact Or.inl ha
  · have hready : Ready engine r.workflow (firstFront r) := h.ready_firstFront
    rw [heq]
    exact Or.inr (hready.closable hm).covers

theorem Step.unfinished (h : Step engine r r') : r.isFinished = false := by
  cases h with
  | launch now hb => exact hb.unfinished
  | resume now hu hid => exact hu
  | ring hu ht ha => exact hu
  | gather now hu hf => exact hu

/-- A phase that has not ended and does not go on by itself waits for an alarm. -/
theorem Phase.heeds_of_waits {p : Phase} (n : Node) (hu : p.isOver = false) (hd : p.isDue = false) :
    ∃ alarm, p.Heeds engine n alarm := by
  cases p with
  | working attempt act wake limit => exact ⟨limit, Or.inr rfl⟩
  | resting attempt wake =>
    cases wake with
    | none => cases hd
    | some alarm => exact ⟨alarm, rfl⟩
  | finished failed => cases hu
  | unwound => cases hu
  | _ => cases hd

/-- An active run can always take a step. -/
theorem Active.progress (hdelays : engine.DelaysFinite) (h : Active engine w r) : ∃ r', Step engine r r' := by
  obtain ⟨t, ht⟩ := List.exists_mem_of_ne_nil _ h.tasks
  cases hu : t.phase.isOver with
  | false =>
    cases hd : t.phase.isDue with
    | true => exact ⟨_, Step.resume 0 h.unfinished (h.due t ht (fun _ => hdelays) hd)⟩
    | false =>
      obtain ⟨alarm, ha⟩ := Phase.heeds_of_waits t.node hu hd
      exact ⟨_, Step.ring h.unfinished ht ha⟩
  | true => exact ⟨_, Step.gather 0 h.unfinished (List.any_eq_true.2 ⟨t, ht, (isFinished_eq t).trans hu⟩)⟩

/-- Whatever happens, this will be so: either it is, or something can happen next, and this will be so
after whatever does, a cancellation included. -/
inductive Inevitably (engine : Engine) (P : Run → Prop) : Run → Prop
  | now {r : Run} (h : P r) : Inevitably engine P r
  | later {r : Run} (hu : r.isFinished = false) (hgo : ∃ r', Step engine r r')
    (hstep : ∀ r', Step engine r r' → Inevitably engine P r')
    (hcancel : ∀ time, Inevitably engine P (r.cancel time)) : Inevitably engine P r

/-- Induction on the rank, which no step leaves as it is. -/
theorem Active.inevitably_covers (hlimit : 0 < engine.limit) (hdelays : engine.DelaysFinite)
    (h : Active engine w r) : Inevitably engine (fun r => Covers w r.log) r := by
  induction hk : rank engine r using Nat.strong_induction_on generalizing r with
  | _ k ih =>
    refine .later h.unfinished (h.progress hdelays) (fun r' hs => ?_) fun time => .now h.cancel_covers
    rcases h.step_covers hlimit hs with ⟨ha, hr⟩ | hc
    · exact ih _ (hk ▸ hr) ha rfl
    · exact .now hc

theorem Active.steps_cover (hlimit : 0 < engine.limit) (h : Active engine w r) (hs : ReflTransGen (Step engine) r r') :
    Active engine w r' ∨ Covers w r'.log := by
  induction hs with
  | refl => exact Or.inl h
  | tail _ hstep ih =>
    rcases ih with ha | hc
    · exact (ha.step_covers hlimit hstep).imp_left And.left
    · have hu := hstep.unfinished
      rw [Run.isFinished, hc.finished] at hu
      cases hu

/-- Launching is the only step that a run can take first. -/
theorem Unbegun.step (h : r.Unbegun) (hs : Step engine r r') : ∃ now, r' = r.launch engine now := by
  cases hs with
  | launch now hb => exact ⟨now, rfl⟩
  | resume now hu hid =>
    rw [h.agenda] at hid
    cases hid
  | ring hu ht ha =>
    rw [h.tasks] at ht
    cases ht
  | gather now hu hf =>
    rw [h.tasks] at hf
    cases hf

/-- Every state that a run gets to is the first one, active, or the end. -/
theorem Unbegun.steps_cover (hlimit : 0 < engine.limit) (h : r.Unbegun) (hs : ReflTransGen (Step engine) r r') :
    r' = r ∨ Active engine r.workflow r' ∨ Covers r.workflow r'.log := by
  rcases ReflTransGen.cases_head hs with rfl | ⟨q, hfirst, hrest⟩
  · exact Or.inl rfl
  obtain ⟨now, rfl⟩ := h.step hfirst
  rcases h.launch_covers now hlimit with ha | hc
  · exact Or.inr (ha.steps_cover hlimit hrest)
  · rcases ReflTransGen.cases_head hrest with rfl | ⟨q, hnext, -⟩
    · exact Or.inr (Or.inr hc)
    · have hu := hnext.unfinished
      rw [Run.isFinished, hc.finished] at hu
      cases hu

theorem Unbegun.inevitably_covers (hlimit : 0 < engine.limit) (hdelays : engine.DelaysFinite)
    (h : r.Unbegun) : Inevitably engine (fun r' => Covers r.workflow r'.log) r := by
  refine .later h.unfinished ⟨_, Step.launch 0 h⟩ (fun r' hs => ?_) fun time => .now h.cancel_covers
  obtain ⟨now, rfl⟩ := h.step hs
  rcases h.launch_covers now hlimit with ha | hc
  · exact ha.inevitably_covers hlimit hdelays
  · exact .now hc

end

end Run

end Flowgraph
