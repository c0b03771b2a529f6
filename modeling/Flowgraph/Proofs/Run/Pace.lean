import Flowgraph.Proofs.Run.Course

/-! The pace of a run. A run that has begun can be advanced in stages: stops on the way make no difference
to where it gets, and what it has been advanced to lies behind it. -/

namespace Flowgraph

def Phase.Ahead (now : Nat) : Phase → Prop
  | .calling _ limit => now < limit.due
  | .working _ _ wake limit => (∀ a, wake = some a → now < a.due) ∧ now < limit.due
  | .resting _ wake => ∀ a, wake = some a → now < a.due
  | _ => True

namespace Run

/-- A launched run between two alarms, with turns enough for the rest of its course, or at its end. -/
inductive Paced (engine : Engine) (r : Run) : Prop
  | calm {w : Workflow} (h : Calm engine w r) (hturns : rank engine r + 2 ≤ 2 * r.turns engine)
  | finished (h : r.isFinished = true)

def Settled (now : Nat) (r : Run) : Prop :=
  ∀ due, r.nextDue? = some due → now < due

section
variable {engine : Engine} {w : Workflow} {r : Run} {now : Nat}

theorem nextDue?_of_finished (h : r.isFinished = true) : r.nextDue? = none := by
  simp [nextDue?, h]

theorem settled_of_finished (now : Nat) (h : r.isFinished = true) : r.Settled now := by
  intro due hdue
  rw [nextDue?_of_finished h] at hdue
  cases hdue

theorem advance_of_finished (horizon : Option Nat) (h : r.isFinished = true) : r.advance engine horizon = r :=
  runTo_of_finished h horizon _

/-- What a run does from one alarm to the next. -/
theorem Calm.wake_paced (hlimit : 0 < engine.limit) (h : Calm engine w r)
    (hturns : rank engine r + 2 ≤ 2 * r.turns engine) (hnow : r.nextDue? = some now) :
    (Calm engine w (r.wake engine now) ∧ (r.wake engine now).turns engine = r.turns engine ∧
        rank engine (r.wake engine now) + 2 ≤ rank engine r) ∨
      (r.wake engine now).isFinished = true := by
  obtain ⟨-, ⟨hc, hr⟩ | hf⟩ := h.wake hlimit hnow hturns
  · exact Or.inl ⟨hc, h.active.turns_eq hc.active, hr⟩
  · exact Or.inr hf

/-- More turns than enough change nothing. -/
theorem Calm.runTo_congr (hlimit : 0 < engine.limit) (h : Calm engine w r)
    (hturns : rank engine r + 2 ≤ 2 * r.turns engine) (horizon : Option Nat) {n m : Nat}
    (hn : rank engine r + 2 ≤ 2 * n) (hm : rank engine r + 2 ≤ 2 * m) :
    Run.runTo engine horizon n r = Run.runTo engine horizon m r := by
  induction n generalizing r m with
  | zero => omega
  | succ n ih =>
    obtain ⟨m, rfl⟩ : ∃ k, m = k + 1 := ⟨m - 1, by omega⟩
    rw [Run.runTo, Run.runTo]
    cases hnow : r.nextDue? with
    | none => rfl
    | some now =>
      dsimp only
      split_ifs with hhorizon
      · rcases h.wake_paced hlimit hturns hnow with ⟨hc, hteq, hr⟩ | hf
        · exact ih hc (by omega) (by omega) (by omega)
        · rw [runTo_of_finished hf, runTo_of_finished hf]
      · rfl

/-- A stop on the way changes nothing. -/
theorem Calm.runTo_runTo (hlimit : 0 < engine.limit) (h : Calm engine w r)
    (hturns : rank engine r + 2 ≤ 2 * r.turns engine) {early late : Option Nat}
    (hle : ∀ now, early.all (now ≤ ·) = true → late.all (now ≤ ·) = true) {n m k : Nat}
    (hn : rank engine r + 2 ≤ 2 * n) (hm : rank engine r + 2 ≤ 2 * m) (hk : rank engine r + 2 ≤ 2 * k) :
    Run.runTo engine late m (Run.runTo engine early n r) = Run.runTo engine late k r := by
  induction n generalizing r m k with
  | zero => omega
  | succ n ih =>
    rw [Run.runTo]
    cases hnow : r.nextDue? with
    | none => exact h.runTo_congr hlimit hturns late hm hk
    | some now =>
      dsimp only
      split_ifs with hhorizon
      · obtain ⟨k, rfl⟩ : ∃ j, k = j + 1 := ⟨k - 1, by omega⟩
        have hlate : Run.runTo engine late (k + 1) r = Run.runTo engine late k (r.wake engine now) := by
          rw [Run.runTo, hnow]
          exact if_pos (hle now hhorizon)
        rw [hlate]
        rcases h.wake_paced hlimit hturns hnow with ⟨hc, hteq, hr⟩ | hf
        · exact ih hc (by omega) (by omega) (by omega) (by omega)
        · rw [runTo_of_finished hf, runTo_of_finished hf, runTo_of_finished hf]
      · exact h.runTo_congr hlimit hturns late hm hk

/-- Where a run stops it is calm or has finished, and nothing is due up to there. -/
theorem Calm.runTo_paced (hlimit : 0 < engine.limit) (h : Calm engine w r)
    (hturns : rank engine r + 2 ≤ 2 * r.turns engine) (horizon : Option Nat) {n : Nat}
    (hn : rank engine r + 2 ≤ 2 * n) :
    Paced engine (Run.runTo engine horizon n r) ∧ ((Run.runTo engine horizon n r).isFinished = false →
      (Run.runTo engine horizon n r).turns engine = r.turns engine) ∧
      ∀ due, (Run.runTo engine horizon n r).nextDue? = some due → horizon.all (due ≤ ·) = false := by
  induction n generalizing r with
  | zero => omega
  | succ n ih =>
    rw [Run.runTo]
    cases hnow : r.nextDue? with
    | none => exact ⟨.calm h hturns, fun _ => rfl, fun due hdue => by rw [hnow] at hdue; cases hdue⟩
    | some now =>
      dsimp only
      split_ifs with hhorizon
      · rcases h.wake_paced hlimit hturns hnow with ⟨hc, hteq, hr⟩ | hf
        · obtain ⟨hpaced, hturns', hdue⟩ := ih hc (by omega) (by omega)
          exact ⟨hpaced, fun hu => (hturns' hu).trans hteq, hdue⟩
        · rw [runTo_of_finished hf]
          refine ⟨.finished hf, fun hu => ?_, fun due hdue => ?_⟩
          · rw [hf] at hu
            cases hu
          · rw [nextDue?_of_finished hf] at hdue
            cases hdue
      · refine ⟨.calm h hturns, fun _ => rfl, fun due hdue => ?_⟩
        obtain rfl := Option.some.inj (hnow.symm.trans hdue)
        exact Bool.eq_false_iff.2 hhorizon

theorem Paced.advance (hlimit : 0 < engine.limit) (h : Paced engine r) (horizon : Option Nat) :
    Paced engine (r.advance engine horizon) := by
  cases h with
  | calm hc hturns => exact (hc.runTo_paced hlimit hturns horizon hturns).1
  | finished hf =>
    rw [advance_of_finished horizon hf]
    exact .finished hf

theorem Paced.settled_advance (hlimit : 0 < engine.limit) (h : Paced engine r) (now : Nat) :
    (r.advance engine (some now)).Settled now := by
  cases h with
  | calm hc hturns =>
    intro due hdue
    have := (hc.runTo_paced hlimit hturns (some now) hturns).2.2 due hdue
    simpa using this
  | finished hf =>
    rw [advance_of_finished _ hf]
    exact settled_of_finished now hf

/-- A run that has been advanced to one instant and then to a later one has been advanced to the later one. -/
theorem Paced.advance_advance (hlimit : 0 < engine.limit) (h : Paced engine r) {early late : Option Nat}
    (hle : ∀ now, early.all (now ≤ ·) = true → late.all (now ≤ ·) = true) :
    (r.advance engine early).advance engine late = r.advance engine late := by
  cases h with
  | calm hc hturns =>
    cases hf : (r.advance engine early).isFinished with
    | false =>
      have hteq : (r.advance engine early).turns engine = r.turns engine :=
        (hc.runTo_paced hlimit hturns early hturns).2.1 hf
      have := hc.runTo_runTo hlimit hturns hle hturns hturns hturns
      rw [Run.advance, hteq]
      exact this
    | true =>
      have := hc.runTo_runTo hlimit hturns hle hturns hturns hturns
      rw [advance_of_finished late hf]
      rw [← Run.advance, ← Run.advance, runTo_of_finished hf] at this
      exact this
  | finished hf => rw [advance_of_finished early hf]

/-- Up to an instant that lies behind it, a run has nothing to do. -/
theorem Settled.advance {early : Nat} (h : r.Settled now) (hle : early ≤ now) :
    r.advance engine (some early) = r := by
  unfold Run.advance
  cases r.turns engine with
  | zero => rfl
  | succ n =>
    rw [Run.runTo]
    cases hdue : r.nextDue? with
    | none => rfl
    | some due =>
      have := h due hdue
      dsimp only
      rw [if_neg]
      simp only [Option.all_some, decide_eq_true_eq, not_le]
      omega

end

/-! What lies ahead -/

def Ahead (now : Nat) (r : Run) : Prop :=
  ∀ t ∈ r.tasks, t.phase.Ahead now

section
variable {engine : Engine} {w : Workflow} {r r' : Run} {soon now : Nat} {t : Task} {id : String} {time : Moment}

theorem ahead_iff : t.phase.Ahead now ↔ ∀ a ∈ t.alarms, now < a.due := by
  unfold Task.alarms
  cases t.phase with
  | working attempt act wake limit => simp [Phase.Ahead, or_imp, forall_and]
  | _ => simp [Phase.Ahead]

theorem Ahead.settled (h : r.Ahead now) : r.Settled now := by
  intro due hdue
  obtain ⟨a, rest, hal, rfl⟩ := exists_alarm_of_nextDue hdue
  obtain ⟨ht, ha⟩ := mem_alarms.1 (hal ▸ List.mem_cons_self .. : a ∈ r.alarms)
  exact ahead_iff.1 (h a.2 ht) a.1 ha

theorem Ahead.congr (h : r.Ahead soon) (ht : r'.tasks = r.tasks) : r'.Ahead soon := by
  intro t hmem
  rw [ht] at hmem
  exact h t hmem

/-- A task that changes its phase has no alarms but those of the phase. -/
theorem Ahead.setPhase (h : r.Ahead soon) {p : Phase} (hp : p.Ahead soon) : (r.setPhase id p).Ahead soon := by
  intro t ht
  obtain ⟨u, hu, rfl⟩ := List.mem_map.1 ht
  split_ifs
  · exact hp
  · exact h u hu

theorem Ahead.close (h : r.Ahead soon) (time : Moment) {p : Phase} (hp : p.Ahead soon) :
    (r.close id time p).Ahead soon :=
  Ahead.setPhase (h.congr rfl) hp

theorem Ahead.failTask (h : r.Ahead soon) (time : Moment) (f : Failure) : (r.failTask id time f).Ahead soon :=
  Ahead.close (p := .finished true) (h.congr rfl) time trivial

theorem Ahead.succeedTask (h : r.Ahead soon) (time : Moment) (outputs : Fields) :
    (r.succeedTask engine id time outputs).Ahead soon := by
  unfold Run.succeedTask
  dsimp only
  split
  · next f _ => exact Ahead.failTask (h.congr rfl) time f
  · exact Ahead.close (p := .finished false) (h.congr rfl) time trivial

theorem Ahead.beginAttempt (h : r.Ahead soon) (hle : soon ≤ now) (n : Node) (attempt : Nat) :
    (r.beginAttempt engine now n attempt).Ahead soon := by
  unfold Run.beginAttempt
  dsimp only
  split_ifs with hlimit
  · exact (Ahead.setPhase (p := .returned _ _) (h.congr rfl) trivial).congr rfl
  · refine Ahead.congr (Ahead.setPhase (h.congr rfl) ?_) rfl
    change soon < now + _
    omega

theorem Ahead.runAction (h : r.Ahead soon) (attempt : Nat) (act : Action) : (r.runAction id attempt act).Ahead soon :=
  (Ahead.setPhase (p := .returning _ _) (h.congr rfl) trivial).congr rfl

theorem Ahead.resolveTask (h : r.Ahead soon) (hle : soon ≤ now) : (r.resolveTask engine now t).Ahead soon := by
  unfold Run.resolveTask
  dsimp only
  split
  · exact h.failTask _ _
  · split
    · exact h.failTask _ _
    split
    · refine Ahead.failTask (Ahead.congr h ?_) _ _
      rfl
    · refine Ahead.beginAttempt (fun u hu => ?_) hle _ _
      obtain ⟨v, hv, rfl⟩ := List.mem_map.1 hu
      split_ifs
      · exact h v hv
      · exact h v hv

theorem Ahead.callExecutor (h : r.Ahead soon) (hle : soon ≤ now) (attempt : Nat) {limit : Alarm}
    (hlimit : soon < limit.due) : (r.callExecutor engine now t attempt limit).Ahead soon := by
  unfold Run.callExecutor
  dsimp only
  split
  · exact h
  · split
    · exact h.runAction _ _
    · split
      · exact h.setPhase ⟨fun _ ha => absurd ha (by simp), hlimit⟩
      · split_ifs
        · exact (h.setPhase (p := .working _ _ none _) ⟨fun _ ha => absurd ha (by simp), hlimit⟩).congr rfl
        · refine Ahead.setPhase (h.congr rfl) ⟨fun a ha => ?_, hlimit⟩
          obtain rfl := Option.some.inj ha
          change soon < now + _
          omega

theorem Ahead.rest (h : r.Ahead soon) (hle : soon ≤ now) (attempt : Nat) (delay : Number) :
    (r.rest now id attempt delay).Ahead soon := by
  unfold Run.rest
  split
  · exact h.setPhase fun _ ha => nomatch ha
  · split_ifs
    · exact (h.setPhase (p := .resting _ none) fun _ ha => nomatch ha).congr rfl
    · refine Ahead.setPhase (h.congr rfl) fun a ha => ?_
      obtain rfl := Option.some.inj ha
      change soon < now + _
      omega

theorem Ahead.recordAttempt (h : r.Ahead soon) (hle : soon ≤ now) (attempt : Nat) (result : Except Failure Value) :
    (r.recordAttempt engine now t attempt result).Ahead soon := by
  unfold Run.recordAttempt
  dsimp only
  split
  · exact h.succeedTask _ _
  · split_ifs
    · exact h.close (p := .unwound) _ trivial
    · split
      · exact h.rest hle _ _
      · exact h.failTask _ _
    · exact h.failTask _ _

/-- What goes on in the present instant sets alarms for later ones only. -/
theorem Ahead.goOn (h : r.Ahead soon) (hle : soon ≤ now) (ht : t ∈ r.tasks) : (r.goOn engine now t).Ahead soon := by
  have hphase := h t ht
  unfold Run.goOn
  dsimp only
  split <;> rename_i hp <;> rw [hp] at hphase
  · exact h.resolveTask hle
  · exact h.callExecutor hle _ hphase
  · exact h.runAction _ _
  · exact (h.setPhase (p := .returned _ _) trivial).congr rfl
  · exact h.recordAttempt hle _ _
  · exact h.beginAttempt hle _ _
  · exact h
  · exact h

/-- Handling sets no alarms, nor does starting. -/
theorem Continues.ahead {f : Front} (h : Continues f time r) (hf : f.run.Ahead soon) :
    r.Ahead soon := by
  obtain ⟨hb, -, hs, -⟩ := h
  intro t ht
  rw [hs.tasks] at ht
  rcases List.mem_append.1 ht with ht | ht
  · have htasks := (Front.handled_of_beats hb).tasks
    exact hf t (htasks ▸ ht)
  · obtain ⟨n, -, rfl⟩ := List.mem_map.1 ht
    trivial

theorem Over.finished {f : Front} (hf : Ready engine w f) {m : Run} (h : Over f time m) :
    (m.complete time).isFinished = true :=
  (hf.closable h).covers.finished

theorem Active.ahead_turn (hlimit : 0 < engine.limit) (h : Active engine w r) (ha : r.Ahead soon) (hle : soon ≤ now)
    (hb : r.isBusy = true) : (r.turn engine now).Ahead soon ∨ (r.turn engine now).isFinished = true := by
  cases hagenda : r.agenda with
  | cons id rest =>
    rw [turn_of_agenda hagenda]
    unfold Run.resume
    cases ht : r.task? id with
    | none => exact Or.inl (ha.congr rfl)
    | some t => exact Or.inl (Ahead.goOn (ha.congr rfl) hle (task?_mem ht))
  | nil =>
    have hf : r.tasks.any Task.isFinished = true := (h.isBusy_iff.1 hb).resolve_left fun hne => hne hagenda
    rw [turn_of_nil hagenda]
    rcases h.gather now hlimit hf with ⟨-, -, hc⟩ | ⟨m, hm, heq⟩
    · exact Or.inl (hc.ahead fun t ht => ha t (List.mem_of_mem_filter ht))
    · rw [heq]
      exact Or.inr (hm.finished h.ready_batch)

theorem Active.ahead_settle (hlimit : 0 < engine.limit) (steps : Nat) (h : Active engine w r) (ha : r.Ahead soon)
    (hle : soon ≤ now) :
    (Run.settle engine now steps r).Ahead soon ∨ (Run.settle engine now steps r).isFinished = true := by
  induction steps generalizing r with
  | zero => exact Or.inl ha
  | succ n ih =>
    rw [Run.settle]
    split_ifs with hb
    · rcases h.ahead_turn hlimit ha hle hb with ha' | hf
      · obtain ⟨-, ⟨hact, -⟩ | hf⟩ := h.turn now hlimit hb
        · exact ih hact ha'
        · rw [settle_of_finished hf]
          exact Or.inr hf
      · rw [settle_of_finished hf]
        exact Or.inr hf
    · exact Or.inl ha

theorem Unbegun.ahead_begin (now : Nat) (hlimit : 0 < engine.limit) (h : r.Unbegun) :
    (r.begin engine now).Ahead now ∨ (r.begin engine now).isFinished = true := by
  unfold Run.begin
  rcases h.launch now hlimit with ⟨hact, -, hc⟩ | ⟨m, hm, heq⟩
  · have hfirst : (firstFront r).run.Ahead now := fun t ht => by
      change t ∈ r.tasks at ht
      rw [h.tasks] at ht
      cases ht
    exact hact.ahead_settle hlimit (r.turns engine) (hc.ahead hfirst) (Nat.le_refl now)
  · have hready : Ready engine r.workflow (firstFront r) := h.ready_firstFront
    have hf : (r.launch engine now).isFinished = true := by
      rw [heq]
      exact hm.finished hready
    rw [settle_of_finished hf]
    exact Or.inr hf

/-- A run that has begun has done all that was due in its first instant. -/
theorem Unbegun.begin_paced (now : Nat) (hlimit : 0 < engine.limit) (h : r.Unbegun) :
    Paced engine (r.begin engine now) ∧ (r.begin engine now).Settled now := by
  constructor
  · obtain ⟨-, ⟨hc, hturns⟩ | hf⟩ := h.begin now hlimit
    · exact .calm hc hturns
    · exact .finished hf
  · rcases h.ahead_begin now hlimit with ha | hf
    · exact ha.settled
    · exact settled_of_finished now hf

end

end Run

end Flowgraph
