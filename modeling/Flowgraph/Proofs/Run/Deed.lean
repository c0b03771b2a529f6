import Flowgraph.Proofs.Run.Account

/-! What a task does to its entry and to the variables when it goes on, when an alarm rings for it, and when it is
cancelled. An end is written all at once, in the log and in the variables; a cancelled task only leaves, and its entry
goes on showing that it is running. -/

namespace Flowgraph

def Engine.Armed (engine : Engine) (n : Node) (act : Action) : Prop :=
  ∃ executor i, engine.executor? n = some executor ∧ i.node = n ∧ (executor.perform i).Acts act

def Phase.Armed (engine : Engine) (n : Node) : Phase → Prop
  | .working _ act _ _ => engine.Armed n act
  | _ => True

/-- What a task that carries on does to the variables: nothing, it is entered, or its executor acts. -/
def Task.Works (engine : Engine) (t : Task) (s s' : Scope) : Prop :=
  s' = s ∨ (∃ values, s' = s.enter t.node.id values) ∨
    ∃ act, (t.phase.Armed engine t.node → engine.Armed t.node act) ∧ s' = (act s).1

/-- What a task does to the variables and to its entry, and the phase that it comes to. -/
inductive Deed (engine : Engine) (time : Moment) (t : Task) (s : Scope) (e : NodeLog) (s' : Scope) (e' : NodeLog) :
    Phase → Prop
  | carriesOn {p : Phase} (hp : p.attempt?.isSome = true) (harmed : t.phase.Armed engine t.node → p.Armed engine t.node)
    (hs : t.Works engine s s') (he : e' = { e with inputs := e'.inputs, retries := e'.retries })
    (hinputs : t.phase.attempt?.isSome = true ∧ e'.inputs = e.inputs ∨ t.phase = .fresh ∧ e'.inputs.isSome = true) :
    Deed engine time t s e s' e' p
  | fails (hs : s' = s.exit t.node.id)
    (he : e' = { e with status := .failed, error := e'.error, inputs := e'.inputs, endTime := some time }) :
    Deed engine time t s e s' e' (.finished true)
  | succeeds (outputs : Fields) (hs : s' = (s.recordOutput t.node.id outputs).exit t.node.id)
    (he : e' = { e with status := .success, outputs := some outputs, endTime := some time }) :
    Deed engine time t s e s' e' (.finished false)
  | spoils (outputs : Fields) {f : Failure} (hf : engine.copyFault? (.object outputs) = some f)
    (hs : s' = (s.recordOutput t.node.id outputs).exit t.node.id)
    (he : e' = { e with status := .failed, error := some f.describe, endTime := some time }) :
    Deed engine time t s e s' e' (.finished true)
  | leaves (hp : t.phase.attempt?.isSome = true) (hs : s' = s.exit t.node.id)
    (he : e' = { e with endTime := some time }) : Deed engine time t s e s' e' .unwound
  | drops (hp : t.phase = .fresh) (hs : s' = s) (he : e' = e) : Deed engine time t s e s' e' .unwound

namespace Run

def Does (engine : Engine) (time : Moment) (t : Task) (r r' : Run) : Prop :=
  ∃ f g, Touched t.node.id f g r r' ∧ ∀ e, Deed engine time t r.scope e r'.scope (g e) (f t).phase

section
variable {engine : Engine} {now attempt : Nat} {time : Moment} {t : Task} {r r' : Run}
  {f : Task → Task} {g : NodeLog → NodeLog} {p : Phase}

/-- What the entry of a task that carries on shows of its inputs: those that it had, or, if it was fresh, some. -/
def Notes (t : Task) (g : NodeLog → NodeLog) : Prop :=
  (∀ e, g e = { e with inputs := (g e).inputs, retries := (g e).retries }) ∧
    ∀ e, t.phase.attempt?.isSome = true ∧ (g e).inputs = e.inputs ∨ t.phase = .fresh ∧ (g e).inputs.isSome = true

theorem notes_id (h : t.phase.attempt?.isSome = true) : Notes t fun e => e :=
  ⟨fun _ => rfl, fun _ => Or.inl ⟨h, rfl⟩⟩

theorem Touched.does (h : Touched t.node.id f g r r') (hp : (f t).phase.attempt?.isSome = true)
    (harmed : t.phase.Armed engine t.node → (f t).phase.Armed engine t.node) (hs : t.Works engine r.scope r'.scope)
    (hg : Notes t g) :
    Does engine time t r r' :=
  ⟨f, g, h, fun e => .carriesOn hp harmed hs (hg.1 e) (hg.2 e)⟩

theorem Touched.does_setPhase (h : Touched t.node.id f g r r') (hp : p.attempt?.isSome = true)
    (harmed : t.phase.Armed engine t.node → p.Armed engine t.node) (hs : t.Works engine r.scope r'.scope)
    (hg : Notes t g) :
    Does engine time t r (r'.setPhase t.node.id p) :=
  (h.trans (touched_setPhase p)).does hp harmed hs hg

theorem Touched.does_enqueue (h : Touched t.node.id f g r r') (hp : p.attempt?.isSome = true)
    (harmed : t.phase.Armed engine t.node → p.Armed engine t.node) (hs : t.Works engine r.scope r'.scope)
    (hg : Notes t g) :
    Does engine time t r ((r'.setPhase t.node.id p).enqueue t.node.id) :=
  ((h.trans (touched_setPhase p)).trans (touched_enqueue t.node.id)).does hp harmed hs hg

theorem Touched.does_failTask (h : Touched t.node.id f g r r') (failure : Failure) (hs : r'.scope = r.scope)
    (hg : ∀ e, g e = { e with inputs := (g e).inputs }) :
    Does engine time t r (r'.failTask t.node.id time failure) := by
  have hedit := h.trans
    (touched_editEntry (g := fun e => { e with status := .failed, error := some failure.describe }) fun _ => rfl)
  refine ⟨_, _, hedit.close time (.finished true), fun e => .fails (congrArg (Scope.exit · t.node.id) hs) ?_⟩
  dsimp only [Function.comp_apply]
  rw [hg e]

theorem does_succeedTask (outputs : Fields) :
    Does engine time t r (r.succeedTask engine t.node.id time outputs) := by
  have hrecord : Touched t.node.id (fun t => t) (fun e => e) r
      { r with scope := r.scope.recordOutput t.node.id outputs } := touched_scope _
  unfold succeedTask
  dsimp only
  split
  · next failure hf =>
    have hedit := hrecord.trans
      (touched_editEntry (g := fun e => { e with status := .failed, error := some failure.describe }) fun _ => rfl)
    exact ⟨_, _, hedit.close time (.finished true), fun e => .spoils outputs hf rfl rfl⟩
  · have hedit := hrecord.trans
      (touched_editEntry (g := fun e => { e with status := .success, outputs := some outputs }) fun _ => rfl)
    exact ⟨_, _, hedit.close time (.finished false), fun e => .succeeds outputs rfl rfl⟩

theorem does_leave (h : t.phase.attempt?.isSome = true) :
    Does engine time t r (r.close t.node.id time .unwound) :=
  ⟨_, _, (touched_refl _ r).close time .unwound, fun _ => .leaves h rfl rfl⟩

/-- What a task does to its entry and to the variables does not depend on the agenda. -/
theorem Does.of_agenda {agenda : List String} (h : Does engine time t { r with agenda } r') :
    Does engine time t r r' := by
  obtain ⟨f, g, ht, hdeed⟩ := h
  exact ⟨f, g, ht.of_agenda, hdeed⟩

/-! Each of the things that a task can do -/

theorem Touched.does_beginAttempt (h : Touched t.node.id f g r r') (attempt : Nat)
    (hs : t.Works engine r.scope r'.scope) (hg : Notes t g) :
    Does engine time t r (r'.beginAttempt engine now t.node attempt) := by
  have hedit := h.trans (touched_editEntry (g := fun e => { e with retries := attempt - 1 }) fun _ => rfl)
  have hnoted : Notes t ((fun e : NodeLog => { e with retries := attempt - 1 }) ∘ g) := by
    refine ⟨fun e => ?_, hg.2⟩
    dsimp only [Function.comp_apply]
    rw [hg.1 e]
  unfold beginAttempt
  dsimp only
  split_ifs
  · exact hedit.does_enqueue rfl (fun _ => trivial) hs hnoted
  · exact (hedit.trans (touched_setAlarm now _)).does_enqueue rfl (fun _ => trivial) hs hnoted

theorem does_resolveTask (hp : t.phase = .fresh) :
    Does engine (engine.moment now) t r (r.resolveTask engine now t) := by
  unfold resolveTask
  dsimp only
  split
  · exact (touched_refl _ r).does_failTask _ rfl fun _ => rfl
  · next inputs hfill =>
    have hedit : Touched t.node.id (fun t => t) (fun e => { e with inputs := some inputs }) r
        (r.editEntry t.node.id fun e => { e with inputs := some inputs }) :=
      touched_editEntry fun _ => rfl
    split
    · exact (touched_refl _ r).does_failTask _ rfl fun _ => rfl
    split
    · exact hedit.does_failTask _ rfl fun _ => rfl
    · exact (hedit.trans (touched_prepare t inputs)).does_beginAttempt 1 (Or.inr (Or.inl ⟨inputs, rfl⟩))
        ⟨fun _ => rfl, fun _ => Or.inr ⟨hp, rfl⟩⟩

theorem does_runAction {act : Action} (hp : t.phase.attempt?.isSome = true)
    (h : t.phase.Armed engine t.node → engine.Armed t.node act) :
    Does engine time t r (r.runAction t.node.id attempt act) :=
  (touched_scope (act r.scope).1).does_enqueue rfl (fun _ => trivial) (Or.inr (Or.inr ⟨act, h, rfl⟩)) (notes_id hp)

theorem does_callExecutor {limit : Alarm} (hp : t.phase = .calling attempt limit) :
    Does engine time t r (r.callExecutor engine now t attempt limit) := by
  have hattempt : t.phase.attempt?.isSome = true := by rw [hp]; rfl
  unfold callExecutor
  dsimp only
  split
  · exact (touched_refl _ r).does hattempt id (Or.inl rfl) (notes_id hattempt)
  · next executor hexecutor =>
    split
    · next act hnow => exact does_runAction hattempt fun _ => ⟨executor, _, hexecutor, rfl, Or.inl hnow⟩
    · next seconds act hafter =>
      have harmed : t.phase.Armed engine t.node → engine.Armed t.node act := fun _ =>
        ⟨executor, _, hexecutor, rfl, Or.inr ⟨seconds, hafter⟩⟩
      split
      · exact (touched_refl _ r).does_setPhase rfl harmed (Or.inl rfl) (notes_id hattempt)
      · next micros _ =>
        split_ifs
        · exact (touched_refl _ r).does_enqueue rfl harmed (Or.inl rfl) (notes_id hattempt)
        · exact (touched_setAlarm now micros.toNat).does_setPhase rfl harmed (Or.inl rfl) (notes_id hattempt)

theorem does_rest {delay : Number} (hp : t.phase.attempt?.isSome = true) :
    Does engine time t r (r.rest now t.node.id attempt delay) := by
  unfold rest
  split
  · exact (touched_refl _ r).does_setPhase rfl (fun _ => trivial) (Or.inl rfl) (notes_id hp)
  · next micros _ =>
    split_ifs
    · exact (touched_refl _ r).does_enqueue rfl (fun _ => trivial) (Or.inl rfl) (notes_id hp)
    · exact (touched_setAlarm now micros.toNat).does_setPhase rfl (fun _ => trivial) (Or.inl rfl) (notes_id hp)

theorem does_recordAttempt {result : Except Failure Value} (hp : t.phase.attempt?.isSome = true) :
    Does engine (engine.moment now) t r (r.recordAttempt engine now t attempt result) := by
  unfold recordAttempt
  dsimp only
  split
  · exact does_succeedTask _
  · split_ifs
    · exact does_leave hp
    · split
      · exact does_rest hp
      · exact (touched_refl _ r).does_failTask _ rfl fun _ => rfl
    · exact (touched_refl _ r).does_failTask _ rfl fun _ => rfl

/-- One step of a task that is not over. -/
theorem does_goOn (r : Run) (hover : t.phase.isOver = false) :
    Does engine (engine.moment now) t r (r.goOn engine now t) := by
  unfold goOn
  dsimp only
  split <;> rename_i hphase
  · exact does_resolveTask hphase
  · exact does_callExecutor hphase
  · exact does_runAction (by rw [hphase]; rfl) fun harmed => by rwa [hphase] at harmed
  · exact (touched_refl _ r).does_enqueue rfl (fun _ => trivial) (Or.inl rfl) (notes_id (by rw [hphase]; rfl))
  · exact does_recordAttempt (by rw [hphase]; rfl)
  · exact (touched_refl _ r).does_beginAttempt _ (Or.inl rfl) (notes_id (by rw [hphase]; rfl))
  · rw [hphase] at hover
    cases hover
  · rw [hphase] at hover
    cases hover

theorem Phase.Heeds.attempted {n : Node} {alarm : Alarm} (h : p.Heeds engine n alarm) : p.attempt?.isSome = true := by
  cases p with
  | calling => rfl
  | working => rfl
  | resting => rfl
  | _ => cases h

/-- An alarm changes nothing but the phase of its task. -/
theorem does_ring {alarm : Alarm} (h : t.phase.Heeds engine t.node alarm) :
    Does engine time t r (r.ring engine t alarm) := by
  have hp := Phase.Heeds.attempted h
  have hself : Does engine time t r r := (touched_refl _ r).does hp id (Or.inl rfl) (notes_id hp)
  unfold ring
  dsimp only
  split
  · split_ifs
    · exact (touched_refl _ r).does_setPhase rfl (fun _ => trivial) (Or.inl rfl) (notes_id hp)
    · exact hself
  · next hphase =>
    split_ifs
    · exact (touched_refl _ r).does_enqueue rfl (fun harmed => by rwa [hphase] at harmed) (Or.inl rfl) (notes_id hp)
    · exact (touched_refl _ r).does_enqueue rfl (fun _ => trivial) (Or.inl rfl) (notes_id hp)
    · exact hself
  · split_ifs
    · exact (touched_refl _ r).does_enqueue rfl (fun _ => trivial) (Or.inl rfl) (notes_id hp)
    · exact hself
  · exact hself

/-- A cancelled task leaves, if it had begun. -/
theorem does_unwind (hover : t.phase.isOver = false) : Does engine time t r (r.unwind time t) := by
  unfold unwind
  split
  · next hphase => exact ⟨_, _, touched_setPhase .unwound, fun _ => .drops hphase rfl rfl⟩
  · next hphase =>
    rw [hphase] at hover
    cases hover
  · next hphase =>
    rw [hphase] at hover
    cases hover
  · refine does_leave ?_
    cases hp : t.phase with
    | fresh => contradiction
    | finished failed =>
      rw [hp] at hover
      cases hover
    | unwound =>
      rw [hp] at hover
      cases hover
    | _ => rfl

end

end Run

end Flowgraph
