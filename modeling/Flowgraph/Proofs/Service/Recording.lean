import Flowgraph.Proofs.Session.Logging
import Flowgraph.Proofs.Table
import Flowgraph.Service

/-! Recording the logs of runs. In a store that finds no update locked the log of a run that has a record is
recorded, and no record gets lost over it. When the ends of background runs have been recorded there is none
left to record, so recording them again changes nothing. -/

namespace Flowgraph

namespace Store

/-- The log of a run can be recorded: the tables are there, no update is locked, and the run has a record. -/
structure Takes (s : Store) (id : String) : Prop where
  available : s.available = true
  unlocked : s.lockedUpdates = 0
  known : s.runs.contains id = true

section
variable {s s' : Store} {id : String} {log : ExecutionLog}

theorem require_bind_eq_ok {α : Type} {kind : Kind} {operation : Operation} {x : Except Fault α} {a : α} :
    (s.require kind operation >>= fun _ => x) = .ok a ↔ s.available = true ∧ x = .ok a := by
  unfold require
  by_cases h : s.available = true
  · simp [h, bind, Except.bind]
  · simp [h, bind, Except.bind]

/-- A workflow is created when there is none under its id. -/
theorem createWorkflow_eq_ok {w : Workflow} {userId : Option String} {now : Moment} {r : WorkflowRecord} :
    s.createWorkflow w userId now = .ok (s', r) ↔ s.available = true ∧ s.workflows.contains w.id = false ∧
      r = .make w userId now ∧ s' = { s with workflows := s.workflows.set w.id r } := by
  unfold createWorkflow
  rw [require_bind_eq_ok]
  cases s.workflows.contains w.id with
  | false =>
    simp only [Bool.false_eq_true, if_false, Except.ok.injEq, Prod.mk.injEq, true_and]
    grind
  | true => simp

/-- A workflow is replaced when there is one under its id. -/
theorem updateWorkflow_eq_ok {w : Workflow} {now : Moment} {r : WorkflowRecord} :
    s.updateWorkflow w now = .ok (s', r) ↔ s.available = true ∧ ∃ old, s.workflows.get? w.id = some old ∧
      r = old.replace w now ∧ s' = { s with workflows := s.workflows.set w.id r } := by
  unfold updateWorkflow
  rw [require_bind_eq_ok]
  cases s.workflows.get? w.id with
  | none => simp
  | some old =>
    simp only [Except.ok.injEq, Prod.mk.injEq, Option.some.injEq, exists_eq_left']
    grind

/-- What an update leaves behind: the records, with one of them replaced. -/
theorem updateRun_eq_ok {r : RunRecord} (h : s.updateRun log = .ok (s', r)) :
    s' = { s with runs := s.runs.set r.id r.kept } := by
  unfold updateRun at h
  obtain ⟨-, h⟩ := require_bind_eq_ok.1 h
  split at h
  · cases h
  · obtain ⟨rfl, rfl⟩ := Prod.mk.inj (Except.ok.inj h)
    rfl

/-- Unless an update is locked, recording a log leaves the store as it is or replaces a record of a run. -/
theorem recordRun_fst (h : s.lockedUpdates = 0) (log : ExecutionLog) :
    (s.recordRun log).1 = s ∨ ∃ id r, (s.recordRun log).1 = { s with runs := s.runs.set id r } := by
  unfold recordRun
  split
  · next n hlocked => cases h.symm.trans hlocked
  · split
    · next store r hupdate => exact .inr ⟨_, _, updateRun_eq_ok hupdate⟩
    · exact .inl rfl

theorem recordRun_unlocked (h : s.lockedUpdates = 0) (log : ExecutionLog) : (s.recordRun log).1.lockedUpdates = 0 := by
  rcases recordRun_fst h log with heq | ⟨_, _, heq⟩ <;> rw [heq] <;> exact h

theorem Takes.recordRun (h : s.Takes id) (log : ExecutionLog) : (s.recordRun log).1.Takes id := by
  rcases recordRun_fst h.unlocked log with heq | ⟨_, _, heq⟩ <;> rw [heq]
  · exact h
  · refine ⟨h.available, h.unlocked, ?_⟩
    rw [Table.contains_set, h.known, Bool.or_true]

theorem Takes.recordRun_ok (h : s.Takes id) (hid : log.executionId = id) : (s.recordRun log).2 = .ok () := by
  obtain ⟨old, hold⟩ := Option.isSome_iff_exists.1 h.known
  have hupdate : s.updateRun log =
      .ok ({ s with runs := s.runs.set (old.replace log).id (old.replace log).kept }, old.replace log) := by
    unfold updateRun Store.require
    rw [h.available, hid, hold]
    rfl
  unfold Store.recordRun
  rw [h.unlocked, hupdate]

end

end Store

namespace Service

def Recorded (s : Service) : Prop :=
  ∀ b ∈ s.background, s.ended? b = none

section
variable {s s' : Service}

/-- Whether runs have ended is a matter of the session. -/
theorem ended?_congr (h : s.session = s'.session) : s.ended? = s'.ended? := by
  funext b
  unfold ended?
  rw [h]

theorem Recorded.congr (h : s.Recorded) (hsession : s'.session = s.session)
    (hbackground : s'.background = s.background) : s'.Recorded := by
  intro b hb
  rw [ended?_congr hsession]
  exact h b (hbackground ▸ hb)

theorem recordBackground_store {P : Store → Prop} (hP : ∀ store log, P store → P (store.recordRun log).1)
    (h : P s.store) (b : Background × ExecutionLog) :
    ∃ store, s.recordBackground b = { s with store } ∧ P store := by
  unfold recordBackground recordRun
  dsimp only
  cases (s.store.recordRun b.2).2 with
  | ok u => exact ⟨_, rfl, hP _ _ h⟩
  | error f => exact ⟨_, rfl, hP _ _ (hP _ _ h)⟩

/-- Recording ends of runs changes the store by recording logs and forgets runs in the background; the rest
of the service stays. -/
theorem recordEnded_eq {P : Store → Prop} (hP : ∀ store log, P store → P (store.recordRun log).1) (h : P s.store) :
    ∃ store, P store ∧
      s.recordEnded = { s with store, background := s.background.filter fun b => (s.ended? b).isNone } := by
  unfold recordEnded
  extract_lets time ended forgetting
  refine List.foldlRecOn (motive := fun q => ∃ store, P store ∧
    q = { s with store, background := s.background.filter fun b => (s.ended? b).isNone }) ended recordBackground
    ⟨s.store, h, rfl⟩ ?_
  rintro q ⟨store, hstore, rfl⟩ b -
  obtain ⟨store', heq, hstore'⟩ := recordBackground_store (s := { s with store, background := _ }) hP hstore b
  exact ⟨store', hstore', heq⟩

theorem recordEnded_session (s : Service) : s.recordEnded.session = s.session := by
  obtain ⟨store, -, heq⟩ := recordEnded_eq (P := fun _ => True) (fun _ _ _ => trivial) trivial
  rw [heq]

theorem recorded_recordEnded (s : Service) : s.recordEnded.Recorded := by
  obtain ⟨store, -, heq⟩ := recordEnded_eq (P := fun _ => True) (fun _ _ _ => trivial) (s := s) trivial
  intro b hb
  rw [ended?_congr (recordEnded_session s)]
  rw [heq] at hb
  exact Option.isNone_iff_eq_none.1 (List.mem_filter.1 hb).2

theorem Recorded.recordEnded_eq (h : s.Recorded) : s.recordEnded = s := by
  have hkeep : (s.background.filter fun b => (s.ended? b).isNone) = s.background :=
    List.filter_eq_self.2 fun b hb => by simp [h b hb]
  have hnone : s.background.filterMap s.ended? = [] := List.filterMap_eq_nil_iff.2 h
  unfold recordEnded
  simp only [hkeep, hnone, List.mergeSort_nil, List.foldl_nil]

/-! Going on -/

theorem recordEnded_store {P : Store → Prop} (hP : ∀ store log, P store → P (store.recordRun log).1) (h : P s.store) :
    P s.recordEnded.store := by
  obtain ⟨store, hstore, heq⟩ := Service.recordEnded_eq hP h
  rw [heq]
  exact hstore

theorem recorded_advance (s : Service) (instant : Nat) : (s.advance instant).Recorded :=
  recorded_recordEnded _

theorem advance_session (s : Service) (instant : Nat) :
    (s.advance instant).session = s.session.advance (some instant) :=
  recordEnded_session _

theorem advance_takes {id : String} (h : s.store.Takes id) (instant : Nat) : (s.advance instant).store.Takes id :=
  recordEnded_store (P := fun store => store.Takes id) (fun _ log hstore => hstore.recordRun log) h

theorem recordEnded_unlocked (h : s.store.lockedUpdates = 0) : s.recordEnded.store.lockedUpdates = 0 :=
  recordEnded_store (P := fun store => store.lockedUpdates = 0)
    (fun _ log hstore => Store.recordRun_unlocked hstore log) h

theorem advance_unlocked (h : s.store.lockedUpdates = 0) (instant : Nat) :
    (s.advance instant).store.lockedUpdates = 0 :=
  recordEnded_unlocked (s := { s with session := s.session.advance (some instant) }) h

end

end Service

end Flowgraph
