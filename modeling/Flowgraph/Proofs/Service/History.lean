import Flowgraph.Capability.Builtin
import Flowgraph.Proofs.Service.Refusal

/-! Histories of requests. Nothing that a request asks for locks the store, so whatever requests a service has
met before and whatever was suggested to it, a request that is refused spares it, unless a workflow was
suggested for it with reasons that are no text. -/

namespace Flowgraph

namespace Service

/-- No update of a run will find the store locked, unless one would have before. -/
def StaysUnlocked (s s' : Service) : Prop :=
  s.store.lockedUpdates = 0 → s'.store.lockedUpdates = 0

instance : Lasting StaysUnlocked where
  of_spares := by
    rintro s _ ⟨count, rfl⟩ hunlocked
    exact hunlocked
  trans h h' hunlocked := h' (h hunlocked)

/-! Endpoints -/

theorem unlocked_createWorkflow (w : Workflow) (userId : Option String) :
    Keeps StaysUnlocked (createWorkflow w userId).run := by
  refine (keeps_change fun s store record h => ?_).then fun _ => keeps_run_pure _
  obtain ⟨-, -, -, rfl⟩ := Store.createWorkflow_eq_ok.1 h
  exact id

theorem unlocked_generate (suggester : Suggester) (r : GenerateRequest) :
    Keeps StaysUnlocked (generate suggester r).run := by
  refine (keeps_numbered _).then fun (w, reasons) => ?_
  refine (unlocked_createWorkflow w r.userId).then fun _ => ?_
  exact (keeps_orFail _).then fun _ => keeps_run_pure _

theorem unlocked_create (r : CreateRequest) : Keeps StaysUnlocked (create r).run := by
  refine (keeps_orFail _).then fun w => ?_
  exact (unlocked_createWorkflow w r.userId).then fun _ => keeps_run_pure _

theorem unlocked_finishEdit (w : Workflow) : Keeps StaysUnlocked (finishEdit w).run := by
  refine (keeps_orFail _).then fun w => ?_
  refine (keeps_change fun s store record h => ?_).then fun _ => keeps_run_pure _
  obtain ⟨-, _, -, -, rfl⟩ := Store.updateWorkflow_eq_ok.1 h
  exact id

theorem unlocked_edit (id : String) (r : EditRequest) : Keeps StaysUnlocked (edit id r).run := by
  refine (keeps_storedWorkflow id).then fun w => ?_
  split
  · exact (keeps_numbered _).then unlocked_finishEdit
  · refine keeps_run_get.then fun s => ?_
    split
    · exact keeps_run_pure _
    · exact (keeps_editBySuggestion _ w r _).then unlocked_finishEdit

theorem unlocked_startRun (id : String) (r : RunRequest) : Keeps StaysUnlocked (startRun id r).run := by
  refine (keeps_storedWorkflow id).then fun w => ?_
  refine (keeps_numbered _).then fun runId => ?_
  refine keeps_run_get.then fun s => ?_
  refine (keeps_change fun s store record h => ?_).then fun _ => ?_
  · obtain ⟨-, rfl⟩ := Store.createRun_eq_ok h
    exact fun hunlocked => hunlocked
  · exact fun s hunlocked => hunlocked

theorem unlocked_awaitRun (b : Background) : Keeps StaysUnlocked (awaitRun b).run := by
  -- what is set has been made out of what was got, so the step is not one of parts that keep the relation
  intro s hunlocked
  have hadvance : (s.advance (s.session.endOf b.position)).store.lockedUpdates = 0 := advance_unlocked hunlocked _
  unfold awaitRun
  rw [run_run_bind, run_get]
  dsimp only
  generalize s.advance (s.session.endOf b.position) = t at hadvance ⊢
  cases (t.memberAt? b.position).bind Session.Member.log? with
  | none => exact hadvance
  | some log =>
    have hrecord : (t.recordRun log).1.store.lockedUpdates = 0 := Store.recordRun_unlocked hadvance log
    have hanswer : Keeps StaysUnlocked (do
        let log ← orFault ((t.recordRun log).2.map fun _ => log)
        pure (Response.ofValue log.toWire) : Work Response).run :=
      (keeps_orFault _).then fun _ => keeps_run_pure _
    exact hanswer _ hrecord

theorem unlocked_run (id : String) (r : RunRequest) : Keeps StaysUnlocked (run id r) := by
  refine (unlocked_startRun id r).bind fun started => ?_
  cases started with
  | error e => exact fun s hunlocked => hunlocked
  | ok b =>
    dsimp only
    split_ifs
    · refine (unlocked_awaitRun b).bind fun ended => ?_
      cases ended <;> exact fun s hunlocked => hunlocked
    · exact fun s hunlocked => hunlocked

theorem unlocked_cancel (id : String) : Keeps StaysUnlocked (cancel id) := by
  intro s
  unfold cancel
  rw [run_get_step]
  dsimp only
  split_ifs
  · exact fun hunlocked => hunlocked
  · exact keeps_answering_consult _ _ s

theorem unlocked_meet (e : Endpoint) (request : Request) (body : Option Value) :
    Keeps StaysUnlocked (meet e request body) := by
  cases e with
  | generate =>
    refine keeps_get.bind fun s => ?_
    split
    · exact keeps_pure _
    · exact keeps_withBody fun r => keeps_answering (unlocked_generate _ r)
  | createWorkflow => exact keeps_withBody fun r => keeps_answering (unlocked_create r)
  | listWorkflows => exact keeps_answering_consult _ _
  | workflow id => exact keeps_answering_consult _ _
  | validate => exact keeps_withBody fun _ => keeps_pure _
  | edit id => exact keeps_withBody fun r => keeps_answering (unlocked_edit id r)
  | run id => exact keeps_withBody (unlocked_run id)
  | runsOf id => exact keeps_answering (keeps_runsOf id)
  | execution id => exact keeps_answering_consult _ _
  | cancel id => exact unlocked_cancel id
  | compile id => exact keeps_meet_compile id request body
  | capabilities => exact keeps_get.bind fun _ => keeps_pure _
  | root => exact keeps_pure _
  | health => exact keeps_pure _

/-! Histories -/

section
variable {s s₀ : Service}

theorem handle_unlocked (hunlocked : s.store.lockedUpdates = 0) (request : Request) :
    (s.handle request).1.store.lockedUpdates = 0 := by
  unfold handle
  split
  · exact hunlocked
  · exact hunlocked
  · exact hunlocked
  · split
    · exact hunlocked
    · exact recordEnded_unlocked (unlocked_meet _ request _ s hunlocked)

/-- What reaches a service: a request, the instant that it reaches it in, and who can be asked for suggestions
then. -/
structure Arrival where
  instant : Nat
  suggester : Option Suggester
  request : Request

def upTo (s : Service) (a : Arrival) : Service :=
  { s.advance a.instant with suggester := a.suggester }

def serve (s : Service) (arrivals : List Arrival) : Service :=
  arrivals.foldl (fun s a => ((s.upTo a).handle a.request).1) s

theorem upTo_unlocked (hunlocked : s.store.lockedUpdates = 0) (a : Arrival) : (s.upTo a).store.lockedUpdates = 0 :=
  advance_unlocked hunlocked a.instant

theorem serve_unlocked (hunlocked : s.store.lockedUpdates = 0) (arrivals : List Arrival) :
    (s.serve arrivals).store.lockedUpdates = 0 :=
  List.foldlRecOn (motive := fun s : Service => s.store.lockedUpdates = 0) arrivals _ hunlocked fun _ h a _ =>
    handle_unlocked (upTo_unlocked h a) a.request

theorem recorded_upTo (s : Service) (a : Arrival) : (s.upTo a).Recorded :=
  (recorded_advance s a.instant).congr rfl rfl

theorem make_unlocked {c : Configuration} {registry : Registry} {suggester : Option Suggester} {epoch : Moment}
    {manual : String} (h : make c registry suggester epoch manual = .ok s) : s.store.lockedUpdates = 0 := by
  unfold make at h
  simp only [bind, Except.bind] at h
  split at h
  · cases h
  · split at h
    · cases h
    · split at h <;> cases h
      rfl

end

/-! A workflow that is left behind -/

def lonely : Workflow where
  id := "w"
  name := "w"
  version := "1"
  nodes := [{ id := "a", type := .trigger, provider := "trigger", operation := "manual" }]

def numeric : Suggester where
  suggestWorkflow _ _ := .gave (.reasoned (.made lonely) (.int 5))
  suggestNode _ _ _ := .broke ""

def beginning : Except Failure Service :=
  make Configuration.trial Builtin.registry (some numeric) ⟨0, none⟩ ""

def asking : Arrival where
  instant := 1000000
  suggester := some numeric
  request :=
    { method := "POST", path := "/api/v1/workflows/generate", query := []
      body := .data (.object [("prompt", .text "x")]) }

def storing : Arrival where
  instant := 2000000
  suggester := some numeric
  request :=
    { method := "POST", path := "/api/v1/workflows", query := []
      body := .data (.object [("workflow", lonely.toWire)]) }

theorem beginning_eq_ok : ∃ s₀, beginning = .ok s₀ := by
  have hok : beginning.isOk = true := by decide +kernel
  cases h : beginning with
  | ok s₀ => exact ⟨s₀, rfl⟩
  | error f =>
    rw [h] at hok
    cases hok

/-- What holds of the service at its beginning, by evaluation. -/
theorem of_beginning {p : Service → Bool} (h : beginning.toOption.any p = true) {s₀ : Service}
    (hs₀ : beginning = .ok s₀) : p s₀ = true := by
  rw [hs₀] at h
  exact h

end Service

end Flowgraph
