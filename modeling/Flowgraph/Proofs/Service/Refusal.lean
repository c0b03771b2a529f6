import Flowgraph.Proofs.Numbering
import Flowgraph.Proofs.Service.Recording
import Flowgraph.Proofs.Service.Work

/-! Refused requests. Every endpoint looks things up and checks them first and changes the store last, and
behind the change there is nothing that can fail: what refuses a request has spared the service. Suggestions
are the one exception. A suggested workflow is stored before the reasons for it are looked at, and reasons that
are no text make the request fail with the workflow in the store. -/

namespace Flowgraph

namespace Store

variable {s s' : Store} {now : Moment}

theorem createWorkflow_of_new {w : Workflow} (havailable : s.available = true)
    (hnew : s.workflows.contains w.id = false) (userId : Option String) (now : Moment) :
    s.createWorkflow w userId now =
      .ok ({ s with workflows := s.workflows.set w.id (.make w userId now) }, .make w userId now) :=
  createWorkflow_eq_ok.2 ⟨havailable, hnew, rfl, rfl⟩

theorem createRun_eq_ok {log : ExecutionLog} {r : RunRecord} (h : s.createRun log now = .ok (s', r)) :
    s.available = true ∧ s' = { s with runs := s.runs.set log.executionId r.kept } := by
  unfold createRun at h
  obtain ⟨havailable, h⟩ := require_bind_eq_ok.1 h
  dsimp only at h
  split_ifs at h
  obtain ⟨rfl, rfl⟩ := Prod.mk.inj (Except.ok.inj h)
  exact ⟨havailable, rfl⟩

/-- A run that has been recorded as started can be recorded as ended. -/
theorem takes_of_createRun {log : ExecutionLog} {r : RunRecord} (hunlocked : s.lockedUpdates = 0)
    (h : s.createRun log now = .ok (s', r)) : s'.Takes log.executionId := by
  obtain ⟨havailable, rfl⟩ := createRun_eq_ok h
  refine ⟨havailable, hunlocked, ?_⟩
  rw [Table.contains_set, decide_eq_true rfl, Bool.true_or]

end Store

namespace Service

def Refused : Except Mishap Response → Prop
  | .ok r => r.isRefusal = true
  | .error _ => True

def Failed {α : Type} (r : Except Mishap α) : Prop :=
  r.isOk = false

section
variable {s : Service}

theorem answering_spares {doing : String} {work : Work Response}
    (h : Refused (work.run.run s).1 → s.Spares (work.run.run s).2)
    (hbad : ((answering doing work).run s).1.isRefusal = true) : s.Spares ((answering doing work).run s).2 := by
  rw [run_answering] at hbad ⊢
  refine h ?_
  cases hr : (work.run.run s).1 with
  | ok r =>
    rw [hr] at hbad
    exact hbad
  | error e => trivial

theorem sparesIf_answering {doing : String} {work : Work Response} (h : SparesIf Refused work.run) :
    SparesIf (fun r => r.isRefusal = true) (answering doing work) :=
  fun s => answering_spares (h s)

theorem sparesIf_withBody {α : Type} {bad : Response → Prop} {body : Option Value} {read : Option Value → Reading α}
    {go : α → StateM Service Response} (h : ∀ a, SparesIf bad (go a)) : SparesIf bad (withBody body read go) := by
  unfold withBody
  cases read body with
  | accepted a => exact h a
  | rejected issues => exact (keeps_pure _).sparesIf bad

/-! Endpoints whose refusals spare the service -/

theorem sparesIf_create (r : CreateRequest) : SparesIf Refused (create r).run := by
  unfold create createWorkflow
  refine SparesIf.then (keeps_orFail _) fun w => ?_
  rw [bind_assoc]
  exact sparesIf_change_then fun _ _ => Bool.false_ne_true

theorem sparesIf_finishEdit (w : Workflow) : SparesIf Refused (finishEdit w).run := by
  unfold finishEdit
  refine SparesIf.then (keeps_orFail _) fun w => ?_
  exact sparesIf_change_then fun _ _ => Bool.false_ne_true

section
variable {R : Service → Service → Prop} [Lasting R]

theorem keeps_editBySuggestion (suggester : Suggester) (w : Workflow) (r : EditRequest) (instruction : String) :
    Keeps R (editBySuggestion suggester w r instruction).run := by
  unfold editBySuggestion
  split <;> exact keeps_numbered _

theorem keeps_runsOf (id : String) : Keeps R (runsOf id).run :=
  (keeps_consult _).then fun _ => (keeps_consult _).then fun _ => keeps_run_pure _

theorem keeps_compileFor (id : String) (target : CompileTarget) : Keeps R (compileFor id target).run := by
  unfold compileFor
  refine (keeps_storedWorkflow id).then fun w => ?_
  refine keeps_run_get.then fun s => ?_
  refine (keeps_orFault _).then fun _ => ?_
  refine (keeps_orFail _).then fun emitted => ?_
  split_ifs <;> exact keeps_run_pure _

/-- A program or a document for another tool is made without a change to the service. -/
theorem keeps_meet_compile (id : String) (request : Request) (body : Option Value) :
    Keeps R (meet (.compile id) request body) := by
  refine keeps_withBody fun r => ?_
  split
  · exact keeps_pure _
  · exact keeps_answering (keeps_compileFor id _)

end

theorem sparesIf_edit (id : String) (r : EditRequest) : SparesIf Refused (edit id r).run := by
  unfold edit
  refine SparesIf.then (keeps_storedWorkflow id) fun w => ?_
  split
  · exact SparesIf.then (keeps_numbered _) sparesIf_finishEdit
  · refine SparesIf.then keeps_run_get fun s => ?_
    split
    · exact (keeps_run_pure _).sparesIf _
    · exact SparesIf.then (keeps_editBySuggestion _ w r _) sparesIf_finishEdit

theorem sparesIf_cancel (id : String) : SparesIf (fun r => r.isRefusal = true) (cancel id) := by
  unfold cancel
  refine SparesIf.bind keeps_get fun s => ?_
  dsimp only
  split_ifs
  · exact fun _ hbad => absurd hbad Bool.false_ne_true
  · exact (keeps_answering_consult _ _).sparesIf _

/-! Runs -/

theorem sparesIf_startRun (id : String) (r : RunRequest) : SparesIf Failed (startRun id r).run := by
  unfold startRun
  refine SparesIf.then (keeps_storedWorkflow id) fun w => ?_
  refine SparesIf.then (keeps_numbered _) fun runId => ?_
  refine SparesIf.then keeps_run_get fun s => ?_
  exact sparesIf_change_then fun _ _ hfailed => Bool.noConfusion hfailed

/-- A run that has been started has a record, and is logged where it stands in the session. -/
theorem startRun_eq_ok {id : String} {r : RunRequest} {b : Background} {s' : Service}
    (hunlocked : s.store.lockedUpdates = 0) (h : (startRun id r).run.run s = (.ok b, s')) :
    ∃ runId, s'.store.Takes runId ∧ ∃ m, s'.session.members[b.position]? = some m ∧ m.LoggedAs runId := by
  unfold startRun at h
  obtain ⟨w, t, hw, h⟩ := run_run_bind_eq_ok.1 h
  obtain ⟨runId, t', hid, h⟩ := run_run_bind_eq_ok.1 h
  obtain ⟨_, _, hget, h⟩ := run_run_bind_eq_ok.1 h
  cases hget
  obtain ⟨record, t'', hchange, h⟩ := run_run_bind_eq_ok.1 h
  obtain ⟨store, hcreate, rfl⟩ := run_change_eq_ok hchange
  -- up to here nothing has been changed that the record of the run could depend on
  have hspares : s.Spares t' := by
    have hfound : s.Spares ((storedWorkflow id).run.run s).2 := keeps_storedWorkflow id s
    have hnumbered : t.Spares ((numbered Numbering.fullId).run.run t).2 := keeps_numbered Numbering.fullId t
    rw [hw] at hfound
    rw [hid] at hnumbered
    exact hfound.trans hnumbered
  have hunlocked' : t'.store.lockedUpdates = 0 := by
    obtain ⟨count, rfl⟩ := hspares
    exact hunlocked
  cases h
  exact ⟨runId, Store.takes_of_createRun hunlocked' hcreate,
    Session.launch_getElem? t'.session runId w r.inputs r.secrets⟩

/-- The end of a run is awaited and recorded, and its log is the response. -/
theorem awaitRun_answers {b : Background} {runId : String} (htakes : s.store.Takes runId)
    (hlogged : ∃ m, s.session.members[b.position]? = some m ∧ m.LoggedAs runId) :
    ∃ log, ((awaitRun b).run.run s).1 = .ok (.ofValue log) := by
  generalize hthen : s.advance (s.session.endOf b.position) = t
  obtain ⟨m, hm, log, hlog, hid⟩ := Session.advance_getElem? hlogged (some (s.session.endOf b.position))
  have hmember : (t.memberAt? b.position).bind Session.Member.log? = some log := by
    rw [← hthen]
    unfold memberAt?
    rw [advance_session, hm]
    exact hlog
  have hrecord : (t.store.recordRun log).2 = .ok () := by
    rw [← hthen]
    exact (advance_takes htakes _).recordRun_ok hid
  refine ⟨log.toWire, ?_⟩
  unfold awaitRun
  rw [run_run_bind, run_get]
  simp only [hthen, hmember, recordRun, hrecord]
  rfl

/-- What has been started is answered for, so only a run that is not started is refused. -/
theorem run_spares (id : String) (r : RunRequest) (hunlocked : s.store.lockedUpdates = 0)
    (hbad : ((run id r).run s).1.isRefusal = true) : s.Spares ((run id r).run s).2 := by
  have hfailed := sparesIf_startRun id r s
  unfold run at hbad ⊢
  rw [run_step] at hbad ⊢
  rcases hstart : (startRun id r).run.run s with ⟨_ | b, t⟩
  · rw [hstart] at hfailed
    exact hfailed rfl
  · obtain ⟨runId, htakes, hlogged⟩ := startRun_eq_ok hunlocked hstart
    obtain ⟨log, hanswer⟩ := awaitRun_answers htakes hlogged
    rw [hstart] at hbad
    dsimp only at hbad
    -- the response is the log of the run, or at once its id
    split_ifs at hbad
    · rw [run_step, hanswer] at hbad
      exact absurd hbad Bool.false_ne_true
    · exact absurd hbad Bool.false_ne_true

/-! Suggested workflows -/

/-- A workflow is suggested that can be stored, and the reasons for it are no text. -/
def Unexplained (s : Service) (suggester : Suggester) (r : GenerateRequest) : Prop :=
  ∃ w reasons count,
    (suggester.generate r.prompt (Value.ofOption Value.object r.context)).Gives s.count (w, reasons) count ∧
    s.store.available = true ∧ s.store.workflows.contains w.id = false ∧ reasons.text? = none

/-- What a suggestion leads to: it is refused, it is refused though it has been stored, or it is stored. -/
theorem run_generate (suggester : Suggester) (r : GenerateRequest) (s : Service) :
    (generate suggester r).run.run s =
      match (suggester.generate r.prompt (Value.ofOption Value.object r.context)).run s.count with
      | (.error e, count) => (.error e, { s with count })
      | (.ok (w, reasons), count) =>
        match s.store.createWorkflow w r.userId s.now with
        | .error fault => (.error (.fault fault), { s with count })
        | .ok (store, _) =>
          (do
            let reasons ← reasoning reasons
            let warnings := w.validate.warnings.map Finding.text
            pure <| .created <| .object
              [("workflow", w.toWire), ("reasoning", .text reasons), ("warnings", .ofTexts warnings)],
           { s with store, count }) := by
  unfold generate createWorkflow
  rw [run_run_bind, run_numbered]
  rcases (suggester.generate r.prompt (Value.ofOption Value.object r.context)).run s.count
    with ⟨_ | ⟨w, reasons⟩, count⟩
  · rfl
  · dsimp only
    rw [bind_assoc, run_run_bind, run_change]
    dsimp only [now]
    cases s.store.createWorkflow w r.userId s.session.time with
    | error fault => rfl
    | ok p => cases reasons <;> rfl

theorem reasoning_of_text {reasons : Value} {t : String} (h : reasons.text? = some t) : reasoning reasons = .ok t := by
  cases reasons <;> cases h
  rfl

theorem reasoning_of_no_text {reasons : Value} (h : reasons.text? = none) : ∃ e, reasoning reasons = .error e := by
  cases reasons with
  | text t => cases h
  | _ => exact ⟨_, rfl⟩

/-- Only a suggested workflow whose reasons are no text is stored by a request that is refused. -/
theorem generate_spares {suggester : Suggester} {r : GenerateRequest} (hexplained : ¬ s.Unexplained suggester r)
    (hbad : Refused ((generate suggester r).run.run s).1) : s.Spares ((generate suggester r).run.run s).2 := by
  rw [run_generate] at hbad ⊢
  rcases hgives : (suggester.generate r.prompt (Value.ofOption Value.object r.context)).run s.count
    with ⟨_ | ⟨w, reasons⟩, count⟩
  · exact ⟨count, rfl⟩
  · rw [hgives] at hbad
    dsimp only at hbad ⊢
    cases hcreate : s.store.createWorkflow w r.userId s.now with
    | error fault => exact ⟨count, rfl⟩
    | ok p =>
      obtain ⟨havailable, hnew, -⟩ := Store.createWorkflow_eq_ok.1 hcreate
      cases htext : reasons.text? with
      | none => exact absurd ⟨w, reasons, count, hgives, havailable, hnew, htext⟩ hexplained
      | some t =>
        rw [hcreate, reasoning_of_text htext] at hbad
        exact absurd hbad Bool.false_ne_true

/-- A suggested workflow is in the store when its reasons turn out to be no text. -/
theorem generate_of_unexplained {suggester : Suggester} {r : GenerateRequest} (h : s.Unexplained suggester r) :
    ∃ (e : Mishap) (w : Workflow) (store : Store) (count : Nat),
      (generate suggester r).run.run s = (.error e, { s with store, count }) ∧
      s.store.workflows.contains w.id = false ∧ store.workflows.contains w.id = true := by
  obtain ⟨w, reasons, count, hgives, havailable, hnew, htext⟩ := h
  obtain ⟨e, he⟩ := reasoning_of_no_text htext
  refine ⟨e, w, { s.store with workflows := s.store.workflows.set w.id (.make w r.userId s.now) }, count, ?_,
    hnew, ?_⟩
  · rw [run_generate, Numbered.gives_iff.1 hgives]
    dsimp only
    rw [Store.createWorkflow_of_new havailable hnew, he]
    rfl
  · rw [Table.contains_set, decide_eq_true rfl, Bool.true_or]

/-! Requests -/

/-- Of a request at any other endpoint a refusal spares the service. -/
theorem meet_spares (e : Endpoint) (request : Request) (body : Option Value) (he : e ≠ .generate)
    (hunlocked : s.store.lockedUpdates = 0) (hbad : ((meet e request body).run s).1.isRefusal = true) :
    s.Spares ((meet e request body).run s).2 := by
  have hspares {x : StateM Service Response} (h : SparesIf (fun r => r.isRefusal = true) x)
      (hx : (x.run s).1.isRefusal = true) : s.Spares (x.run s).2 := h s hx
  cases e with
  | generate => exact absurd rfl he
  | createWorkflow => exact hspares (sparesIf_withBody fun r => sparesIf_answering (sparesIf_create r)) hbad
  | listWorkflows => exact keeps_answering_consult _ _ s
  | workflow id => exact keeps_answering_consult _ _ s
  | validate => exact keeps_withBody (fun _ => keeps_pure _) s
  | edit id => exact hspares (sparesIf_withBody fun r => sparesIf_answering (sparesIf_edit id r)) hbad
  | run id =>
    unfold meet withBody at hbad ⊢
    cases hread : Payload.record Payload.run body with
    | rejected issues => exact .refl s
    | accepted r =>
      rw [hread] at hbad
      exact run_spares id r hunlocked hbad
  | runsOf id => exact keeps_answering (keeps_runsOf id) s
  | execution id => exact keeps_answering_consult _ _ s
  | cancel id => exact hspares (sparesIf_cancel id) hbad
  | compile id => exact keeps_meet_compile id request body s
  | capabilities => exact Keeps.bind keeps_get (fun _ => keeps_pure _) s
  | root => exact keeps_pure _ s
  | health => exact keeps_pure _ s

/-- The request asks for a suggested workflow that can be stored and whose reasons are no text. -/
def Stumbles (s : Service) (request : Request) : Prop :=
  Endpoint.find request.method request.path = .found .generate ∧
    ∃ suggester body r, s.suggester = some suggester ∧ request.body.value? = .ok body ∧
      Payload.record Payload.generate body = .accepted r ∧ s.Unexplained suggester r

theorem run_meet_generate (request : Request) (body : Option Value) (s : Service) :
    (meet .generate request body).run s =
      match s.suggester, Payload.record Payload.generate body with
      | none, _ => (noSuggester, s)
      | some _, .rejected issues => (Response.notUnderstood issues, s)
      | some suggester, .accepted r => (answering "generating the workflow" (generate suggester r)).run s := by
  unfold meet
  rw [run_get_step]
  cases s.suggester with
  | none => rfl
  | some suggester =>
    unfold withBody
    cases Payload.record Payload.generate body <;> rfl

theorem handle_of_found {request : Request} {e : Endpoint} {body : Option Value}
    (hfind : Endpoint.find request.method request.path = .found e)
    (hbody : (if readsBody e then request.body.value? else .ok none) = .ok body) :
    s.handle request = (((meet e request body).run s).2.recordEnded, ((meet e request body).run s).1) := by
  unfold handle
  rw [hfind]
  dsimp only
  rw [hbody]
  rfl

/-- A refused request spares the service, unless it stumbles. -/
theorem handle_spares {request : Request} (hunlocked : s.store.lockedUpdates = 0) (hrecorded : s.Recorded)
    (hstumbles : ¬ s.Stumbles request) (hbad : (s.handle request).2.isRefusal = true) :
    s.Spares (s.handle request).1 := by
  cases hfind : Endpoint.find request.method request.path with
  | nowhere => simpa only [handle, hfind] using Spares.refl s
  | wrongMethod => simpa only [handle, hfind] using Spares.refl s
  | elsewhere => simpa only [handle, hfind] using Spares.refl s
  | found e =>
    cases hbody : (if readsBody e then request.body.value? else .ok none) with
    | error fault => simpa only [handle, hfind, hbody] using Spares.refl s
    | ok body =>
      rw [handle_of_found hfind hbody] at hbad ⊢
      have hspares : s.Spares ((meet e request body).run s).2 := by
        by_cases he : e = .generate
        · subst he
          rw [run_meet_generate] at hbad ⊢
          split at hbad
          · exact .refl s
          · exact .refl s
          · next suggester r hsuggester hread =>
            have hexplained : ¬ s.Unexplained suggester r := fun h =>
              hstumbles ⟨hfind, suggester, body, r, hsuggester, hbody, hread, h⟩
            exact answering_spares (generate_spares hexplained) hbad
        · exact meet_spares e request body he hunlocked hbad
      -- with the session as it was there is still no end of a run to be recorded
      obtain ⟨count, hcount⟩ := hspares
      have hstill : ({ s with count } : Service).Recorded := hrecorded.congr rfl rfl
      rw [hcount, hstill.recordEnded_eq]
      exact ⟨count, rfl⟩

/-- A request that stumbles leaves a further workflow in the store. -/
theorem handle_of_stumbles {request : Request} (hrecorded : s.Recorded) (h : s.Stumbles request) :
    ∃ (w : Workflow) (store : Store) (count : Nat), (s.handle request).1 = { s with store, count } ∧
      s.store.workflows.contains w.id = false ∧ store.workflows.contains w.id = true := by
  obtain ⟨hfind, suggester, body, r, hsuggester, hbody, hread, hunexplained⟩ := h
  obtain ⟨e, w, store, count, hrun, hnew, hstored⟩ := generate_of_unexplained hunexplained
  refine ⟨w, store, count, ?_, hnew, hstored⟩
  have hrest : ({ s with store, count } : Service).Recorded := hrecorded.congr rfl rfl
  have hmeet : (meet .generate request body).run s =
      (answering "generating the workflow" (generate suggester r)).run s := by
    rw [run_meet_generate, hsuggester, hread]
  rw [handle_of_found hfind hbody, hmeet, run_answering, hrun]
  exact hrest.recordEnded_eq

end

end Service

end Flowgraph
