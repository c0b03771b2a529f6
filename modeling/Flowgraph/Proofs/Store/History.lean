import Flowgraph.Proofs.Service.Recording
import Flowgraph.Proofs.Wire.RoundTrip

/-! A store after calls that create and update workflows. What it keeps under an id is told by the calls for
that id that succeeded: the first created the record and says whose it is, the last one's workflow is kept as
its payload. So a workflow is given back, and it is that one if and only if its free-form numbers are finite and
its coordinates are definite. -/

namespace Flowgraph

/-- A call that stores a workflow. -/
inductive Storing where
  | create (w : Workflow) (userId : Option String)
  | update (w : Workflow)

namespace Storing

def workflow : Storing → Workflow
  | create w _ => w
  | update w => w

def id (c : Storing) : String :=
  c.workflow.id

def under (id : String) (calls : List Storing) : List Storing :=
  calls.filter fun c => c.id = id

theorem under_append (id : String) (calls : List Storing) (c : Storing) :
    under id (calls ++ [c]) = if id = c.id then under id calls ++ [c] else under id calls := by
  unfold under
  rw [List.filter_append]
  by_cases h : id = c.id
  · simp [h]
  · simp [h, Ne.symm h]

end Storing

namespace Store

variable {s s' : Store} {w : Workflow} {userId : Option String} {now : Moment} {r : WorkflowRecord} {id : String}
  {c : Storing} {done : List Storing}

def store (s : Store) (c : Storing) (now : Moment) : Except Fault (Store × WorkflowRecord) :=
  match c with
  | .create w userId => s.createWorkflow w userId now
  | .update w => s.updateWorkflow w now

/-- The store after some calls, and those of them that succeeded. -/
def perform : Store → List (Storing × Moment) → Store × List Storing
  | s, [] => (s, [])
  | s, (c, now) :: rest =>
    match s.store c now with
    | .ok (s', _) => ((perform s' rest).1, c :: (perform s' rest).2)
    | .error _ => perform s rest

theorem workflowRecord_eq_ok :
    s.workflowRecord id = .ok r ↔ s.available = true ∧ s.workflows.get? id = some r := by
  unfold workflowRecord
  rw [require_bind_eq_ok]
  cases s.workflows.get? id <;> simp

/-- A record that some calls for its id left behind. -/
structure LeftBy (calls : List Storing) (r : WorkflowRecord) : Prop where
  first : ∃ w, calls.head? = some (.create w r.userId)
  last : ∃ c, calls.getLast? = some c ∧ r.workflow = c.workflow.toWire

/-- What the calls that succeeded tell about a store. -/
structure Follows (s : Store) (done : List Storing) : Prop where
  available : s.available = true
  absent : ∀ id, s.workflows.get? id = none → Storing.under id done = []
  present : ∀ id r, s.workflows.get? id = some r → LeftBy (Storing.under id done) r

theorem follows_nil : Follows {} [] :=
  ⟨rfl, fun _ _ => rfl, fun _ _ h => nomatch h⟩

/-- A call that succeeds writes a record of its workflow: a new one, or a replacement for the one that was there. -/
theorem store_eq_ok (h : s.store c now = .ok (s', r)) :
    s' = { s with workflows := s.workflows.set c.id r } ∧ r.workflow = c.workflow.toWire ∧
      (s.workflows.get? c.id = none ∧ (∃ w, c = .create w r.userId) ∨
        ∃ old, s.workflows.get? c.id = some old ∧ r.userId = old.userId) := by
  cases c with
  | create w userId =>
    obtain ⟨-, hnew, rfl, hs⟩ := createWorkflow_eq_ok.1 h
    exact ⟨hs, rfl, .inl ⟨Option.not_isSome_iff_eq_none.1 (Bool.eq_false_iff.1 hnew), w, rfl⟩⟩
  | update w =>
    obtain ⟨-, old, hold, rfl, hs⟩ := updateWorkflow_eq_ok.1 h
    exact ⟨hs, rfl, .inr ⟨old, hold, rfl⟩⟩

theorem Follows.store (h : s.Follows done) (hc : s.store c now = .ok (s', r)) : s'.Follows (done ++ [c]) := by
  obtain ⟨rfl, hwire, hbefore⟩ := store_eq_ok hc
  have hlast : (Storing.under c.id done ++ [c]).getLast? = some c := List.getLast?_concat
  have hfirst : ∃ w, (Storing.under c.id done ++ [c]).head? = some (.create w r.userId) := by
    rcases hbefore with ⟨hnone, w, hw⟩ | ⟨old, hold, huser⟩
    · exact ⟨w, by rw [h.absent _ hnone, List.nil_append, List.head?_cons, hw]⟩
    · obtain ⟨w, hw⟩ := (h.present _ _ hold).first
      exact ⟨w, by rw [List.head?_append, hw, huser, Option.some_or]⟩
  refine ⟨h.available, fun id hid => ?_, fun id r' hid => ?_⟩
  · rw [Table.get?_set] at hid
    rw [Storing.under_append]
    split_ifs at hid ⊢
    exact h.absent id hid
  · rw [Table.get?_set] at hid
    rw [Storing.under_append]
    split_ifs at hid ⊢ with hsame
    · obtain rfl := Option.some.inj hid
      exact hsame ▸ ⟨hfirst, c, hlast, hwire⟩
    · exact h.present id r' hid

theorem Follows.perform (h : s.Follows done) (calls : List (Storing × Moment)) :
    (s.perform calls).1.Follows (done ++ (s.perform calls).2) := by
  induction calls generalizing s done with
  | nil => rwa [perform, List.append_nil]
  | cons call rest ih =>
    obtain ⟨c, now⟩ := call
    unfold Store.perform
    split
    · next s' r hc =>
      have := ih (h.store hc)
      rwa [List.append_assoc] at this
    · exact ih h

theorem mem_perform {calls : List (Storing × Moment)} (h : c ∈ (s.perform calls).2) : ∃ call ∈ calls, call.1 = c := by
  induction calls generalizing s with
  | nil => cases h
  | cons call rest ih =>
    unfold perform at h
    split at h
    · obtain rfl | h := List.mem_cons.1 h
      · exact ⟨call, List.mem_cons_self .., rfl⟩
      · obtain ⟨call', hmem, rfl⟩ := ih h
        exact ⟨call', List.mem_cons_of_mem _ hmem, rfl⟩
    · obtain ⟨call', hmem, rfl⟩ := ih h
      exact ⟨call', List.mem_cons_of_mem _ hmem, rfl⟩

theorem workflow_eq_ok {v : Workflow} :
    s.workflow id = .ok v ↔ ∃ r, s.workflowRecord id = .ok r ∧ Workflow.ofValue r.workflow = .accepted v := by
  unfold workflow
  cases s.workflowRecord id with
  | error f => simp
  | ok r =>
    simp only [Except.ok.injEq, exists_eq_left']
    cases Workflow.ofValue r.workflow <;> simp [Mishap.ofReading]

theorem Follows.under_eq_nil (h : s.Follows done) : Storing.under id done = [] ↔ s.workflows.get? id = none := by
  refine ⟨fun hnil => ?_, h.absent id⟩
  rw [Option.eq_none_iff_forall_ne_some]
  intro r hr
  obtain ⟨w, hw⟩ := (h.present id r hr).first
  rw [hnil] at hw
  cases hw

/-- Creating succeeds only as the first of the calls for an id, updating only after it. -/
theorem Follows.succeeds_iff (h : s.Follows done) :
    (∃ p, s.store c now = .ok p) ↔ ((∃ w userId, c = .create w userId) ↔ Storing.under c.id done = []) := by
  rw [h.under_eq_nil]
  cases c with
  | create w userId =>
    change (∃ p, s.createWorkflow w userId now = .ok p) ↔ (_ ↔ s.workflows.get? w.id = none)
    simp [createWorkflow_eq_ok, h.available, Table.contains]
  | update w =>
    change (∃ p, s.updateWorkflow w now = .ok p) ↔ (_ ↔ s.workflows.get? w.id = none)
    simp [updateWorkflow_eq_ok, h.available, Option.ne_none_iff_exists']

/-- After any calls on an empty store, those for an id that succeeded tell what is found under it: nothing if
there are none; otherwise a record of the user that the first one names, and a workflow, which is the one of the
last call if and only if that survives being written. -/
theorem workflow_perform {calls : List (Storing × Moment)}
    (hread : ∀ call ∈ calls, ∃ v, Workflow.ofValue v = .accepted call.1.workflow) (id : String) :
    let s := (perform {} calls).1
    let done := Storing.under id (perform {} calls).2
    (done = [] → s.workflow id = .error (.fault (notFound .workflows .get id))) ∧
      ∀ c, done.getLast? = some c →
        (∃ w userId r, done.head? = some (.create w userId) ∧ s.workflowRecord id = .ok r ∧ r.userId = userId) ∧
          ∃ v, s.workflow id = .ok v ∧ (c.workflow.Same v ↔ c.workflow.isLasting = true) := by
  intro s done
  have hfollows : s.Follows ([] ++ (perform {} calls).2) := follows_nil.perform calls
  rw [List.nil_append] at hfollows
  constructor
  · intro hnil
    have hnone := hfollows.under_eq_nil.1 hnil
    simp [workflow, workflowRecord, require, hfollows.available, hnone, bind, Except.bind]
  · intro c hlast
    have hpresent : s.workflows.get? id ≠ none := by
      rw [Ne, ← hfollows.under_eq_nil]
      rintro hnil
      rw [show done = [] from hnil] at hlast
      cases hlast
    obtain ⟨r, hr⟩ := Option.ne_none_iff_exists'.1 hpresent
    have hrecord := workflowRecord_eq_ok.2 ⟨hfollows.available, hr⟩
    obtain ⟨⟨w, hfirst⟩, c', hlast', hwire⟩ := hfollows.present id r hr
    obtain rfl := Option.some.inj (hlast.symm.trans hlast')
    refine ⟨⟨w, r.userId, r, hfirst, hrecord, rfl⟩, ?_⟩
    obtain ⟨call, hcall, rfl⟩ := mem_perform (List.mem_of_mem_filter (List.mem_of_getLast? hlast))
    obtain ⟨v, hv⟩ := hread call hcall
    have hnormal := Workflow.normal_of_read hv
    refine ⟨call.1.workflow.written, workflow_eq_ok.2 ⟨r, hrecord, ?_⟩, Workflow.same_written hnormal⟩
    rw [hwire]
    exact Workflow.ofValue_toWire hnormal

def replacing (w w' : Workflow) : List (Storing × Moment) :=
  [(.create w (some "u"), default), (.create w' none, default), (.update w', default)]

theorem workflow_perform_replacing :
    ∃ w w', (Workflow.ofValue (twoTriggers "a" "b") = .accepted w ∧
        Workflow.ofValue (twoTriggers "c" "d") = .accepted w') ∧
      ∃ v r, (perform {} (replacing w w')).1.workflow "w" = .ok v ∧ w'.Same v ∧
        (perform {} (replacing w w')).1.workflowRecord "w" = .ok r ∧ r.userId = some "u" := by
  obtain ⟨w, hw, hid⟩ : ∃ w, Workflow.ofValue (twoTriggers "a" "b") = .accepted w ∧ w.id = "w" :=
    value?_eq_some (by decide +kernel)
  obtain ⟨w', hw', hrest⟩ : ∃ w, Workflow.ofValue (twoTriggers "c" "d") = .accepted w ∧
      (w.id, w.isLasting) = ("w", true) := value?_eq_some (by decide +kernel)
  obtain ⟨hid', hlasting⟩ := Prod.mk.inj hrest
  have hdone : Storing.under "w" (perform {} (replacing w w')).2 = [.create w (some "u"), .update w'] := by
    simp [replacing, perform, store, createWorkflow, updateWorkflow, require, Table.contains, Table.get?_set,
      Table.get?_nil, hid, hid', bind, Except.bind, Storing.under, Storing.id, Storing.workflow]
  have hread : ∀ call ∈ replacing w w', ∃ v, Workflow.ofValue v = .accepted call.1.workflow := by
    simpa [replacing, Storing.workflow] using ⟨⟨_, hw⟩, ⟨_, hw'⟩⟩
  obtain ⟨-, hkept⟩ := workflow_perform hread "w"
  rw [hdone] at hkept
  obtain ⟨⟨_, _, r, hfirst, hr, huser⟩, v, hv, hsame⟩ := hkept _ rfl
  cases hfirst
  exact ⟨w, w', ⟨hw, hw'⟩, v, r, hv, hsame.2 hlasting, hr, huser⟩

def boundless : Value :=
  .object
    [("id", .text "w"), ("name", .text "w"), ("version", .text "1"),
     ("nodes", .list [.object [("id", .text "a"), ("type", .text "trigger"), ("provider", .text "trigger"),
       ("operation", .text "manual")]]),
     ("variables", .list [.object [("id", .text "v"), ("name", .text "v"), ("type", .text "number"),
       ("value", .float Decimal.infinity)]])]

/-- It is created, and what is given back for it has lost the value of the variable. -/
theorem boundless_altered :
    ∃ w, Workflow.ofValue boundless = .accepted w ∧ ∃ s r, createWorkflow {} w none default = .ok (s, r) ∧
      ∃ v, s.workflow w.id = .ok v ∧ v.vars.map Variable.value = [.null] ∧ ¬ w.Same v := by
  obtain ⟨w, hw, hvars⟩ : ∃ w, Workflow.ofValue boundless = .accepted w ∧
      w.vars.map Variable.value = [.float Decimal.infinity] := ⟨_, rfl, rfl⟩
  have hrecord : Table.get? [(w.id, WorkflowRecord.make w none default)] w.id = some (.make w none default) :=
    Table.get?_set_self [] w.id _
  refine ⟨w, hw, _, _, createWorkflow_eq_ok.2 ⟨rfl, rfl, rfl, rfl⟩, w.written,
    workflow_eq_ok.2 ⟨_, workflowRecord_eq_ok.2 ⟨rfl, hrecord⟩, ?_⟩, ?_, fun hsame => ?_⟩
  · exact Workflow.ofValue_toWire (Workflow.normal_of_read hw)
  · have hwritten : w.written.vars.map Variable.value = (w.vars.map Variable.value).map Value.toWire := by
      rw [Workflow.written, List.map_map, List.map_map]
      rfl
    rw [hwritten, hvars]
    rfl
  · have hlasting := (Workflow.same_written (Workflow.normal_of_read hw)).1 hsame
    rw [Workflow.isLasting, Bool.and_eq_true] at hlasting
    have hfinite : (w.vars.map Variable.value).all Value.isFinite = true := List.all_map.trans hlasting.2
    rw [hvars] at hfinite
    exact absurd hfinite (by decide +kernel)

end Store
end Flowgraph
