import Flowgraph.Proofs.Run.Timeline
import Flowgraph.Proofs.Scope.History
import Flowgraph.Proofs.Scope.Path

/-! The variables of a run and its log. Outputs are recorded of every node that has succeeded, and they are those in its
entry as long as nothing changes them in place; beside these, only outputs that cannot be copied are recorded, and their
node has failed for that. A node has a layer of variables only while its entry shows that it is running. Executors have
no part in that: all that they do to the variables is to write some. -/

namespace Flowgraph

open Relation (ReflTransGen)

/-! What executors do -/

def Action.Writes (node : String) (act : Action) : Prop :=
  ∀ s, ∃ calls : List Scope.Call, (∀ c ∈ calls, c.Writes node) ∧ (act s).1 = s.after calls

/-- Whatever its executors are called with, they come to actions that write on behalf of the node that is run. -/
def Engine.WritesOnly (engine : Engine) : Prop :=
  ∀ n executor i act, engine.executor? n = some executor → i.node = n → (executor.perform i).Acts act →
    Action.Writes n.id act

section
variable {node : String} {act : Action}

theorem Action.writes_of_eq (h : ∀ s, (act s).1 = s) : Action.Writes node act :=
  fun s => ⟨[], List.forall_mem_nil _, h s⟩

theorem Action.Writes.keeps (h : Action.Writes node act) (s : Scope) :
    (act s).1.outputs = s.outputs ∧ ∀ id, (act s).1.isRunning id = s.isRunning id := by
  obtain ⟨calls, hcalls, heq⟩ := h s
  rw [heq]
  exact s.after_keeps_of_writes calls hcalls

theorem Effort.Acts.eq {act' : Action} (h : (Effort.now act').Acts act) : act = act' := by
  rcases h with h | ⟨seconds, h⟩
  · exact (Effort.now.inj h).symm
  · cases h

end

theorem Registry.mem_of_find? {registry : Registry} {n : Node} {c : Capability} (h : registry.find? n = some c) :
    c ∈ registry.capabilities := by
  unfold find? lookup get? at h
  rcases (Option.orElse_eq_some _ _ _).1 h with h | ⟨-, h⟩ <;> exact List.mem_of_find?_eq_some h

namespace Builtin

theorem writes_writeAll (node : String) (entries : List (String × Value)) (s : Scope) :
    ∃ calls : List Scope.Call, (∀ c ∈ calls, c.Writes node) ∧ (writeAll node s entries).1 = s.after calls := by
  induction entries generalizing s with
  | nil => exact ⟨[], List.forall_mem_nil _, rfl⟩
  | cons entry rest ih =>
    obtain ⟨name, v⟩ := entry
    unfold writeAll
    cases hwrite : s.write name v node .workflow with
    | error fault => exact ⟨[], List.forall_mem_nil _, rfl⟩
    | ok s' =>
      obtain ⟨calls, hcalls, heq⟩ := ih s'
      refine ⟨.write name v node .workflow :: calls, List.forall_mem_cons.2 ⟨rfl, hcalls⟩, heq.trans ?_⟩
      rw [Scope.after, Scope.after, List.foldl_cons, Scope.Call.apply_write hwrite]

theorem writes_setVariables {i : Invocation} {act : Action} (h : (setVariables i).Acts act) :
    Action.Writes i.node.id act := by
  intro s
  rw [h.eq]
  exact writes_writeAll i.node.id i.inputs s

theorem writes_wait {i : Invocation} {act : Action} (h : (wait i).Acts act) : Action.Writes i.node.id act := by
  unfold wait at h
  split at h
  · exact h.eq ▸ Action.writes_of_eq fun _ => rfl
  · split_ifs at h
    · exact h.eq ▸ Action.writes_of_eq fun _ => rfl
    · obtain h | ⟨seconds, h⟩ := h
      · cases h
      · exact (Effort.after.inj h).2 ▸ Action.writes_of_eq fun _ => rfl

theorem writes_perform {c : Capability} {executor : Executor} {i : Invocation} {act : Action} (hc : c ∈ capabilities)
    (hx : c.executor = some executor) (h : (executor.perform i).Acts act) : Action.Writes i.node.id act := by
  simp only [capabilities, List.mem_cons, List.not_mem_nil, or_false] at hc
  rcases hc with rfl | rfl | rfl | rfl | rfl | rfl | rfl | rfl | rfl <;> cases hx
  -- all but the writing of variables and the wait act at once and leave the variables alone
  all_goals first
    | exact writes_setVariables h
    | exact writes_wait h
    | exact h.eq ▸ Action.writes_of_eq fun _ => rfl

/-- The executors that every engine has write variables and do nothing else with them. -/
theorem writesOnly {engine : Engine} (h : engine.registry = registry) : engine.WritesOnly := by
  rintro n executor i act hx rfl hact
  rw [Engine.executor?, h] at hx
  obtain ⟨c, hc, hx⟩ := Option.bind_eq_some_iff.1 hx
  exact writes_perform (Registry.mem_of_find? hc) hx hact

end Builtin

/-! What a scope and an entry tell of a node -/

/-- A node that has failed because its outputs could not be copied. -/
def NodeLog.Spoiled (engine : Engine) (e : NodeLog) : Prop :=
  e.status = .failed ∧ ∃ outputs f, engine.copyFault? (.object outputs) = some f ∧ e.error = some f.describe

namespace Scope

/-- What the variables hold of a node is what its entry tells, unless it has been changed in place. -/
structure Agrees (engine : Engine) (s : Scope) (altered : List String) (id : String) (entry : Option NodeLog) :
    Prop where
  given : ∀ e, entry = some e → e.status = .success →
    s.outputs.contains id = true ∧ (id ∉ altered → s.outputs.get? id = e.outputs)
  recorded : s.outputs.contains id = true → ∃ e, entry = some e ∧ (e.status = .success ∨ e.Spoiled engine)

/-- A scope changes nothing that another holds of a node, except that the node may have been left. -/
structure Spares (s s' : Scope) (id : String) : Prop where
  outputs : s'.outputs.get? id = s.outputs.get? id
  running : s'.isRunning id = true → s.isRunning id = true

section
variable {engine : Engine} {s s' : Scope} {id other : String} {entry : Option NodeLog} {e : NodeLog}
  {altered changed : List String}

theorem Spares.trans {s'' : Scope} (h : Spares s s' id) (h' : Spares s' s'' id) : Spares s s'' id :=
  ⟨h'.outputs.trans h.outputs, fun hrun => h.running (h'.running hrun)⟩

theorem Agrees.spares (h : s.Agrees engine altered id entry) (hs : Spares s s' id) :
    s'.Agrees engine altered id entry := by
  have hcontains : s'.outputs.contains id = s.outputs.contains id := congrArg Option.isSome hs.outputs
  refine ⟨fun e he hsuccess => ?_, fun hin => h.recorded (hcontains ▸ hin)⟩
  rw [hcontains, hs.outputs]
  exact h.given e he hsuccess

theorem Agrees.alters (h : s.Agrees engine altered id entry) (ha : Alters changed s s') :
    s'.Agrees engine (altered ++ changed) id entry := by
  refine ⟨fun e he hsuccess => ?_, fun hin => h.recorded (ha.recorded id ▸ hin)⟩
  obtain ⟨hin, hsame⟩ := h.given e he hsuccess
  refine ⟨(ha.recorded id).trans hin, fun hid => ?_⟩
  rw [List.mem_append, not_or] at hid
  exact (ha.outputs id hid.2).trans (hsame hid.1)

/-- Nothing is recorded of a node that is running. -/
theorem Agrees.contains_eq_false (h : s.Agrees engine altered id (some e)) (hrun : e.status = .running) :
    s.outputs.contains id = false := by
  refine Bool.eq_false_iff.2 fun hin => ?_
  obtain ⟨e', he', hstatus⟩ := h.recorded hin
  obtain rfl := Option.some.inj he'
  rcases hstatus with hs | ⟨hs, -⟩ <;> cases hrun.symm.trans hs

theorem agrees_of_not_contains (hin : s.outputs.contains id = false)
    (hentry : ∀ e, entry = some e → e.status ≠ .success) : s.Agrees engine altered id entry :=
  ⟨fun e he hs => absurd hs (hentry e he), fun h => absurd (hin.symm.trans h) Bool.false_ne_true⟩

/-- A node gets its entry: before that nothing was recorded of it. -/
theorem Agrees.appears (h : s.Agrees engine altered id none) (he : e.status ≠ .success) :
    s.Agrees engine altered id (some e) := by
  refine agrees_of_not_contains (Bool.eq_false_iff.2 fun hin => ?_) fun e' he' => Option.some.inj he' ▸ he
  obtain ⟨e', he', -⟩ := h.recorded hin
  cases he'

/-- The entry of a cancelled task is marked. -/
theorem Agrees.marked (time : Moment) (stop : Option Stop) (cut : List String)
    (h : s.Agrees engine altered id (some e)) : s.Agrees engine altered id (some (Run.cutEntry time stop cut e)) := by
  by_cases hrun : e.status = .running
  · refine agrees_of_not_contains (h.contains_eq_false hrun) fun e' he' hsuccess => ?_
    obtain rfl := Option.some.inj he'
    unfold Run.cutEntry at hsuccess
    split_ifs at hsuccess
    · rw [Run.interrupted_status, if_pos hrun] at hsuccess
      cases hsuccess
    · cases hrun.symm.trans hsuccess
  · rwa [Run.cutEntry_of_ne hrun]

theorem spares_exit (s : Scope) (other id : String) : Spares s (s.exit other) id := by
  refine ⟨rfl, fun h => ?_⟩
  by_cases hid : id = other
  · subst hid
    unfold isRunning Table.contains exit at h
    rw [Table.get?_erase_self] at h
    cases h
  · exact (congrArg Option.isSome (Table.get?_erase_ne s.layers hid)).symm.trans h

theorem isRunning_exit (s : Scope) (id : String) : (s.exit id).isRunning id = false :=
  congrArg Option.isSome (Table.get?_erase_self s.layers id)

theorem spares_enter (s : Scope) (values : Fields) (h : id ≠ other) : Spares s (s.enter other values) id :=
  ⟨rfl, fun hrun => (congrArg Option.isSome (Table.get?_set_ne s.layers _ h)).symm.trans hrun⟩

theorem spares_recordOutput (s : Scope) (outputs : Fields) (h : id ≠ other) :
    Spares s (s.recordOutput other outputs) id :=
  ⟨Table.get?_set_ne s.outputs outputs h, fun hrun => hrun⟩

theorem contains_recordOutput (s : Scope) (id : String) (outputs : Fields) :
    (s.recordOutput id outputs).outputs.contains id = true :=
  congrArg Option.isSome (Table.get?_set_self s.outputs id outputs)

end

end Scope

section
variable {engine : Engine} {time : Moment} {t : Task} {s s' : Scope} {e e' : NodeLog} {p : Phase} {id : String}
  {altered : List String}

theorem Engine.WritesOnly.writes (hw : engine.WritesOnly) {n : Node} {act : Action} (h : engine.Armed n act) :
    Action.Writes n.id act := by
  obtain ⟨executor, i, hx, hi, hact⟩ := h
  exact hw n executor i act hx hi hact

/-- Whatever a task that carries on does to the variables, it records nothing. -/
theorem Task.Works.outputs_eq (h : t.Works engine s s') (hw : engine.WritesOnly) (ha : t.phase.Armed engine t.node) :
    s'.outputs = s.outputs := by
  rcases h with rfl | ⟨values, rfl⟩ | ⟨act, harmed, rfl⟩
  · rfl
  · rfl
  · exact ((hw.writes (harmed ha)).keeps s).1

theorem Task.Works.spares (h : t.Works engine s s') (hw : engine.WritesOnly) (ha : t.phase.Armed engine t.node)
    (hid : id ≠ t.node.id) : Scope.Spares s s' id := by
  refine ⟨by rw [h.outputs_eq hw ha], fun hrun => ?_⟩
  rcases h with rfl | ⟨values, rfl⟩ | ⟨act, harmed, rfl⟩
  · exact hrun
  · exact (Scope.spares_enter s values hid).running hrun
  · exact (((hw.writes (harmed ha)).keeps s).2 id).symm.trans hrun

/-- A task whose node has a layer afterwards carries on, or had one before. -/
theorem Deed.attempted (h : Deed engine time t s e s' e' p) (hin : s'.isRunning t.node.id = true)
    (hfresh : t.phase = .fresh → s.isRunning t.node.id = true → False) : p.attempt?.isSome = true := by
  have hleft : ∀ {s : Scope}, s' = s.exit t.node.id → p.attempt?.isSome = true := fun {s} hs => by
    rw [hs, Scope.isRunning_exit] at hin
    cases hin
  cases h with
  | carriesOn hp _ _ _ _ => exact hp
  | fails hs _ | leaves _ hs _ => exact hleft hs
  | succeeds _ hs _ | spoils _ _ hs _ => exact hleft hs
  | drops hp hs _ => exact absurd (hs ▸ hin) (hfresh hp)

theorem Deed.armed (h : Deed engine time t s e s' e' p) (ha : t.phase.Armed engine t.node) : p.Armed engine t.node := by
  cases h with
  | carriesOn _ harmed _ _ _ => exact harmed ha
  | _ => trivial

/-- What a task does to the variables of another node is nothing. -/
theorem Deed.spares (h : Deed engine time t s e s' e' p) (hw : engine.WritesOnly) (ha : t.phase.Armed engine t.node)
    (hid : id ≠ t.node.id) : Scope.Spares s s' id := by
  cases h with
  | carriesOn _ _ hs _ _ => exact hs.spares hw ha hid
  | fails hs _ | leaves _ hs _ => exact hs ▸ Scope.spares_exit s _ id
  | succeeds outputs hs _ | spoils outputs _ hs _ =>
    exact hs ▸ (Scope.spares_recordOutput s outputs hid).trans (Scope.spares_exit _ _ id)
  | drops _ hs _ => exact hs ▸ ⟨rfl, fun h => h⟩

/-- A task keeps what the variables hold of its own node in agreement with its entry. -/
theorem Deed.agrees (h : Deed engine time t s e s' e' p) (hw : engine.WritesOnly) (harmed : t.phase.Armed engine t.node)
    (hrun : e.status = .running) (ha : s.Agrees engine altered t.node.id (some e)) :
    s'.Agrees engine altered t.node.id (some e') := by
  have hnone := ha.contains_eq_false hrun
  have hstill : s'.outputs = s.outputs → e'.status ≠ .success → s'.Agrees engine altered t.node.id (some e') :=
    fun hs hne => Scope.agrees_of_not_contains (hs ▸ hnone) fun e₁ he₁ => Option.some.inj he₁ ▸ hne
  cases h with
  | carriesOn _ _ hs he _ => exact hstill (hs.outputs_eq hw harmed) (by rw [he, hrun]; exact nofun)
  | fails hs he => exact hstill (by rw [hs]; rfl) (by rw [he]; exact nofun)
  | leaves _ hs he => exact hstill (by rw [hs]; rfl) (by rw [he, hrun]; exact nofun)
  | drops _ hs he => exact hstill (by rw [hs]) (by rw [he, hrun]; exact nofun)
  | succeeds outputs hs he =>
    rw [hs, he]
    refine ⟨fun e₁ he₁ _ => ?_, fun _ => ⟨_, rfl, Or.inl rfl⟩⟩
    obtain rfl := Option.some.inj he₁
    exact ⟨Scope.contains_recordOutput s _ outputs, fun _ => Table.get?_set_self s.outputs _ _⟩
  | spoils outputs hf hs he =>
    rw [hs, he]
    refine ⟨fun e₁ he₁ hsuccess => ?_, fun _ => ⟨_, rfl, Or.inr ⟨rfl, outputs, _, hf, rfl⟩⟩⟩
    obtain rfl := Option.some.inj he₁
    cases hsuccess

end

namespace Run

def Agrees (engine : Engine) (altered : List String) (r : Run) : Prop :=
  ∀ id, r.scope.Agrees engine altered id (r.entry? id)

def Layered (r : Run) : Prop :=
  ∀ id, r.scope.isRunning id = true → r.isFinished = false ∧
    ∃ t ∈ r.tasks, t.node.id = id ∧ t.phase.attempt?.isSome = true

def Armed (engine : Engine) (r : Run) : Prop :=
  ∀ t ∈ r.tasks, t.phase.Armed engine t.node

/-- Outputs that are recorded stay recorded, and they stay as they are unless they are changed in place. -/
def Retains (changed : List String) (r r' : Run) : Prop :=
  ∀ id fs, r.scope.outputs.get? id = some fs → r'.scope.outputs.contains id = true ∧
    (id ∉ changed → r'.scope.outputs.get? id = some fs)

/-- What holds of the variables of a run at every moment. -/
structure Coherent (engine : Engine) (altered : List String) (r : Run) : Prop where
  agrees : r.Agrees engine altered
  layered : r.Layered
  armed : r.Armed engine

section
variable {engine : Engine} {lenient : Bool} {w : Workflow} {now : Nat} {time : Moment} {t : Task} {r₀ r r' r'' : Run}
  {altered changed more : List String} {s s' : Scene} {mark : Mark}

theorem Retains.refl (r : Run) : Retains [] r r := fun id fs hid =>
  ⟨by rw [Table.contains, hid]; rfl, fun _ => hid⟩

theorem Retains.trans (h : Retains changed r r') (h' : Retains more r' r'') : Retains (changed ++ more) r r'' := by
  intro id fs hid
  obtain ⟨hin, hsame⟩ := h id fs hid
  obtain ⟨fs', hfs'⟩ := Option.isSome_iff_exists.1 hin
  refine ⟨(h' id fs' hfs').1, fun hnot => ?_⟩
  rw [List.mem_append, not_or] at hnot
  exact (h' id fs (hsame hnot.1)).2 hnot.2

theorem Coherent.weaken (h : r.Coherent engine altered) (changed : List String) :
    r.Coherent engine (altered ++ changed) where
  agrees id := (h.agrees id).alters ⟨fun _ => rfl, fun _ => rfl, fun _ _ => rfl⟩
  layered := h.layered
  armed := h.armed

theorem Retains.weaken (h : Retains [] r r') (changed : List String) : Retains changed r r' := fun id fs hid =>
  ⟨(h id fs hid).1, fun _ => (h id fs hid).2 List.not_mem_nil⟩

/-! A task goes on -/

theorem Coherent.does (h : r.Coherent engine altered) (hw : engine.WritesOnly) (hs : r.Sound)
    (hu : r.isFinished = false) (ht : t ∈ r.tasks) (hrun : t.phase.status = .running) (hd : Does engine time t r r') :
    r'.Coherent engine altered ∧ Retains [] r r' := by
  obtain ⟨f, g, htouch, hdeed⟩ := hd
  obtain ⟨e, he, hst⟩ := hs.task_entry t ht
  have hrunning : e.status = .running := hst.trans hrun
  have harmed := h.armed t ht
  have hown : r.scope.Agrees engine altered t.node.id (some e) := he ▸ h.agrees t.node.id
  have hself : ∀ u ∈ r.tasks, u.node.id = t.node.id → u = t := fun u hu hid =>
    List.inj_on_of_nodup_map hs.tasks_nodup hu ht hid
  have hspares : ∀ id ≠ t.node.id, Scope.Spares r.scope r'.scope id := fun id hid => (hdeed e).spares hw harmed hid
  refine ⟨⟨fun id => ?_, fun id hin => ⟨htouch.frame.isFinished.trans hu, ?_⟩, fun u' hu' => ?_⟩, fun id fs hid => ?_⟩
  · rw [htouch.entry?]
    split_ifs with hid
    · rw [hid, he]
      exact (hdeed e).agrees hw harmed hrunning hown
    · exact (h.agrees id).spares (hspares id hid)
  · rw [htouch.tasks]
    by_cases hid : id = t.node.id
    · refine ⟨f t, List.mem_map.2 ⟨t, ht, if_pos rfl⟩, (congrArg Node.id (htouch.node t)).trans hid.symm, ?_⟩
      exact (hdeed e).attempted (hid ▸ hin) fun hfresh hin' => by
        obtain ⟨-, u, hu, hid', hattempt⟩ := h.layered _ hin'
        rw [hself u hu hid', hfresh] at hattempt
        cases hattempt
    · obtain ⟨-, u, hu, hid', hattempt⟩ := h.layered id ((hspares id hid).running hin)
      exact ⟨u, List.mem_map.2 ⟨u, hu, if_neg (hid' ▸ hid)⟩, hid', hattempt⟩
  · rw [htouch.tasks] at hu'
    obtain ⟨u, hu, rfl⟩ := List.mem_map.1 hu'
    split_ifs with hid
    · rw [hself u hu hid, htouch.node]
      exact (hdeed e).armed harmed
    · exact h.armed u hu
  · have hother : id ≠ t.node.id := by
      rintro rfl
      have hnone := hown.contains_eq_false hrunning
      rw [Table.contains, hid] at hnone
      cases hnone
    rw [Table.contains, (hspares id hother).outputs, hid]
    exact ⟨rfl, fun _ => rfl⟩

/-! The log tells -/

theorem Relates.agrees (h : Relates time changed r r') (ha : r.Agrees engine altered) (hn : r'.entryIds.Nodup) :
    r'.Agrees engine (altered ++ changed) := by
  obtain ⟨cut, new, -, hentries, hnew⟩ := h.entries
  intro id
  refine Scope.Agrees.alters ?_ h.scope
  cases he : r.entry? id with
  | some e =>
    have hmem : cutEntry time r.stop cut e ∈ r'.log.nodeLogs := by
      rw [hentries]
      exact List.mem_append_left _ (List.mem_map_of_mem (entry?_mem he))
    have hfound := entry?_of_mem hn hmem
    rw [keepsId_cutEntry, entry?_id he] at hfound
    rw [hfound]
    exact (he ▸ ha id).marked time r.stop cut
  | none =>
    have hid := he ▸ ha id
    cases he' : r'.entry? id with
    | none => exact hid
    | some e' =>
      refine hid.appears ?_
      have hmem := entry?_mem he'
      rw [hentries] at hmem
      rcases List.mem_append.1 hmem with hmem | hmem
      · obtain ⟨e, he₀, rfl⟩ := List.mem_map.1 hmem
        have hsame := (keepsId_cutEntry time r.stop cut e).symm.trans (entry?_id he')
        exact absurd (List.mem_map.2 ⟨e, he₀, hsame⟩) (entry?_eq_none.1 he)
      · rcases hnew e' hmem with ⟨x, rfl⟩ | ⟨n, rfl⟩ <;> exact nofun

theorem Relates.layered (h : Relates time changed r r') (hl : r.Layered) (hs : r.isFinished = false → r.Sound)
    (hstage : Stage engine w r') : r'.Layered := by
  obtain ⟨cut, new, hcut, hentries, hnew⟩ := h.entries
  intro id hin
  obtain ⟨hu, t, ht, rfl, hattempt⟩ := hl id ((h.scope.running id).symm.trans hin)
  have hsound := hs hu
  obtain ⟨e, he, hst⟩ := hsound.task_entry t ht
  have hrun : e.status = .running := by
    rw [hst]
    cases hp : t.phase with
    | finished failed =>
      rw [hp] at hattempt
      cases hattempt
    | _ => rfl
  have hself : ∀ u ∈ r.tasks, u.node.id = t.node.id → u = t := fun u hu hid =>
    List.inj_on_of_nodup_map hsound.tasks_nodup hu ht hid
  -- the task makes attempts, so it has not been cancelled, and its entry is not marked
  have hsame : cutEntry time r.stop cut e = e := by
    refine if_neg fun hmem => ?_
    obtain ⟨u, hu, hid, hunwound⟩ := hcut _ hmem
    rw [hself u hu (hid.trans (entry?_id he))] at hunwound
    rw [hunwound] at hattempt
    cases hattempt
  have hmem : e ∈ r'.log.nodeLogs := by
    rw [hentries]
    exact List.mem_append_left _ (List.mem_map.2 ⟨e, entry?_mem he, hsame⟩)
  obtain ⟨hu', t', ht', hid'⟩ := hstage.exists_task hmem hrun
  rw [entry?_id he] at hid'
  refine ⟨hu', t', ht', hid', ?_⟩
  rcases h.tasks t' ht' with ⟨u, hu, hnode, hphase⟩ | ⟨-, hnot⟩
  · rw [hphase, hself u hu (hnode ▸ hid')]
    exact hattempt
  · rw [hid'] at hnot
    exact absurd (mem_entryIds.2 ⟨e, he⟩) hnot

theorem Relates.armed (h : Relates time changed r r') (ha : r.Armed engine) : r'.Armed engine := by
  intro t' ht'
  rcases h.tasks t' ht' with ⟨t, ht, hnode, hphase⟩ | ⟨hfresh, -⟩
  · rw [hnode, hphase]
    exact ha t ht
  · rw [hfresh]
    trivial

theorem Relates.retains (h : Relates time changed r r') : Retains changed r r' := by
  intro id fs hid
  refine ⟨(h.scope.recorded id).trans ?_, fun hnot => (h.scope.outputs id hnot).trans hid⟩
  rw [Table.contains, hid]
  rfl

/-! Every move -/

theorem Coherent.moves (hlimit : 0 < engine.limit) (hw : engine.WritesOnly) (hstage : Stage engine w s.run)
    (h : s.run.Coherent engine s.altered) (hm : Moves engine lenient now s mark s') :
    s'.run.Coherent engine s'.altered ∧
      ∃ changed, s'.altered = s.altered ++ changed ∧ Retains changed s.run s'.run := by
  obtain ⟨changed, haltered, hcomes⟩ := hstage.comes hlimit hm
  have hstage' := hstage.moves hlimit hm
  cases hcomes with
  | acts hu ht hover hd =>
    obtain ⟨hkept, hretains⟩ := h.does hw (hstage.sound hu) hu ht (Phase.status_of_not_over hover) hd
    rw [haltered]
    exact ⟨hkept.weaken changed, changed, rfl, hretains.weaken changed⟩
  | relates ht =>
    rw [haltered]
    exact ⟨⟨ht.agrees h.agrees hstage'.nodup, ht.layered h.layered hstage.sound hstage', ht.armed h.armed⟩, changed,
      rfl, ht.retains⟩

theorem Coherent.goes (hlimit : 0 < engine.limit) (hw : engine.WritesOnly) (hstage : Stage engine w s.run)
    (h : s.run.Coherent engine s.altered) (hs : ReflTransGen (Goes engine lenient) s s') :
    Stage engine w s'.run ∧ s'.run.Coherent engine s'.altered ∧
      ∃ changed, s'.altered = s.altered ++ changed ∧ Retains changed s.run s'.run := by
  induction hs with
  | refl => exact ⟨hstage, h, [], (List.append_nil _).symm, .refl _⟩
  | tail _ hm ih =>
    obtain ⟨now, mark, hm⟩ := hm
    obtain ⟨hstage', hkept, changed, haltered, hretains⟩ := ih
    obtain ⟨hkept', more, haltered', hretains'⟩ := hkept.moves hlimit hw hstage' hm
    exact ⟨hstage'.moves hlimit hm, hkept', changed ++ more, by rw [haltered', haltered, List.append_assoc],
      hretains.trans hretains'⟩

theorem coherent_start (w : Workflow) (inputs secrets : Fields) (executionId : String) (time : Moment) :
    (start w inputs secrets executionId time).Coherent engine [] := by
  have hscope : (start w inputs secrets executionId time).scope = Scope.make w.vars inputs := rfl
  refine ⟨fun id => ?_, fun id hin => ?_, List.forall_mem_nil _⟩
  · rw [hscope]
    refine Scope.agrees_of_not_contains ?_ fun e he => by cases he
    rw [Scope.outputs_make]
    rfl
  · rw [hscope, Scope.isRunning, Scope.layers_make] at hin
    cases hin

theorem Agrees.status_of_contains (h : r.Agrees engine altered) {id : String}
    (hin : r.scope.outputs.contains id = true) :
    r.statusOf id = .success ∨ ∃ e, r.entry? id = some e ∧ e.Spoiled engine := by
  obtain ⟨e, he, hs | hspoiled⟩ := (h id).recorded hin
  · refine Or.inl ?_
    rw [statusOf, he, Option.map_some, Option.getD_some, hs]
  · exact Or.inr ⟨e, he, hspoiled⟩

theorem Agrees.contains_of_status (h : r.Agrees engine altered) {id : String} (hs : r.statusOf id = .success) :
    r.scope.outputs.contains id = true := by
  cases he : r.entry? id with
  | none =>
    rw [statusOf, he] at hs
    cases hs
  | some e =>
    rw [statusOf, he, Option.map_some, Option.getD_some] at hs
    exact ((h id).given e he hs).1

/-- Nothing is left behind in the variables of a node when its run ends. -/
theorem Layered.layers_eq_nil (h : r.Layered) (hf : r.isFinished = true) : r.scope.layers = [] := by
  cases hlayers : r.scope.layers with
  | nil => rfl
  | cons entry rest =>
    have hin : r.scope.isRunning entry.1 = true := by
      unfold Scope.isRunning Table.contains
      rw [hlayers, Table.get?, if_pos rfl]
      rfl
    exact absurd ((h entry.1 hin).1.symm.trans hf) Bool.false_ne_true

theorem Layered.status (h : r.Layered) (hs : r.isFinished = false → r.Sound) {id : String}
    (hin : r.scope.isRunning id = true) : r.statusOf id = .running := by
  obtain ⟨hu, t, ht, rfl, hattempt⟩ := h id hin
  obtain ⟨e, he, hst⟩ := (hs hu).task_entry t ht
  rw [statusOf, he, Option.map_some, Option.getD_some, hst]
  cases hp : t.phase with
  | finished failed =>
    rw [hp] at hattempt
    cases hattempt
  | _ => rfl

/-- At every moment of a run, and however it goes: outputs are recorded of the nodes that have succeeded, and beside
these only of such as have failed because their outputs could not be copied. What is recorded of a node that has
succeeded is what its entry gives, unless it has been changed in place; it stays recorded, and it stays as it is unless
it is changed in place. Only nodes that are running have a layer of variables, and when the run has finished there is
none left. The path of a node leads to what is recorded of it if there is no point in its id. -/
theorem context_agrees (hlimit : 0 < engine.limit) (hwrites : engine.WritesOnly) (w : Workflow)
    (inputs secrets : Fields) (executionId : String) (now : Nat)
    (h : ReflTransGen (Goes engine lenient) (start w inputs secrets executionId (engine.moment now)).scene s) :
    (∀ id, s.run.statusOf id = .success → s.run.scope.outputs.contains id = true) ∧
    (∀ id, s.run.scope.outputs.contains id = true →
      s.run.statusOf id = .success ∨ ∃ e, s.run.entry? id = some e ∧ e.Spoiled engine) ∧
    (∀ id e, s.run.entry? id = some e → e.status = .success → id ∉ s.altered →
      s.run.scope.outputs.get? id = e.outputs) ∧
    (∀ s', ReflTransGen (Goes engine lenient) s s' → ∃ changed, s'.altered = s.altered ++ changed ∧
      Retains changed s.run s'.run) ∧
    (∀ id, s.run.scope.isRunning id = true → s.run.statusOf id = .running) ∧
    (s.run.isFinished = true → s.run.scope.layers = []) ∧
    ∀ node id, Text.Trimmed id → '.' ∉ id.toList →
      s.run.scope.resolvePath node ("nodes." ++ id) = .ok ((s.run.scope.outputs.get? id).map Value.object) := by
  have h₀ := unbegun_start w inputs secrets executionId (engine.moment now)
  obtain ⟨hstage, hkept, -⟩ :=
    Coherent.goes hlimit hwrites (.first h₀ rfl) (coherent_start w inputs secrets executionId _) h
  exact ⟨fun id => hkept.agrees.contains_of_status, fun id => hkept.agrees.status_of_contains,
    fun id e he hs hid => ((hkept.agrees id).given e he hs).2 hid,
    fun s' hs' => (hkept.goes hlimit hwrites hstage hs').2.2, fun id => hkept.layered.status hstage.sound,
    hkept.layered.layers_eq_nil, fun node id hid hpoint => Scope.resolvePath_nodes hid hpoint⟩

end

/-- The executors of the busy engine leave the variables alone. -/
theorem writesOnly_busyEngine : busyEngine.WritesOnly := by
  rintro n executor i act hx rfl hact
  obtain ⟨c, hc, hx⟩ := Option.bind_eq_some_iff.1 hx
  have hmem := Registry.mem_of_find? hc
  simp only [busyEngine, List.mem_cons, List.not_mem_nil, or_false] at hmem
  rcases hmem with rfl | rfl | rfl <;> cases hx
  · exact hact.eq ▸ Action.writes_of_eq fun _ => rfl
  · change ((if i.attempt ≤ 1 then .failed ⟨.runtime, "busy"⟩ else .done [] : Effort)).Acts act at hact
    split_ifs at hact <;> exact hact.eq ▸ Action.writes_of_eq fun _ => rfl
  · obtain hact | ⟨seconds, hact⟩ := hact
    · cases hact
    · exact (Effort.after.inj hact).2 ▸ Action.writes_of_eq fun _ => rfl

/-- The cancelled run: its first step has succeeded, and the layers of the two that were in flight are gone at its
end. -/
theorem context_agrees_fourSteps :
    let r₀ := start fourSteps [] [] "run" (busyEngine.moment 0)
    let r := fourMarked.complete (busyEngine.moment 0)
    (0 < busyEngine.limit ∧ busyEngine.WritesOnly ∧
        ReflTransGen (Goes busyEngine false) r₀.scene fourCancelled.scene ∧
        ReflTransGen (Goes busyEngine false) fourCancelled.scene r.scene) ∧
      (∃ e fs, fourCancelled.entry? "begin" = some e ∧ e.outputs = some fs ∧
        fourCancelled.scope.outputs.get? "begin" = some fs ∧ r.scope.outputs.get? "begin" = some fs ∧
        fourCancelled.scope.resolvePath none "nodes.begin" = .ok (some (.object fs))) ∧
      (∀ id ∈ ["retry", "wait"], fourCancelled.scope.isRunning id = true ∧ fourCancelled.statusOf id = .running) ∧
      r.scope.layers = [] := by
  intro r₀ r
  have hlimit : 0 < busyEngine.limit := by decide
  have hgoes := (story_fourCancelled false).goes
  have hends := (passes_fourEnded false).goes
  obtain ⟨hrecorded, -, hsame, hretains, hlayered, -, hpath⟩ :=
    context_agrees hlimit writesOnly_busyEngine fourSteps [] [] "run" 0 hgoes
  obtain ⟨-, -, -, -, -, hleft, -⟩ :=
    context_agrees hlimit writesOnly_busyEngine fourSteps [] [] "run" 0 (hgoes.trans hends)
  simp only [run_scene, altered_scene] at hrecorded hsame hretains hlayered hpath hleft
  have hsuccess : (fourCancelled.entry? "begin").map NodeLog.status = some .success := by decide +kernel
  have hlayers : ∀ id ∈ ["retry", "wait"], fourCancelled.scope.isRunning id = true := by decide +kernel
  obtain ⟨e, he, hs⟩ := Option.map_eq_some_iff.1 hsuccess
  obtain ⟨fs, hfs⟩ := Option.isSome_iff_exists.1 (hrecorded "begin" (by rw [statusOf, hsuccess]; rfl))
  obtain ⟨changed, hchanged, hkept⟩ := hretains _ hends
  have hnone : changed = [] := hchanged.symm
  refine ⟨⟨hlimit, writesOnly_busyEngine, hgoes, hends⟩, ⟨e, fs, he, ?_, hfs, ?_, ?_⟩,
    fun id hid => ⟨hlayers id hid, hlayered id (hlayers id hid)⟩, hleft (by decide +kernel)⟩
  · exact (hsame "begin" e he hs List.not_mem_nil).symm.trans hfs
  · exact (hkept "begin" fs hfs).2 (hnone ▸ List.not_mem_nil)
  · have hfound := hpath none "begin" (by decide) (by decide)
    rwa [hfs] at hfound

def dottedStep : Workflow where
  id := "dotted"
  name := "Dotted step"
  version := "1"
  nodes := [{ id := "a.b", type := .trigger, provider := "trigger", operation := "manual" }]

def dottedRun (engine : Engine) : Run :=
  resumeAll engine 0 ["a.b", "a.b", "a.b", "a.b"]
    (Run.proceed engine 0 { start dottedStep [] [] "run" (engine.moment 0) with ready := ["a.b"] })

theorem goes_dottedRun {engine : Engine}
    (hgo : mayResume engine 0 ["a.b", "a.b", "a.b", "a.b"]
      (Run.proceed engine 0 { start dottedStep [] [] "run" (engine.moment 0) with ready := ["a.b"] }) = true) :
    ReflTransGen (Goes engine false) (start dottedStep [] [] "run" (engine.moment 0)).scene
      (dottedRun engine).scene := by
  set r₀ := start dottedStep [] [] "run" (engine.moment 0)
  have hfront : firstFront r₀ = ⟨r₀, [], ["a.b"]⟩ := by
    rw [firstFront_of_sorted (List.pairwise_singleton _ _)]
    rfl
  have haccept : ∀ id ∈ ["a.b"], ∀ ready, Run.decide { r₀ with ready } id = .ok true := by
    simp only [List.mem_singleton]
    rintro id rfl ready
    rfl
  have hlaunch : Passes engine false 0 r₀.scene _ :=
    passes_launch _ (unbegun_start dottedStep [] [] "run" _) hfront haccept
  exact Passes.goes (hlaunch.trans (passes_resumeAll _ (scene _) hgo))

/-- It returns something of which no copy can be made. -/
def lockEngine : Engine :=
  { busyEngine with
    registry := ⟨[{ provider := "trigger", operation := "manual"
                    executor := some { isAsync := true, perform := fun _ => .done [("lock", .text "lock")] } }]⟩
    copyFault? := fun v =>
      match v with
      | .object (_ :: _) => some ⟨.badType, "cannot pickle '_thread.lock' object"⟩
      | _ => none }

/-- A step with a point in its id has succeeded and its outputs are recorded, and its path leads nowhere. When the
outputs cannot be copied, they are recorded and the step has failed. -/
theorem dotted_node_disagrees :
    (ReflTransGen (Goes busyEngine false) (start dottedStep [] [] "run" (busyEngine.moment 0)).scene
        (dottedRun busyEngine).scene ∧
      (dottedRun busyEngine).statusOf "a.b" = .success ∧ (dottedRun busyEngine).scope.outputs.contains "a.b" = true ∧
      (dottedRun busyEngine).scope.resolvePath none "nodes.a.b" = .ok none) ∧
    (ReflTransGen (Goes lockEngine false) (start dottedStep [] [] "run" (lockEngine.moment 0)).scene
        (dottedRun lockEngine).scene ∧
      (dottedRun lockEngine).statusOf "a.b" = .failed ∧
      (dottedRun lockEngine).scope.outputs.contains "a.b" = true) := by
  refine ⟨⟨goes_dottedRun (by decide +kernel), by decide +kernel, by decide +kernel, ?_⟩,
    goes_dottedRun (by decide +kernel), by decide +kernel, by decide +kernel⟩
  have hnone : (dottedRun busyEngine).scope.outputs.get? "a" = none :=
    Option.isNone_iff_eq_none.1 (by decide +kernel)
  have hpath : (dottedRun busyEngine).scope.resolvePath none (Scope.outputPath "a" "b") = _ :=
    Scope.resolvePath_outputPath (by decide) (by decide)
  rw [Scope.segments_of_not_mem (by decide) (by decide), List.singleton_append, Scope.follow_outputsValue,
    hnone] at hpath
  exact hpath.trans (Objects.follow_none _ _)

end Run

end Flowgraph
