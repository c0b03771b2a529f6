import Flowgraph.Proofs.Run.Admission
import Flowgraph.Proofs.Run.Life
import Flowgraph.Proofs.Validation.Model

/-! How many nodes run at once, and which come first. No more tasks are in flight than the limit allows, and
while a node that may run has not been started there are exactly so many. Nodes are started one by one, each
before all others that may run and stand behind it in the node list. -/

namespace Flowgraph

open Relation (ReflTransGen)

namespace Run

def running (r : Run) : List NodeLog :=
  r.log.nodeLogs.filter fun e => e.status = .running

/-- A run waits for completions: something is in flight, and none of it has finished. -/
structure Waits (r : Run) : Prop where
  unfinished : r.isFinished = false
  inFlight : r.tasks ≠ []
  calm : r.tasks.any Task.isFinished = false

/-- Nodes are started one by one, each the first of those that are ready. -/
inductive Starts (place : String → Nat) : Run → Run → Prop
  | refl (r : Run) : Starts place r r
  | start {r r' : Run} {time : Moment} {id : String} {rest : List String} (hready : r.ready = id :: rest)
    (hfirst : ∀ x ∈ rest, place id < place x) (h : Starts place ({ r with ready := rest }.startNode time id) r') :
    Starts place r r'

/-- As much is in flight as the limit and the ready nodes allow. -/
structure Loaded (engine : Engine) (r : Run) : Prop where
  bound : r.tasks.length ≤ engine.limit
  full : r.ready = [] ∨ engine.limit ≤ r.tasks.length
  listed : r.graph.Listed r.ready

section
variable {engine : Engine} {w : Workflow} {r r' q : Run} {f : Front} {now limit : Nat} {time : Moment} {id : String}

theorem Loaded.congr (h : Loaded engine r) (htasks : r'.tasks.length = r.tasks.length) (hready : r'.ready = r.ready)
    (hgraph : r'.graph = r.graph) : Loaded engine r' := by
  refine ⟨?_, ?_, ?_⟩
  · rw [htasks]
    exact h.bound
  · rw [htasks, hready]
    exact h.full
  · rw [hready, hgraph]
    exact h.listed

theorem runningIds_nodup (h : r.Sound) : (r.running.map NodeLog.nodeId).Nodup :=
  h.entries_nodup.sublist (List.filter_sublist.map _)

/-- Only nodes with a task are running. -/
theorem runningIds_subset (h : r.front.Good) : r.running.map NodeLog.nodeId ⊆ r.taskIds := by
  intro id hid
  obtain ⟨e, he, rfl⟩ := List.mem_map.1 hid
  obtain ⟨he, hrun⟩ := List.mem_filter.1 he
  rw [← opened_front]
  refine (h.live.ended e he).resolve_left fun hend => ?_
  rw [of_decide_eq_true hrun] at hend
  rcases hend with hend | hend | hend <;> cases hend

theorem length_running_le (h : r.front.Good) : r.running.length ≤ r.tasks.length := by
  have := ((runningIds_nodup h.sound).subperm (runningIds_subset h)).length_le
  rwa [List.length_map, taskIds, List.length_map] at this

/-- While no task has ended, the tasks are what is running. -/
theorem length_running_of_calm (h : r.front.Good) (hcalm : r.tasks.any Task.isFinished = false) :
    r.running.length = r.tasks.length := by
  refine Nat.le_antisymm (length_running_le h) ?_
  have hsub : r.taskIds ⊆ r.running.map NodeLog.nodeId := by
    intro id hid
    obtain ⟨t, ht⟩ := mem_taskIds.1 hid
    obtain ⟨e, he, hst⟩ := h.sound.task_entry t (task?_mem ht)
    rw [task?_id ht] at he
    have hnot := List.any_eq_false.1 hcalm t (task?_mem ht)
    rw [isFinished_eq, Bool.not_eq_true] at hnot
    rw [Phase.status_of_not_over hnot] at hst
    exact List.mem_map.2 ⟨e, List.mem_filter.2 ⟨entry?_mem he, decide_eq_true hst⟩, entry?_id he⟩
  have := (h.sound.tasks_nodup.subperm hsub).length_le
  rwa [taskIds, List.length_map, List.length_map] at this

theorem Loaded.running_le (h : Loaded engine r) (hg : r.front.Good) : r.running.length ≤ engine.limit :=
  (length_running_le hg).trans h.bound

/-- A run that waits while nodes are ready has no room for another task. -/
theorem Loaded.running_eq (h : Loaded engine r) (hg : r.front.Good) (hw : r.Waits) (hready : r.ready ≠ []) :
    r.running.length = engine.limit := by
  rw [length_running_of_calm hg hw.calm]
  exact Nat.le_antisymm h.bound (h.full.resolve_left hready)

/-- While a run waits, a node has told its targets if it has ended and was not cancelled. -/
theorem Waits.isResolved_iff (hw : r.Waits) (hg : r.front.Good) (s : String) :
    r.front.isResolved s = true ↔ (∃ e, r.entry? s = some e ∧ e.status.Ended) ∧ s ∉ r.lost := by
  rw [Front.isResolved_iff, opened_front]
  constructor
  · rintro ⟨hs, hnot, hlost⟩
    obtain ⟨e, he⟩ := mem_entryIds.1 hs
    have hend := hg.live.ended e (entry?_mem he)
    rw [opened_front, entry?_id he] at hend
    exact ⟨⟨e, he, hend.resolve_right hnot⟩, hlost⟩
  · rintro ⟨⟨e, he, hend⟩, hlost⟩
    refine ⟨mem_entryIds.2 ⟨e, he⟩, fun hs => ?_, hlost⟩
    obtain ⟨t, ht⟩ := mem_taskIds.1 hs
    obtain ⟨e', he', hst⟩ : ∃ e, r.entry? t.node.id = some e ∧ e.status = t.phase.status :=
      hg.sound.task_entry t (task?_mem ht)
    have hcalm := List.any_eq_false.1 hw.calm t (task?_mem ht)
    rw [isFinished_eq, Bool.not_eq_true] at hcalm
    rw [task?_id ht, he] at he'
    obtain rfl := Option.some.inj he'
    rw [hst, Phase.status_of_not_over hcalm] at hend
    rcases hend with hend | hend | hend <;> cases hend

/-- In a run that waits the ready nodes are those without an entry whose sources have all ended, none of them
cancelled. -/
theorem Waits.mem_ready (hw : r.Waits) (hg : r.front.Good) :
    id ∈ r.ready ↔ id ∈ r.graph.nodeIds ∧ r.entry? id = none ∧
      ∀ s ∈ r.graph.sources id, (∃ e, r.entry? s = some e ∧ e.status.Ended) ∧ s ∉ r.lost := by
  have hfree : ∀ id ∈ r.graph.nodeIds, r.front.missing id = [] ↔ id ∈ r.entryIds ∨ id ∈ r.ready := hg.live.free
  have hmissing : r.front.missing id = [] ↔
      ∀ s ∈ r.graph.sources id, (∃ e, r.entry? s = some e ∧ e.status.Ended) ∧ s ∉ r.lost := by
    rw [Front.missing_eq_nil]
    exact forall₂_congr fun s _ => hw.isResolved_iff hg s
  rw [← hmissing, entry?_eq_none]
  constructor
  · intro hid
    obtain ⟨hnode, hnew⟩ := hg.live.fresh id hid
    exact ⟨hnode, hnew, (hfree id hnode).2 (Or.inr hid)⟩
  · rintro ⟨hnode, hnew, hnil⟩
    exact ((hfree id hnode).1 hnil).resolve_left hnew

/-! Starting -/

theorem startNode_ready (time : Moment) (id : String) (r : Run) : (r.startNode time id).ready = r.ready := by
  unfold startNode
  cases r.graph.node? id <;> rfl

theorem length_startNode_le (time : Moment) (id : String) (r : Run) :
    (r.startNode time id).tasks.length ≤ r.tasks.length + 1 := by
  unfold startNode
  cases r.graph.node? id with
  | none => exact Nat.le_succ _
  | some n => exact (List.length_append).le

theorem length_startReady_le (h : r.tasks.length ≤ limit) (steps : Nat) :
    (startReady limit time steps r).tasks.length ≤ limit := by
  induction steps generalizing r with
  | zero => exact h
  | succ k ih =>
    unfold startReady
    split
    · exact h
    · next id rest hready =>
      split_ifs with hroom
      · exact ih ((length_startNode_le time id { r with ready := rest }).trans hroom)
      · exact h

theorem starts_startReady {place : String → Nat} (h : r.ready.Pairwise fun a b => place a < place b) (steps : Nat) :
    Starts place r (startReady limit time steps r) := by
  induction steps generalizing r with
  | zero => exact .refl r
  | succ k ih =>
    unfold startReady
    split
    · exact .refl r
    · next id rest hready =>
      rw [hready, List.pairwise_cons] at h
      split_ifs
      · exact .start hready h.1 (ih (by rw [startNode_ready]; exact h.2))
      · exact .refl r

theorem isFinished_complete (hs : r.Sound) (hstop : r.stop = none) : (r.complete time).isFinished = true := by
  cases hf : r.isFinished with
  | true => rw [complete, if_pos hf, hf]
  | false =>
    have hstatus := (complete_spec time hs.wellFormed hs.tasks_nodup hf).2
    rw [hstop] at hstatus
    unfold Run.isFinished ExecutionLog.isFinished
    rw [hstatus]
    split_ifs <;> rfl

/-- A run goes on from a batch as full as it can be. -/
theorem loaded_proceed (hg : q.front.Good) (hlisted : q.graph.Listed q.ready)
    (hbound : q.tasks.length ≤ engine.limit) (hstop : q.stop = none)
    (hu : (q.proceed engine now).isFinished = false) :
    Loaded engine (q.proceed engine now) ∧ Starts q.graph.position q (q.proceed engine now) := by
  obtain ⟨nodes, hs, hgood, hend⟩ :=
    startReady_spec (engine.moment now) engine.limit q.ready.length hg (Nat.le_refl _)
  have hle : (startReady engine.limit (engine.moment now) q.ready.length q).tasks.length ≤ engine.limit :=
    length_startReady_le hbound _
  have hstarts : Starts q.graph.position q (startReady engine.limit (engine.moment now) q.ready.length q) :=
    starts_startReady hlisted _
  unfold proceed at hu ⊢
  rw [if_neg (by simp [stopped, hstop])] at hu ⊢
  dsimp only at hu ⊢
  generalize startReady engine.limit (engine.moment now) q.ready.length q = r at hs hgood hend hle hstarts hu ⊢
  split_ifs at hu ⊢
  · have hsound : r.Sound := hgood.sound
    rw [isFinished_complete hsound (hs.stop.trans hstop)] at hu
    cases hu
  · refine ⟨⟨hle, hend, ?_⟩, hstarts⟩
    rw [hs.graph]
    rw [hs.ready] at hlisted
    exact (List.pairwise_append.1 hlisted).2.1

/-- A batch that does not end the run has not stopped it. -/
theorem BatchEnd.handled_of_unfinished (hf : Ready engine w f) (h : BatchEnd (engine.moment now) f q)
    (hu : (q.proceed engine now).isFinished = false) : Handled (engine.moment now) f.todo f.run q := by
  cases h with
  | calm hb ho => exact (Front.handled_of_beats hb).with_ready _
  | @halted m reason hb hs order =>
    have hstop := Front.halt_stop (engine.moment now) reason (hf.good.beats hb).live
    unfold proceed at hu
    rw [if_pos (by simp [stopped, hstop])] at hu
    exact absurd (hu.symm.trans (hf.closable (Over.halted hb hs order)).covers.finished) Bool.false_ne_true

/-- What a step starts it starts in order, and it leaves as much in flight as it can. -/
structure Fills (engine : Engine) (r r' : Run) : Prop where
  loaded : Loaded engine r'
  starts : ∃ q, q.taskIds.Sublist r.taskIds ∧ Starts r.graph.position q r'

theorem Unbegun.fills_launch (h : r.Unbegun) (hedges : r.edgeStates = [])
    (hu : (r.launch engine now).isFinished = false) : Fills engine r (r.launch engine now) := by
  have hend : BatchEnd (engine.moment now) (firstFront r) (r.admitAll r.graph.roots) :=
    BatchEnd.of_yields (Front.admitAll_yields h.good h.stop)
  have hh : Handled (engine.moment now) [] r (r.admitAll r.graph.roots) :=
    hend.handled_of_unfinished h.ready_firstFront hu
  have hstop := hh.stop.trans h.stop
  have htasks := hh.tasks.trans h.tasks
  obtain ⟨hg, hlisted⟩ := h.listed_admitAll hedges hstop
  obtain ⟨hloaded, hstarts⟩ := loaded_proceed hg hlisted (by rw [htasks]; exact Nat.zero_le _) hstop hu
  rw [hh.graph] at hstarts
  refine ⟨hloaded, r.admitAll r.graph.roots, ?_, hstarts⟩
  rw [taskIds, htasks]
  exact List.nil_sublist _

/-- After a batch the places of the finished tasks are taken. -/
theorem Active.fills_gather (h : Active engine w r) (hl : Loaded engine r)
    (hu : ((r.handleBatch (engine.moment now)).proceed engine now).isFinished = false) :
    Fills engine r ((r.handleBatch (engine.moment now)).proceed engine now) := by
  have hh : Handled (engine.moment now) r.batch r.unfinished (r.handleBatch (engine.moment now)) :=
    (handleBatch_ends _ h.good h.stop).handled_of_unfinished h.ready_batch hu
  have hstop := hh.stop.trans h.stop
  obtain ⟨hg, hlisted⟩ := listed_handleBatch _ h.good h.stop hstop
  have hbound : (r.handleBatch (engine.moment now)).tasks.length ≤ engine.limit := by
    rw [hh.tasks]
    exact (List.length_filter_le _ _).trans hl.bound
  obtain ⟨hloaded, hstarts⟩ := loaded_proceed hg hlisted hbound hstop hu
  have hgraph : (r.handleBatch (engine.moment now)).graph = r.graph := hh.graph
  refine ⟨hloaded, r.handleBatch (engine.moment now), ?_, hgraph ▸ hstarts⟩
  rw [hh.taskIds]
  exact List.filter_sublist.map _

theorem Moved.fills {p : Phase} (hm : Moved id p r r') (hl : Loaded engine r) : Fills engine r r' := by
  obtain ⟨f, g, ht, -, -⟩ := hm
  refine ⟨hl.congr ?_ ht.frame.ready ht.frame.graph, r', ?_, .refl r'⟩
  · rw [ht.tasks, List.length_map]
  · rw [taskIds_eq_of_nodes ht.nodes]

/-- Every step that does not end the run fills it up. -/
theorem Active.fills_step (h : Active engine w r) (hl : Loaded engine r) (hs : Step engine r r')
    (hu : r'.isFinished = false) : Fills engine r r' := by
  cases hs with
  | launch now hb => exact absurd hb.tasks h.tasks
  | @resume now id _ hid =>
    rcases h.resume_cases now id with ⟨t, -, -, p, hm, -⟩ | ⟨-, heq⟩
    · exact (Moved.of_agenda hm).fills hl
    · rw [heq]
      exact ⟨hl.congr rfl rfl rfl, { r with agenda := r.agenda.erase id }, List.Sublist.refl _, .refl _⟩
  | ring _ ht ha =>
    obtain ⟨p, hm, -⟩ := goesOn_ring (r := r) (h.fits _ ht) ha
    exact hm.fills hl
  | gather now _ _ => exact h.fills_gather hl hu

variable {r₀ : Run}

theorem Unbegun.fills_step (h : r.Unbegun) (hedges : r.edgeStates = []) (hs : Step engine r r')
    (hu : r'.isFinished = false) : Fills engine r r' := by
  obtain ⟨now, rfl⟩ := h.step hs
  exact h.fills_launch hedges hu

/-- At every moment of its life a run that is in flight is as full as it can be. -/
theorem Life.loaded {cancelled raised : Bool} (hlimit : 0 < engine.limit) (h₀ : r₀.Unbegun)
    (hedges : r₀.edgeStates = []) (h : Life engine r₀ cancelled raised r) (hu : r.isFinished = false) :
    r = r₀ ∨ Active engine r₀.workflow r ∧ Loaded engine r := by
  have hstep : ∀ {r r' : Run}, (r = r₀ ∨ Active engine r₀.workflow r ∧ Loaded engine r) → Underway engine r₀ r' →
      Step engine r r' → r'.isFinished = false → r' = r₀ ∨ Active engine r₀.workflow r' ∧ Loaded engine r' := by
    rintro r r' hr hunder' hs hu'
    refine hunder'.imp_right fun ha => ⟨ha, ?_⟩
    rcases hr with rfl | ⟨ha, hl⟩
    · exact (h₀.fills_step hedges hs hu').loaded
    · exact (ha.fills_step hl hs hu').loaded
  induction h with
  | start => exact Or.inl rfl
  | step hl hs hr ih => exact hstep (ih hs.unfinished) (Life.underway hlimit h₀ (.step hl hs hr) hu) hs hu
  | raise hl hr ih => exact hstep (ih hr.step.unfinished) (Life.underway hlimit h₀ (.raise hl hr) hu) hr.step hu
  | @cancel _ _ r hl time ih =>
    have hf : (r.cancel time).isFinished = true := by
      cases hr : r.isFinished with
      | true => rwa [Run.isFinished, cancel_of_finished time hr]
      | false => exact (hl.underway hlimit h₀ hr).cancel_finished time h₀
    exact absurd (hu.symm.trans hf) Bool.false_ne_true

/-- At every moment no more nodes are running than the limit allows. While a run waits, the nodes that may run
and have not been started are those without an entry whose sources have all ended, none of them cancelled from
within, and if there is one the limit is reached. A step starts nodes one by one, each the first in the node list of
those that may run; the step that ends a run starts none. -/
theorem life_occupancy (hlimit : 0 < engine.limit) (hv : w.validate.valid = true) (inputs secrets : Fields)
    (executionId : String) (now : Nat) {cancelled raised : Bool}
    (h : Life engine (start w inputs secrets executionId (engine.moment now)) cancelled raised r)
    (hu : r.isFinished = false) :
    r.running.length ≤ engine.limit ∧
      (r.Waits → (r.ready ≠ [] → r.running.length = engine.limit) ∧
        ∀ id, id ∈ r.ready ↔ id ∈ w.nodeIds ∧ r.entry? id = none ∧
          ∀ s ∈ (Graph.ofWorkflow w).sources id, (∃ e, r.entry? s = some e ∧ e.status.Ended) ∧ s ∉ r.lost) ∧
      ∀ r', Step engine r r' →
        (r'.isFinished = false → ∃ q, q.taskIds.Sublist r.taskIds ∧ Starts w.nodeIds.idxOf q r') ∧
          (r'.isFinished = true → ∀ e ∈ r'.log.nodeLogs, e.nodeId ∉ r.entryIds → e.status = .skipped) := by
  have h₀ := unbegun_start w inputs secrets executionId (engine.moment now)
  have hplace := Graph.position_ofWorkflow (Workflow.valid_iff.1 hv).2.nodup_nodes
  have hend : ∀ r', Step engine r r' → r'.isFinished = true →
      ∀ e ∈ r'.log.nodeLogs, e.nodeId ∉ r.entryIds → e.status = .skipped := fun r' hs hf => by
    have hunder := h.underway hlimit h₀ hu
    rcases hunder.step_skips hlimit h₀ hs with ha | ⟨-, hskips⟩
    · exact absurd (ha.unfinished.symm.trans hf) Bool.false_ne_true
    · exact hskips.unstarted
  rcases h.loaded hlimit h₀ rfl hu with rfl | ⟨ha, hl⟩
  · refine ⟨Nat.zero_le _, fun hw => absurd rfl hw.inFlight, fun r' hs => ⟨fun hu' => ?_, hend r' hs⟩⟩
    exact hplace ▸ (h₀.fills_step rfl hs hu').starts
  · have hgraph : r.graph = Graph.ofWorkflow w := ha.graph
    refine ⟨hl.running_le ha.good, fun hw => ⟨hl.running_eq ha.good hw, fun id => ?_⟩,
      fun r' hs => ⟨fun hu' => ?_, hend r' hs⟩⟩
    · rw [hw.mem_ready ha.good, hgraph, Graph.mem_nodeIds_ofWorkflow]
    · rw [← hplace, ← hgraph]
      exact (ha.fills_step hl hs hu').starts

end

def narrowEngine : Engine :=
  { plainEngine with limit := 1 }

def twoDoors : Workflow where
  id := "doors"
  name := "Two doors"
  version := "1"
  nodes := [{ id := "a", type := .trigger, provider := "trigger", operation := "manual" },
    { id := "b", type := .trigger, provider := "trigger", operation := "manual" }]

theorem launch_twoDoors :
    (start twoDoors [] [] "run" (narrowEngine.moment 0)).launch narrowEngine 0 =
      (decideAll 4 ["a", "b"] (start twoDoors [] [] "run" (narrowEngine.moment 0))).proceed narrowEngine 0 := by
  set r₀ := start twoDoors [] [] "run" (narrowEngine.moment 0)
  have hroots : r₀.graph.roots = ["a", "b"] := by decide +kernel
  rw [launch_of_sorted (by decide +kernel), hroots]
  rfl

theorem life_occupancy_twoDoors :
    let r₀ := start twoDoors [] [] "run" (narrowEngine.moment 0)
    let r := r₀.launch narrowEngine 0
    (0 < narrowEngine.limit ∧ twoDoors.validate.valid = true ∧ Life narrowEngine r₀ false false r ∧
        r.isFinished = false) ∧ r.ready = ["b"] ∧ r.running.length = narrowEngine.limit := by
  intro r₀ r
  have hlimit : 0 < narrowEngine.limit := by decide
  have hvalid : twoDoors.validate.valid = true := by decide +kernel
  have hlaunch : r = (decideAll 4 ["a", "b"] r₀).proceed narrowEngine 0 := launch_twoDoors
  have hu : r.isFinished = false := by
    rw [hlaunch]
    decide +kernel
  have hready : r.ready = ["b"] := by
    rw [hlaunch]
    decide +kernel
  have hwaits : r.Waits := by
    refine ⟨hu, ?_, ?_⟩
    · rw [hlaunch, Ne, ← List.isEmpty_iff]
      decide +kernel
    · rw [hlaunch]
      decide +kernel
  have h₀ : r₀.Unbegun := unbegun_start twoDoors [] [] "run" _
  have hcalm : ¬ Raising narrowEngine r₀ r := fun hr =>
    absurd (hu.symm.trans (h₀.finished_of_raising hr)) Bool.false_ne_true
  have hlife : Life narrowEngine r₀ false false r := .step .start (Step.launch 0 h₀) hcalm
  obtain ⟨-, hfull, -⟩ := life_occupancy hlimit hvalid [] [] "run" 0 hlife hu
  exact ⟨⟨hlimit, hvalid, hlife, hu⟩, hready, (hfull hwaits).1 (by rw [hready]; exact List.cons_ne_nil _ _)⟩

end Run

end Flowgraph
