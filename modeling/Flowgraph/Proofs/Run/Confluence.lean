import Flowgraph.Proofs.Run.Course
import Flowgraph.Proofs.Run.Fate
import Flowgraph.Proofs.Validation.Model

/-! When it is settled beforehand how nodes end that are run and which guards hold, and failures are contained,
all runs of a valid workflow come to the same end: every node meets its fate, however its tasks were timed and
however many ran side by side. -/

namespace Flowgraph

open Relation (ReflTransGen)

namespace Forecast

/-- A run is as forecast at this moment: the tasks that have ended did so as settled, and so come out the
guards that the next handling looks at. -/
structure Agrees (o : Forecast) (r : Run) : Prop where
  ended : ∀ t ∈ r.tasks, ∀ x, t.phase.ending? = some x → o.outcome t.node.id = x
  launch : r.Unbegun → ∀ time, (Run.firstFront r).Regular o time
  gather : ∀ time, r.batchFront.Regular o time

/-- What the fate of the nodes asks of a workflow: connections that can be told apart, no cycle, and that
the nodes which fail are contained. -/
structure Suits (o : Forecast) (w : Workflow) : Prop where
  edges : ((Graph.ofWorkflow w).edges.map Edge.id).Nodup
  acyclic : (Graph.ofWorkflow w).Acyclic
  contained : ∀ n ∈ (Graph.ofWorkflow w).nodes, o.fate (Graph.ofWorkflow w) n.id = .failed →
    Policy.contains w (Graph.ofWorkflow w) n = true

theorem suits_of_valid {o : Forecast} {w : Workflow} (h : w.validate.valid = true)
    (hc : ∀ n ∈ (Graph.ofWorkflow w).nodes, o.fate (Graph.ofWorkflow w) n.id = .failed →
      Policy.contains w (Graph.ofWorkflow w) n = true) : o.Suits w := by
  obtain ⟨-, hw⟩ := Workflow.valid_iff.1 h
  exact ⟨hw.nodup_edges.sublist (List.filter_sublist.map _), hw.acyclic, hc⟩

/-- A log in which every node has met its fate. -/
structure Fulfilled (o : Forecast) (w : Workflow) (log : ExecutionLog) : Prop where
  covers : Covers w log
  statuses : ∀ e ∈ log.nodeLogs, e.status = (o.fate (Graph.ofWorkflow w) e.nodeId).status
  status : log.status =
    if ∃ id ∈ w.nodeIds, (o.fate (Graph.ofWorkflow w) id).status = .failed then .failed else .success

end Forecast

namespace Run

open Front Forecast

section
variable {engine : Engine} {w : Workflow} {o : Forecast} {ending : String → Ending} {r r' m : Run}
  {f : Front} {id : String} {p : Phase} {time : Moment}

theorem Fated.moved (h : r.front.Fated o ending) (hid : id ∈ r.taskIds) (hm : Moved id p r r') :
    r'.front.Fated o ending := by
  obtain ⟨g, g', ht, -, -⟩ := hm
  have htasks : r'.taskIds = r.taskIds := taskIds_eq_of_nodes ht.nodes
  have hopened := opened_front r
  have hopened' := opened_front r'
  have hres : ∀ x, r'.front.isResolved x = true → r.front.isResolved x = true := fun x hx => by
    rw [isResolved_iff] at hx ⊢
    rw [hopened', htasks] at hx
    rw [hopened]
    exact ⟨ht.entryIds ▸ hx.1, hx.2.1, ht.frame.lost ▸ hx.2.2⟩
  refine ⟨fun e he hr => ?_, fun x hx => h.told x (hres x hx), fun x hx => h.lost x (ht.frame.lost ▸ hx),
    fun e' he' hnot => ?_, fun x hx => ?_, List.forall_mem_nil _⟩
  · have hstate : r'.edgeState e = r.edgeState e := by
      unfold edgeState
      rw [ht.frame.edgeStates]
    change r'.edgeState e = _
    rw [hstate]
    exact h.edges e (ht.frame.graph ▸ he) (hres _ hr)
  · change e' ∈ r'.log.nodeLogs at he'
    rw [hopened', htasks] at hnot
    rw [ht.entries] at he'
    obtain ⟨e, he, rfl⟩ := List.mem_map.1 he'
    split_ifs at hnot ⊢ with hself
    · rw [ht.nodeId e, hself] at hnot
      exact absurd hid hnot
    · exact h.entries e he (hopened ▸ hnot)
  · rw [hopened', htasks] at hx
    change x ∈ r'.ready ++ r.taskIds at hx
    rw [ht.frame.ready] at hx
    exact h.admitted x (hopened ▸ hx)

/-- The tasks that have finished leave with the outcome that was settled. -/
theorem Fated.batchFront (h : r.front.Fated o ending) (ho : o.Agrees r) : r.batchFront.Fated o ending := by
  have hperm := perm_opened_batchFront r
  have hopened := opened_front r
  have hres : ∀ x, r.batchFront.isResolved x = true → r.front.isResolved x = true := fun x hx => by
    rw [isResolved_iff, hperm.mem_iff] at hx
    rw [isResolved_iff, hopened]
    exact hx
  refine ⟨fun e he hr => h.edges e he (hres _ hr), fun x hx => h.told x (hres x hx), h.lost, fun e he hnot => ?_,
    fun x hx => ?_, fun t ht => ho.ended t (mem_batch.1 ht).1⟩
  · exact h.entries e he fun hid => hnot (hperm.mem_iff.2 (hopened ▸ hid))
  · refine h.admitted x ?_
    rw [List.mem_append, hperm.mem_iff] at hx
    rw [List.mem_append, hopened]
    exact hx

theorem Unbegun.fated (h : r.Unbegun) : (firstFront r).Fated o ending := by
  have hopened : (firstFront r).opened = [] := by simp [Front.opened, firstFront, taskIds, h.tasks]
  have hres : ∀ x, ¬ (firstFront r).isResolved x = true := fun x hx => by
    obtain ⟨hx, -⟩ := isResolved_iff.1 hx
    change x ∈ r.entryIds at hx
    rw [entryIds, h.entries] at hx
    cases hx
  refine ⟨fun e _ hr => absurd hr (hres _), fun x hx => absurd hx (hres x), fun x hx => ?_, fun e he => ?_,
    fun x hx => ?_, List.forall_mem_nil _⟩
  · change x ∈ r.lost at hx
    rw [h.lost] at hx
    cases hx
  · change e ∈ r.log.nodeLogs at he
    rw [h.entries] at he
    cases he
  · rw [hopened] at hx
    change x ∈ r.ready ++ [] at hx
    rw [h.ready] at hx
    cases hx

/-- Starting ready nodes opens nodes that were admitted. -/
theorem Fated.started {nodes : List Node} (h : r.front.Fated o ending) (hs : Started time nodes r r') :
    r'.front.Fated o ending := by
  refine ⟨fun e he hr => ?_, fun x hx => h.told x (hs.resolved_before hx), fun x hx => h.lost x (hs.lost ▸ hx),
    fun e he hnot => ?_, fun x hx => ?_, List.forall_mem_nil _⟩
  · have hstate : r'.edgeState e = r.edgeState e := by
      unfold edgeState
      rw [hs.edgeStates]
    change r'.edgeState e = _
    rw [hstate]
    exact h.edges e (hs.graph ▸ he) (hs.resolved_before hr)
  · change e ∈ r'.log.nodeLogs at he
    rw [hs.opened, List.mem_append, not_or] at hnot
    rw [hs.log] at he
    rcases List.mem_append.1 he with he | he
    · exact h.entries e he hnot.1
    · obtain ⟨n, hn, rfl⟩ := List.mem_map.1 he
      exact absurd (List.mem_map_of_mem hn) hnot.2
  · refine h.admitted x ?_
    rw [hs.opened] at hx
    change x ∈ r'.ready ++ (r.front.opened ++ nodes.map Node.id) at hx
    change x ∈ r.ready ++ r.front.opened
    rw [hs.ready]
    simp only [List.mem_append] at hx ⊢
    tauto

theorem Ready.graph (hf : Ready engine w f) : f.run.graph = Graph.ofWorkflow w := by
  rw [hf.good.sound.graph, hf.workflow]

theorem Suits.nodup_edges (ho : o.Suits w) (hf : Ready engine w f) : (f.run.graph.edges.map Edge.id).Nodup := by
  rw [hf.graph]
  exact ho.edges

theorem Suits.next_eq (ho : o.Suits w) (hf : Ready engine w f) :
    ∀ id ∈ f.run.graph.nodeIds, o.fate (Graph.ofWorkflow w) id = o.next f.run.graph (o.fate (Graph.ofWorkflow w)) id := by
  rw [hf.graph]
  exact fun id hid => fate_eq (Graph.ofWorkflow_wellFormed w) ho.acyclic hid

/-- Handling a front and starting ready nodes keeps to the fate of the nodes. -/
theorem Fated.continues (h : f.Fated o (o.fate (Graph.ofWorkflow w))) (hf : Ready engine w f) (ho : o.Suits w)
    (hreg : f.Regular o time) (hc : Continues f time r) : r.front.Fated o (o.fate (Graph.ofWorkflow w)) := by
  obtain @⟨q, _, order, nodes, hb, hperm, hs, -⟩ := hc
  have hq : q.front.Fated o (o.fate (Graph.ofWorkflow w)) :=
    h.beats hf.good (Suits.nodup_edges ho hf) (Suits.next_eq ho hf) hreg hb
  refine Fated.started (r := { q with ready := order })
    ⟨hq.edges, hq.told, hq.lost, hq.entries, fun x hx => hq.admitted x ?_, hq.todo⟩ hs
  rw [List.mem_append] at hx ⊢
  exact hx.imp_left hperm.mem_iff.1

/-- Along the dependency order: once nothing is open and nothing waits to be started, a node has been decided
whose sources have all been resolved, and no other node ever is. -/
theorem Fated.entered_or (h : r.front.Fated o ending) (hg : r.front.Good) (ht : r.tasks = []) (hr : r.ready = [])
    (hac : r.graph.Acyclic) (hw : r.graph.WellFormed)
    (hnext : ∀ id ∈ r.graph.nodeIds, ending id = o.next r.graph ending id) :
    ∀ id ∈ r.graph.nodeIds, id ∈ r.entryIds ∨ ending id = .unreached := by
  have hopened : r.front.opened = [] := by
    rw [opened_front, taskIds, ht]
    rfl
  refine hac.induction hw fun id hid ih => ?_
  by_cases hnil : r.front.missing id = []
  · refine Or.inl (((hg.live.free id hid).1 hnil).resolve_right fun hready => ?_)
    change id ∈ [] ++ r.ready at hready
    rw [hr] at hready
    cases hready
  · obtain ⟨s, hs⟩ := List.exists_mem_of_ne_nil _ hnil
    obtain ⟨hleads, hunresolved⟩ := mem_missing.1 hs
    have hsource : s ∈ r.graph.sources id := Graph.mem_sources.2 hleads
    have huntold : (ending s).isTold = false := by
      rcases ih s hsource with he | hun
      · have hlost : s ∈ r.lost := by
          by_contra hnot
          rw [Bool.eq_false_iff, Ne, isResolved_iff, hopened] at hunresolved
          exact hunresolved ⟨he, List.not_mem_nil, hnot⟩
        rw [h.lost s hlost]
        rfl
      · rw [hun]
        rfl
    refine Or.inr ((hnext id hid).trans (if_neg fun hall => ?_))
    have := List.all_eq_true.1 hall s hsource
    rw [huntold] at this
    cases this

/-- The handling of a front is not cut short: nothing raises, and failures are contained. -/
theorem Fated.not_halted {reason : String} {m : Front} (h : f.Fated o (o.fate (Graph.ofWorkflow w)))
    (hf : Ready engine w f) (ho : o.Suits w) (hreg : f.Regular o time) (hb : ReflTransGen (Beat time) f m) :
    ¬ Stops m reason := by
  have hm : m.Fated o (o.fate (Graph.ofWorkflow w)) :=
    h.beats hf.good (Suits.nodup_edges ho hf) (Suits.next_eq ho hf) hreg hb
  refine hm.not_stops (hf.good.beats hb).live (hreg.beats hb) fun id hid => ?_
  have hh := handled_of_beats hb
  have hgraph : m.run.graph = Graph.ofWorkflow w := hh.graph.trans hf.graph
  have hworkflow : m.run.workflow = w := hh.workflow.trans hf.workflow
  rw [contained, hgraph, hworkflow]
  cases hn : (Graph.ofWorkflow w).node? id with
  | none => rfl
  | some n => exact ho.contained n (Graph.node?_mem hn) (Graph.node?_some_id hn ▸ hid)

/-- Bringing a run to its end that nothing has stopped only skips the nodes without an entry. -/
theorem complete_of_unstopped (time : Moment) (hw : r.graph.WellFormed) (hn : r.taskIds.Nodup)
    (hu : r.isFinished = false) (hs : r.stop = none) :
    (r.complete time).log.nodeLogs = r.log.nodeLogs ++ r.unentered.map skippedEntry := by
  have hclosed : r.closed time = id := by
    funext e
    simp [closed, hs]
  rw [(complete_spec time hw hn hu).1, hclosed, List.map_id]

/-- When a run is over all nodes have met their fate. -/
theorem Fated.over (h : f.Fated o (o.fate (Graph.ofWorkflow w))) (hf : Ready engine w f) (ho : o.Suits w)
    (hreg : f.Regular o time) (hover : Over f time m) : o.Fulfilled w (m.complete time).log := by
  have hclose := hf.closable hover
  have hcovers : Covers w (m.complete time).log := hclose.covers
  cases hover with
  | halted hb hs order => exact absurd hs (Fated.not_halted h hf ho hreg hb)
  | done hc ht hr =>
    have hm := Fated.continues h hf ho hreg hc
    have hstop : m.stop = none := by
      obtain ⟨hb, -, hs, -⟩ := hc
      exact hs.stop.trans ((handled_of_beats hb).stop.trans hf.stop)
    obtain ⟨-, -, -, hg⟩ := hc
    have hgraph : m.graph = Graph.ofWorkflow w := by rw [hclose.sound.graph, hclose.workflow]
    have hwell := hclose.sound.wellFormed
    have hnext : ∀ id ∈ m.graph.nodeIds, o.fate (Graph.ofWorkflow w) id =
        o.next m.graph (o.fate (Graph.ofWorkflow w)) id := fun id hid => by
      rw [hgraph] at hid ⊢
      exact fate_eq (Graph.ofWorkflow_wellFormed w) ho.acyclic hid
    have hentered := Fated.entered_or hm hg ht hr (hgraph ▸ ho.acyclic) hwell hnext
    have hlog := complete_of_unstopped time hwell hclose.sound.tasks_nodup hclose.unfinished hstop
    have hstatuses : ∀ e ∈ (m.complete time).log.nodeLogs,
        e.status = (o.fate (Graph.ofWorkflow w) e.nodeId).status := by
      rw [hlog]
      intro e he
      rcases List.mem_append.1 he with he | he
      · refine hm.entries e he ?_
        rw [opened_front, taskIds, ht]
        exact List.not_mem_nil
      · obtain ⟨id, hid, rfl⟩ := List.mem_map.1 he
        obtain ⟨hmem, hnot⟩ := List.mem_filter.1 hid
        have hun := (hentered id (Graph.mem_sweepOrder.1 hmem)).resolve_left (by simpa using hnot)
        exact (congrArg Ending.status hun).symm
    have hstatus := (complete_spec time hwell hclose.sound.tasks_nodup hclose.unfinished).2
    rw [hstop] at hstatus
    refine ⟨hcovers, hstatuses, hstatus.trans (if_congr ?_ rfl rfl)⟩
    constructor
    · rintro ⟨e, he, hf⟩
      exact ⟨e.nodeId, (hcovers.mem _).1 (List.mem_map_of_mem he), (hstatuses e he).symm.trans hf⟩
    · rintro ⟨id, hid, hf⟩
      obtain ⟨e, he, rfl⟩ := List.mem_map.1 ((hcovers.mem id).2 hid)
      exact ⟨e, he, (hstatuses e he).trans hf⟩

/-- A step of an active run that is as forecast keeps to the fate of the nodes, and the last one fulfils it. -/
theorem Active.fated_step (hlimit : 0 < engine.limit) (h : Active engine w r) (ho : o.Suits w)
    (hr : o.Agrees r) (hf : r.front.Fated o (o.fate (Graph.ofWorkflow w))) (hs : Step engine r r') :
    Active engine w r' ∧ r'.front.Fated o (o.fate (Graph.ofWorkflow w)) ∨ o.Fulfilled w r'.log := by
  cases hs with
  | launch now hb => exact absurd hb.tasks h.tasks
  | @resume now id hu hid =>
    refine Or.inl ⟨(h.resume hid).1, ?_⟩
    rcases h.resume_cases now id with ⟨t, ht, -, p, hm, -⟩ | ⟨-, heq⟩
    · obtain rfl := task?_id ht
      exact Fated.moved hf (mem_taskIds.2 ⟨t, ht⟩) (Moved.of_agenda hm)
    · rw [heq]
      exact ⟨hf.edges, hf.told, hf.lost, hf.entries, hf.admitted, hf.todo⟩
  | ring hu ht ha =>
    obtain ⟨p, hm, -⟩ := goesOn_ring (r := r) (h.fits _ ht) ha
    exact Or.inl ⟨(h.ring ht ha).1, Fated.moved hf (List.mem_map_of_mem ht) hm⟩
  | gather now hu hany =>
    have hbatch := Fated.batchFront hf hr
    rcases h.gather now hlimit hany with ⟨ha, -, hc⟩ | ⟨m, hm, heq⟩
    · exact Or.inl ⟨ha, Fated.continues hbatch h.ready_batch ho (hr.gather _) hc⟩
    · rw [heq]
      exact Or.inr (Fated.over hbatch h.ready_batch ho (hr.gather _) hm)

theorem Unbegun.fated_step (hlimit : 0 < engine.limit) (h : r.Unbegun) (ho : o.Suits r.workflow)
    (hr : o.Agrees r) (hs : Step engine r r') :
    Active engine r.workflow r' ∧ r'.front.Fated o (o.fate (Graph.ofWorkflow r.workflow)) ∨
      o.Fulfilled r.workflow r'.log := by
  obtain ⟨now, rfl⟩ := h.step hs
  have hready : Ready engine r.workflow (firstFront r) := h.ready_firstFront
  have hfirst : (firstFront r).Fated o (o.fate (Graph.ofWorkflow r.workflow)) := Unbegun.fated h
  rcases h.launch now hlimit with ⟨ha, -, hc⟩ | ⟨m, hm, heq⟩
  · exact Or.inl ⟨ha, Fated.continues hfirst hready ho (hr.launch h _) hc⟩
  · rw [heq]
    exact Or.inr (Fated.over hfirst hready ho (hr.launch h _) hm)

/-- A run that has always been as forecast. -/
def Foreseen (o : Forecast) (engine : Engine) (r r' : Run) : Prop :=
  ReflTransGen (fun q q' => o.Agrees q ∧ Step engine q q') r r'

theorem Unbegun.fated_steps (hlimit : 0 < engine.limit) (h : r.Unbegun) (ho : o.Suits r.workflow)
    (hs : Foreseen o engine r r') :
    r' = r ∨ Active engine r.workflow r' ∧ r'.front.Fated o (o.fate (Graph.ofWorkflow r.workflow)) ∨
      o.Fulfilled r.workflow r'.log := by
  induction hs with
  | refl => exact Or.inl rfl
  | tail _ hstep ih =>
    obtain ⟨hr, hstep⟩ := hstep
    rcases ih with rfl | ⟨ha, hf⟩ | hdone
    · exact Or.inr (h.fated_step hlimit ho hr hstep)
    · exact Or.inr (ha.fated_step hlimit ho hr hf hstep)
    · have hu := hstep.unfinished
      rw [Run.isFinished, hdone.covers.finished] at hu
      cases hu

/-- Without interruptions every node gets to know how its sources ended. -/
theorem isTold_fate {g : Graph} (hg : g.WellFormed) (hac : g.Acyclic) (h : ∀ id, (o.outcome id).isTold = true) :
    ∀ id ∈ g.nodeIds, (o.fate g id).isTold = true := by
  refine hac.induction hg fun id hid ih => ?_
  rw [fate_eq hg hac hid, next, if_pos (List.all_eq_true.2 ih)]
  split_ifs
  · exact h id
  · rfl

/-- The fate of the nodes is the one solution of its recursion, in which without interruptions every node is either
run or skipped, and every run of a valid workflow that is as forecast and finishes by itself fulfils it: neither the
engine nor the order of steps has a part in it. -/
theorem foreseen_fulfilled (o : Forecast) (w : Workflow) (hw : w.validate.valid = true)
    (hc : ∀ n ∈ (Graph.ofWorkflow w).nodes, o.fate (Graph.ofWorkflow w) n.id = .failed →
      Policy.contains w (Graph.ofWorkflow w) n = true) :
    (∀ ending : String → Ending,
        (∀ id ∈ w.nodeIds, ending id = o.next (Graph.ofWorkflow w) ending id) ↔
          ∀ id ∈ w.nodeIds, ending id = o.fate (Graph.ofWorkflow w) id) ∧
      ((∀ id, (o.outcome id).isTold = true) → ∀ id ∈ w.nodeIds, o.fate (Graph.ofWorkflow w) id =
        if o.admits (Graph.ofWorkflow w) (fun s => (o.fate (Graph.ofWorkflow w) s).status) id then o.outcome id
        else .skipped) ∧
      ∀ (engine : Engine) (inputs secrets : Fields) (executionId : String) (now : Nat) (r : Run),
        0 < engine.limit → Foreseen o engine (start w inputs secrets executionId (engine.moment now)) r →
          r.isFinished = true → o.Fulfilled w r.log := by
  have ho := suits_of_valid hw hc
  have hg := Graph.ofWorkflow_wellFormed w
  refine ⟨fun ending => ?_, fun htold id hid => ?_, fun engine inputs secrets executionId now r hlimit hs hf => ?_⟩
  · simp only [← Graph.mem_nodeIds_ofWorkflow]
    refine ⟨eq_fate hg ho.acyclic, fun h id hid => ?_⟩
    rw [h id hid, fate_eq hg ho.acyclic hid]
    exact next_congr fun s hs => (h s (hg.leads_mem (Graph.mem_sources.1 hs)).1).symm
  · have hid' := Graph.mem_nodeIds_ofWorkflow.2 hid
    refine (fate_eq hg ho.acyclic hid').trans (if_pos (List.all_eq_true.2 fun s hs => ?_))
    exact isTold_fate hg ho.acyclic htold s (hg.leads_mem (Graph.mem_sources.1 hs)).1
  · have h₀ := unbegun_start w inputs secrets executionId (engine.moment now)
    rcases h₀.fated_steps hlimit ho hs with rfl | ⟨ha, -⟩ | hdone
    · rw [h₀.unfinished] at hf
      cases hf
    · rw [ha.unfinished] at hf
      cases hf
    · exact hdone

/-- Every task that has ended and every guard comes out as settled at this moment, whether it is looked at or not. -/
def Constant (o : Forecast) (r : Run) : Bool :=
  (r.tasks.all fun t => t.phase.ending?.all fun x => o.outcome t.node.id = x) &&
    (r.graph.edges.all fun e => e.guard?.all fun text =>
      (r.scope.evaluate none text).toOption = some (o.gate e.id)) &&
    r.graph.nodes.all fun n => n.guard?.all fun text =>
      (r.scope.evaluate none text).toOption = some (o.guard n.id)

theorem regular_of_constant {q : Run} (h : Constant o q = true) (hg : f.run.graph = q.graph)
    (hs : f.run.scope = q.scope) : f.Regular o time := by
  have hok : ∀ {x : Except Failure Bool} {b : Bool}, x.toOption = some b → x = .ok b := by
    rintro (_ | _) b ⟨⟩
    rfl
  intro r todo id rest hb
  have hh := handled_of_beats hb
  have hgraph : r.graph = q.graph := hh.graph.trans hg
  have hscope : r.scope = q.scope := hh.scope.trans hs
  rw [Constant, Bool.and_eq_true, Bool.and_eq_true, List.all_eq_true, List.all_eq_true, List.all_eq_true] at h
  refine ⟨fun e he _ text htext => ?_, fun n hn text htext => ?_⟩
  · have hgate := h.1.2 e (hgraph ▸ List.mem_of_mem_filter he)
    rw [htext, Option.all_some, decide_eq_true_eq] at hgate
    rw [hscope]
    exact hok hgate
  · have hguard := h.2 n (hgraph ▸ Graph.node?_mem hn)
    rw [htext, Option.all_some, decide_eq_true_eq, Graph.node?_some_id hn] at hguard
    rw [hscope]
    exact hok hguard

/-- Guards that keep their truth value all the time do so when they are looked at. -/
theorem agrees_of_constant (h : Constant o r = true) : o.Agrees r := by
  refine ⟨fun t ht x hx => ?_, fun _ _ => regular_of_constant h rfl rfl, fun _ => regular_of_constant h rfl rfl⟩
  rw [Constant, Bool.and_eq_true, Bool.and_eq_true, List.all_eq_true] at h
  have hended := h.1.1 t ht
  rw [hx, Option.all_some, decide_eq_true_eq] at hended
  exact hended

def rescue : Workflow where
  id := "rescue"
  name := "Rescue"
  version := "1"
  settings := { errorHandling := .continueOnError }
  nodes := [{ id := "in", type := .trigger, provider := "trigger", operation := "manual" },
    { id := "aid", type := .action, provider := "core", operation := "noop" },
    { id := "out", type := .action, provider := "core", operation := "noop" }]
  edges := [{ id := "e", source := "in", target := "aid", type := .error },
    { id := "f", source := "aid", target := "out" }]

def bareEngine : Engine :=
  { plainEngine with registry := Registry.empty }

theorem foreseen_fulfilled_rescue :
    ∃ o r, (rescue.validate.valid = true ∧
        (∀ n ∈ (Graph.ofWorkflow rescue).nodes, o.fate (Graph.ofWorkflow rescue) n.id = .failed →
          Policy.contains rescue (Graph.ofWorkflow rescue) n = true) ∧
        (∀ id, (o.outcome id).isTold = true) ∧ 0 < bareEngine.limit ∧
        Foreseen o bareEngine (start rescue [] [] "run" (bareEngine.moment 0)) r ∧ r.isFinished = true) ∧
      o.Fulfilled rescue r.log ∧ r.log.nodeLogs.map NodeLog.status = [.failed, .failed, .skipped] := by
  let o : Forecast := ⟨fun _ => .failed, fun _ => true, fun _ => true⟩
  let r₀ := start rescue [] [] "run" (bareEngine.moment 0)
  let r₁ := r₀.launch bareEngine 0
  let r₂ := r₁.resume bareEngine 1 "in"
  let r₃ := (r₂.handleBatch (bareEngine.moment 2)).proceed bareEngine 2
  let r₄ := r₃.resume bareEngine 3 "aid"
  let r₅ := (r₄.handleBatch (bareEngine.moment 4)).proceed bareEngine 4
  have hvalid : rescue.validate.valid = true := by decide +kernel
  have hlimit : 0 < bareEngine.limit := by decide
  have hcontained : ∀ n ∈ (Graph.ofWorkflow rescue).nodes, o.fate (Graph.ofWorkflow rescue) n.id = .failed →
      Policy.contains rescue (Graph.ofWorkflow rescue) n = true := by decide +kernel
  have h₀ : o.Agrees r₀ := agrees_of_constant (by decide +kernel)
  have h₁ : o.Agrees r₁ := agrees_of_constant (by decide +kernel)
  have h₂ : o.Agrees r₂ := agrees_of_constant (by decide +kernel)
  have h₃ : o.Agrees r₃ := agrees_of_constant (by decide +kernel)
  have h₄ : o.Agrees r₄ := agrees_of_constant (by decide +kernel)
  have hrun : Foreseen o bareEngine r₀ r₅ :=
    ((((ReflTransGen.single ⟨h₀, Step.launch 0 (unbegun_start rescue [] [] "run" (bareEngine.moment 0))⟩).tail
      ⟨h₁, Step.resume 1 (by decide +kernel) (by decide +kernel)⟩).tail
      ⟨h₂, Step.gather 2 (by decide +kernel) (by decide +kernel)⟩).tail
      ⟨h₃, Step.resume 3 (by decide +kernel) (by decide +kernel)⟩).tail
      ⟨h₄, Step.gather 4 (by decide +kernel) (by decide +kernel)⟩
  have hfinished : r₅.isFinished = true := by decide +kernel
  refine ⟨o, r₅, ⟨hvalid, hcontained, fun _ => rfl, hlimit, hrun, hfinished⟩, ?_, by decide +kernel⟩
  exact (foreseen_fulfilled o rescue hvalid hcontained).2.2 bareEngine [] [] "run" 0 r₅ hlimit hrun hfinished

def guardedTrigger : Workflow where
  id := "guarded"
  name := "Guarded trigger"
  version := "1"
  nodes := [
    { id := "in", type := .trigger, provider := "trigger", operation := "manual"
      condition := some { expression := some "False" } }]

def cancellingEngine : Engine :=
  { plainEngine with
    registry := ⟨[{ provider := "trigger", operation := "manual"
                    executor := some ⟨false, fun _ => Effort.failed ⟨.cancelled, ""⟩⟩ }]⟩ }

/-- A node without incoming connections need not be run: its own guard counts all the same. And where an executor
raises a cancellation its node has failed, yet the step for that case is skipped. -/
theorem guardedTrigger_skipped :
    (∃ o r, (guardedTrigger.validate.valid = true ∧ (∀ id, o.outcome id = .success) ∧ 0 < plainEngine.limit ∧
        Foreseen o plainEngine (start guardedTrigger [] [] "run" (plainEngine.moment 0)) r ∧ r.isFinished = true) ∧
      ¬ ∀ e ∈ r.log.nodeLogs, ((Graph.ofWorkflow guardedTrigger).incoming e.nodeId).isEmpty = true →
        e.status = (o.outcome e.nodeId).status) ∧
    ∃ o r, (rescue.validate.valid = true ∧
        (∀ n ∈ (Graph.ofWorkflow rescue).nodes, Policy.contains rescue (Graph.ofWorkflow rescue) n = true) ∧
        0 < cancellingEngine.limit ∧
        Foreseen o cancellingEngine (start rescue [] [] "run" (cancellingEngine.moment 0)) r ∧
        r.isFinished = true) ∧
      r.log.nodeLogs.map (fun e => (e.nodeId, e.status)) = [("in", .failed), ("aid", .skipped), ("out", .skipped)] := by
  constructor
  · let o : Forecast := ⟨fun _ => .success, fun _ => true, fun _ => false⟩
    let r₀ := start guardedTrigger [] [] "run" (plainEngine.moment 0)
    have h₀ : o.Agrees r₀ := agrees_of_constant (by decide +kernel)
    have hrun : Foreseen o plainEngine r₀ (r₀.launch plainEngine 0) :=
      ReflTransGen.single ⟨h₀, Step.launch 0 (unbegun_start guardedTrigger [] [] "run" (plainEngine.moment 0))⟩
    refine ⟨o, r₀.launch plainEngine 0, ⟨?_, fun _ => rfl, ?_, hrun, ?_⟩, ?_⟩
    · decide +kernel
    · decide
    · decide +kernel
    · decide +kernel
  · let o : Forecast := ⟨fun _ => .interrupted, fun _ => true, fun _ => true⟩
    let r₀ := start rescue [] [] "run" (cancellingEngine.moment 0)
    let r₁ := r₀.launch cancellingEngine 0
    let r₂ := r₁.resume cancellingEngine 1 "in"
    let r₃ := r₂.resume cancellingEngine 2 "in"
    let r₄ := r₃.resume cancellingEngine 3 "in"
    let r₅ := r₄.resume cancellingEngine 4 "in"
    let r₆ := (r₅.handleBatch (cancellingEngine.moment 5)).proceed cancellingEngine 5
    have h₀ : o.Agrees r₀ := agrees_of_constant (by decide +kernel)
    have h₁ : o.Agrees r₁ := agrees_of_constant (by decide +kernel)
    have h₂ : o.Agrees r₂ := agrees_of_constant (by decide +kernel)
    have h₃ : o.Agrees r₃ := agrees_of_constant (by decide +kernel)
    have h₄ : o.Agrees r₄ := agrees_of_constant (by decide +kernel)
    have h₅ : o.Agrees r₅ := agrees_of_constant (by decide +kernel)
    have hrun : Foreseen o cancellingEngine r₀ r₆ :=
      (((((ReflTransGen.single
        ⟨h₀, Step.launch 0 (unbegun_start rescue [] [] "run" (cancellingEngine.moment 0))⟩).tail
        ⟨h₁, Step.resume 1 (by decide +kernel) (by decide +kernel)⟩).tail
        ⟨h₂, Step.resume 2 (by decide +kernel) (by decide +kernel)⟩).tail
        ⟨h₃, Step.resume 3 (by decide +kernel) (by decide +kernel)⟩).tail
        ⟨h₄, Step.resume 4 (by decide +kernel) (by decide +kernel)⟩).tail
        ⟨h₅, Step.gather 5 (by decide +kernel) (by decide +kernel)⟩
    refine ⟨o, r₆, ⟨?_, ?_, ?_, hrun, ?_⟩, ?_⟩
    · decide +kernel
    · decide +kernel
    · decide
    · decide +kernel
    · decide +kernel

end

end Run

end Flowgraph
