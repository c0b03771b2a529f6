import Flowgraph.Proofs.Run.Occupancy
import Flowgraph.Proofs.Run.Passage

/-! The books of a run. A ledger notes, along the whole way of a run, which nodes handling has decided and of which
it has handled the finished task. At every state on that way, also between two decisions of one instant, the counters
tell how many distinct sources a node still waits for, a connection has a state once its source is resolved, and no
node is decided twice. -/

namespace Flowgraph

open Relation (ReflTransGen)

namespace Run

def isSkipped (r : Run) (id : String) : Bool :=
  (r.entry? id).any fun e => e.status == .skipped

/-- What handling has done so far: the nodes that it has decided, and those whose finished tasks it has handled. -/
structure Ledger where
  decided : List String
  handled : List String

namespace Ledger

/-- The ledger after the next beat of a front: a node is decided while one can be, and else a finished task is
handled. A cancelled one is only marked. -/
def after (y : Ledger) (f : Front) : Ledger :=
  match f.waiting, f.todo with
  | id :: _, _ => { y with decided := y.decided ++ [id] }
  | [], t :: _ =>
    match t.phase with
    | .finished _ => { y with handled := y.handled ++ [t.node.id] }
    | _ => y
  | [], [] => y

/-- A node is resolved when it was skipped or when its finished task has been handled. -/
def resolved (y : Ledger) (r : Run) (id : String) : Bool :=
  r.isSkipped id || y.handled.contains id

/-- The distinct sources of a node that are not resolved yet. -/
def openSources (y : Ledger) (r : Run) (id : String) : Finset String :=
  ((r.graph.incoming id).map Edge.source).toFinset.filter fun s => y.resolved r s = false

end Ledger

/-- The states on the way of a run that is not stopped, with their ledgers: handling goes on by a beat, ready nodes are
brought into order and started while there is room, and while something is in flight a task goes on, an alarm rings,
or the handling of the finished tasks begins. -/
inductive Visits (engine : Engine) (r₀ : Run) : Front → Ledger → Prop
  | first : Visits engine r₀ (firstFront r₀) ⟨[], []⟩
  | beat {time : Moment} {f f' : Front} {y : Ledger} (h : Visits engine r₀ f y) (hb : Front.Beat time f f') :
    Visits engine r₀ f' (y.after f)
  | arrange {r : Run} {y : Ledger} {order : List String} (h : Visits engine r₀ r.front y) (ho : order.Perm r.ready) :
    Visits engine r₀ { r with ready := order }.front y
  | start {r : Run} {y : Ledger} {id : String} {rest : List String} (time : Moment) (h : Visits engine r₀ r.front y)
    (hready : r.ready = id :: rest) (hroom : r.tasks.length < engine.limit) :
    Visits engine r₀ ({ r with ready := rest }.startNode time id).front y
  | resume {r : Run} {y : Ledger} {id : String} (now : Nat) (h : Visits engine r₀ r.front y) (hin : r.tasks ≠ [])
    (hid : id ∈ r.agenda) : Visits engine r₀ (r.resume engine now id).front y
  | ring {r : Run} {y : Ledger} {t : Task} {alarm : Alarm} (h : Visits engine r₀ r.front y) (ht : t ∈ r.tasks)
    (ha : t.phase.Heeds engine t.node alarm) : Visits engine r₀ (r.ring engine t alarm).front y
  | gather {r : Run} {y : Ledger} (h : Visits engine r₀ r.front y) (hf : r.tasks.any Task.isFinished = true) :
    Visits engine r₀ r.batchFront y

section
variable {engine : Engine} {w : Workflow} {r r' : Run} {f f' : Front} {y : Ledger} {id x : String}

/-! What the steps leave of the log and of the connections -/

theorem isSkipped_congr (h : r'.log.nodeLogs = r.log.nodeLogs) : r'.isSkipped id = r.isSkipped id := by
  simp only [isSkipped, Run.entry?, ExecutionLog.nodeLog?, h]

/-- A node that gets an entry is skipped from then on or not, as its entry says. -/
theorem isSkipped_enter {e : NodeLog} (h : r'.log.nodeLogs = r.log.nodeLogs ++ [e]) (hnew : e.nodeId ∉ r.entryIds) :
    r'.isSkipped x = (r.isSkipped x || (x == e.nodeId && e.status == .skipped)) := by
  have hentry : r'.entry? x = (r.entry? x).or (if e.nodeId = x then some e else none) := by
    rw [← entry?_addEntry]
    simp only [Run.entry?, ExecutionLog.nodeLog?, h, addEntry]
  unfold isSkipped
  rw [hentry]
  by_cases hx : x = e.nodeId
  · subst hx
    rw [entry?_eq_none.2 hnew]
    simp
  · rw [if_neg (Ne.symm hx), Option.or_none]
    simp [hx]

/-- Neither before nor after it has gone on is a task that of a skipped node. -/
theorem Moved.isSkipped {p : Phase} {t : Task} (hs : r.Sound) (ht : r.task? id = some t)
    (hu : t.phase.status = .running) (hm : Moved id p r r') (x : String) : r'.isSkipped x = r.isSkipped x := by
  obtain ⟨g, g', htouch, -, hstatus⟩ := hm
  obtain ⟨e, he, hst⟩ := hs.task_entry t (task?_mem ht)
  rw [task?_id ht] at he
  unfold Run.isSkipped
  rw [htouch.entry?]
  split_ifs with hx
  · subst hx
    have hphase : p.status ≠ .skipped := by
      cases p with
      | finished failed => cases failed <;> exact nofun
      | _ => exact nofun
    rw [he, Option.map_some, Option.any_some, Option.any_some, hstatus e (hst.trans hu), hst, hu]
    simp [hphase]
  · rfl

/-- The entry of a cancelled task that is marked was not that of a skipped node. -/
theorem isSkipped_markInterrupted (time : Moment) (id : String) (r : Run) (x : String) :
    (r.markInterrupted time id).isSkipped x = r.isSkipped x := by
  have htouch : Touched id (fun t => t) (NodeLog.interrupted time r.stop) { r with lost := r.lost ++ [id] }
      (r.markInterrupted time id) := touched_editEntry (keepsId_interrupted time r.stop)
  have hentry : Run.entry? { r with lost := r.lost ++ [id] } x = r.entry? x := rfl
  unfold isSkipped
  rw [htouch.entry?, hentry]
  split_ifs
  · cases r.entry? x with
    | none => rfl
    | some e =>
      rw [Option.map_some, Option.any_some, Option.any_some, interrupted_status]
      split_ifs with hrun
      · rw [hrun]
        rfl
      · rfl
  · rfl

theorem isSome_get?_foldl_set (edges : List Edge) (value : Edge → EdgeState) (states : Table EdgeState) :
    (Table.get? (edges.foldl (fun states e => states.set e.id (value e)) states) x).isSome =
      ((Table.get? states x).isSome || (edges.map Edge.id).contains x) := by
  induction edges generalizing states with
  | nil => simp
  | cons e rest ih =>
    rw [List.foldl_cons, ih, Table.get?_set]
    by_cases hx : x = e.id <;> simp [hx]

/-- With distinct ids, settling the connections of a node gives a state to those and to no others. -/
theorem isSome_get?_settleEdges (hnodup : (r.graph.edges.map Edge.id).Nodup) (s : NodeStatus) {e : Edge}
    (he : e ∈ r.graph.edges) :
    (Table.get? (r.settleEdges id s).edgeStates e.id).isSome =
      ((Table.get? r.edgeStates e.id).isSome || e.source == id) := by
  have hmem : ((r.graph.outgoing id).map Edge.id).contains e.id = (e.source == id) := by
    rw [Bool.eq_iff_iff, List.contains_iff_mem, List.mem_map, beq_iff_eq]
    constructor
    · rintro ⟨e', he', hid⟩
      obtain ⟨he', hsource⟩ := List.mem_filter.1 he'
      obtain rfl := List.inj_on_of_nodup_map hnodup he' he hid
      simpa using hsource
    · exact fun hsource => ⟨e, List.mem_filter.2 ⟨he, by simpa using hsource⟩, rfl⟩
  rw [← hmem]
  exact isSome_get?_foldl_set (r.graph.outgoing id) (fun e => EdgeState.after e s) r.edgeStates

theorem edgeStates_resolveOutgoing (r : Run) (id : String) (s : NodeStatus) :
    (r.resolveOutgoing id s).1.edgeStates = (r.settleEdges id s).edgeStates := by
  obtain ⟨u, hu, -⟩ := resolveOutgoing_spec r id s
  rw [hu]

theorem ready_resolveOutgoing (r : Run) (id : String) (s : NodeStatus) :
    (r.resolveOutgoing id s).1.ready = r.ready := by
  obtain ⟨u, hu, -⟩ := resolveOutgoing_spec r id s
  rw [hu]
  rfl

theorem log_resolveOutgoing (r : Run) (id : String) (s : NodeStatus) : (r.resolveOutgoing id s).1.log = r.log := by
  obtain ⟨u, hu, -⟩ := resolveOutgoing_spec r id s
  rw [hu]
  rfl

/-! What every step keeps ready for handling -/

theorem Active.ready_front (h : Active engine w r) : Ready engine w r.front where
  workflow := h.workflow
  good := h.good
  stop := h.stop
  unfinished := h.unfinished
  fits := h.fits
  due := h.due

theorem Ready.active (h : Ready engine w r.front) (hin : r.tasks ≠ []) : Active engine w r where
  workflow := h.workflow
  good := h.good
  stop := h.stop
  unfinished := h.unfinished
  tasks := hin
  fits := h.fits
  due := h.due

theorem Ready.beat {time : Moment} (h : Ready engine w f) (hb : Front.Beat time f f') : Ready engine w f' := by
  have hh := hb.handled
  refine ⟨hh.workflow.trans h.workflow, h.good.beat hb, hh.stop.trans h.stop, hh.isFinished.trans h.unfinished, ?_, ?_⟩
  · rw [hh.tasks]
    exact h.fits
  · rw [hh.tasks, hh.agenda]
    exact h.due

theorem Ready.started {time : Moment} {n : Node} (h : Ready engine w r.front) (hs : Started time [n] r r') :
    Ready engine w r'.front := by
  refine ⟨hs.workflow.trans h.workflow, Good.started h.good hs, hs.stop.trans h.stop,
    hs.isFinished.trans h.unfinished, fun t ht => ?_, fun t ht hrest hdue => ?_⟩
  · change t ∈ r'.tasks at ht
    rw [hs.tasks] at ht
    rcases List.mem_append.1 ht with ht | ht
    · exact h.fits t ht
    · rw [List.map_singleton, List.mem_singleton] at ht
      rw [ht]
      exact Phase.fits_of_none rfl
  · change t ∈ r'.tasks at ht
    change t.node.id ∈ r'.agenda
    rw [hs.tasks] at ht
    rw [hs.agenda]
    rcases List.mem_append.1 ht with ht | ht
    · exact List.mem_append_left _ (h.due t ht hrest hdue)
    · rw [List.map_singleton, List.mem_singleton] at ht
      rw [ht]
      exact List.mem_append_right _ (List.mem_singleton_self _)

/-! The ledger -/

/-- A ledger fits the state that it belongs to: it has noted whatever was decided, and what it takes for resolved is
what the counters take for resolved. -/
structure Kept (engine : Engine) (w : Workflow) (f : Front) (y : Ledger) : Prop where
  ready : Ready engine w f
  nodup : y.decided.Nodup
  decided : ∀ id, id ∈ y.decided ↔ id ∈ f.run.entryIds ∨ id ∈ f.run.ready
  resolved : ∀ id, y.resolved f.run id = f.isResolved id
  edges : (f.run.graph.edges.map Edge.id).Nodup → ∀ e ∈ f.run.graph.edges,
    (Table.get? f.run.edgeStates e.id).isSome = f.isResolved e.source

/-- What waits to be decided has not been decided. -/
theorem Kept.not_decided (h : Kept engine w f y) (hid : id ∈ f.waiting) : id ∉ y.decided := by
  rw [h.decided, not_or]
  exact ⟨(h.ready.good.live.fresh id (List.mem_append_left _ hid)).2,
    fun hr => (List.nodup_append.1 h.ready.good.live.nodup).2.2 id hid id hr rfl⟩

/-- Nothing is noted while neither the log nor what is open or ready changes. -/
theorem Kept.congr (h : Kept engine w f y) (hready : Ready engine w f') (hgraph : f'.run.graph = f.run.graph)
    (hids : f'.run.entryIds = f.run.entryIds) (hskipped : ∀ x, f'.run.isSkipped x = f.run.isSkipped x)
    (hopened : f'.opened.Perm f.opened) (hlost : f'.run.lost = f.run.lost) (hr : f'.run.ready.Perm f.run.ready)
    (hstates : f'.run.edgeStates = f.run.edgeStates) : Kept engine w f' y := by
  have hres : ∀ x, f'.isResolved x = f.isResolved x := fun x => by
    rw [Bool.eq_iff_iff, Front.isResolved_iff, Front.isResolved_iff, hids, hopened.mem_iff, hlost]
  refine ⟨hready, h.nodup, fun x => ?_, fun x => ?_, ?_⟩
  · rw [h.decided, hids, hr.mem_iff]
  · rw [hres, ← h.resolved, Ledger.resolved, Ledger.resolved, hskipped]
  · rw [hgraph, hstates]
    intro hn e he
    rw [hres, h.edges hn e he]

theorem Kept.nodup_concat (h : Kept engine w f y) (hid : id ∈ f.waiting) : (y.decided ++ [id]).Nodup :=
  List.Nodup.append h.nodup (List.nodup_singleton id) (by simpa using h.not_decided hid)

theorem Kept.beat {time : Moment} (h : Kept engine w f y) (hb : Front.Beat time f f') :
    Kept engine w f' (y.after f) := by
  have hready := h.ready.beat hb
  have hlive : f.Live := h.ready.good.live
  cases hb with
  | @accept r todo rest id hd =>
    refine ⟨hready, h.nodup_concat (List.mem_cons_self ..), fun x => ?_, h.resolved, h.edges⟩
    change x ∈ y.decided ++ [id] ↔ x ∈ r.entryIds ∨ x ∈ r.ready ++ [id]
    rw [List.mem_append, List.mem_append, h.decided, or_assoc]
  | @skip r todo rest id hd =>
    have hnew : id ∉ r.entryIds := (hlive.fresh id (List.mem_cons_self ..)).2
    refine ⟨hready, h.nodup_concat (List.mem_cons_self ..), fun x => ?_, fun x => ?_, fun hn e he => ?_⟩
    · change x ∈ y.decided ++ [id] ↔ _
      rw [List.mem_append, h.decided, Front.entryIds_skip, ready_resolveOutgoing, List.mem_append]
      exact or_right_comm
    · have hskipped := isSkipped_enter (x := x) (e := skippedEntry id) (r := r)
        (congrArg ExecutionLog.nodeLogs (log_resolveOutgoing (r.skip id) id .skipped)) hnew
      rw [Front.isResolved_skip hlive, ← h.resolved]
      change (Run.isSkipped _ x || y.handled.contains x) = ((r.isSkipped x || y.handled.contains x) || x == id)
      rw [hskipped, Bool.or_right_comm]
      simp [skippedEntry]
    · have hgraph := (handled_resolveOutgoing default [] (r.skip id) id .skipped).graph
      rw [hgraph] at hn he
      rw [Front.isResolved_skip hlive, edgeStates_resolveOutgoing, isSome_get?_settleEdges hn _ he, ← h.edges hn e he]
      rfl
  | @resolve r todo t failed hp hc =>
    have hafter : y.after ⟨r, t :: todo, []⟩ = { y with handled := y.handled ++ [t.node.id] } := by
      simp only [Ledger.after, hp]
    rw [hafter]
    refine ⟨hready, h.nodup, fun x => ?_, fun x => ?_, fun hn e he => ?_⟩
    · rw [Front.entryIds_resolveOutgoing, ready_resolveOutgoing]
      exact h.decided x
    · have hskipped : (r.resolveOutgoing t.node.id (outcome failed)).1.isSkipped x = r.isSkipped x :=
        isSkipped_congr (congrArg ExecutionLog.nodeLogs (log_resolveOutgoing r t.node.id (outcome failed)))
      rw [Front.isResolved_resolve hlive, ← h.resolved]
      change (Run.isSkipped _ x || (y.handled ++ [t.node.id]).contains x) =
        ((r.isSkipped x || y.handled.contains x) || x == t.node.id)
      rw [hskipped, List.contains_append, ← Bool.or_assoc, List.contains_cons, List.contains_nil, Bool.or_false]
    · have hgraph := (handled_resolveOutgoing default [] r t.node.id (outcome failed)).graph
      rw [hgraph] at hn he
      rw [Front.isResolved_resolve hlive, edgeStates_resolveOutgoing, isSome_get?_settleEdges hn _ he,
        ← h.edges hn e he]
  | @lose r todo t hp =>
    have hafter : y.after ⟨r, t :: todo, []⟩ = y := by
      simp only [Ledger.after, hp]
    rw [hafter]
    refine ⟨hready, h.nodup, fun x => ?_, fun x => ?_, fun hn e he => ?_⟩
    · rw [Front.entryIds_markInterrupted]
      exact h.decided x
    · rw [Front.isResolved_lose time, ← h.resolved, Ledger.resolved, Ledger.resolved,
        isSkipped_markInterrupted]
    · rw [Front.isResolved_lose time]
      exact h.edges hn e he

theorem Kept.started {time : Moment} {n : Node} (h : Kept engine w r.front y) (hs : Started time [n] r r') :
    Kept engine w r'.front y := by
  have hmem : n.id ∈ r.ready := by
    rw [hs.ready]
    exact List.mem_cons_self ..
  have hnew : n.id ∉ r.entryIds := (h.ready.good.live.fresh n.id hmem).2
  have hres := hs.isResolved_eq fun m hm => by rwa [List.mem_singleton.1 hm]
  refine ⟨h.ready.started hs, h.nodup, fun x => ?_, fun x => ?_, ?_⟩
  · rw [h.decided]
    change x ∈ r.entryIds ∨ x ∈ r.ready ↔ x ∈ r'.entryIds ∨ x ∈ r'.ready
    rw [hs.entryIds, hs.ready, List.mem_append, List.mem_append]
    tauto
  · have hskipped := isSkipped_enter (x := x) (e := runningEntry time n) (congrArg ExecutionLog.nodeLogs hs.log) hnew
    rw [hres, ← h.resolved]
    change (r'.isSkipped x || y.handled.contains x) = (r.isSkipped x || y.handled.contains x)
    rw [hskipped, show ((runningEntry time n).status == NodeStatus.skipped) = false from rfl, Bool.and_false,
      Bool.or_false]
  · change (r'.graph.edges.map Edge.id).Nodup → ∀ e ∈ r'.graph.edges, (Table.get? r'.edgeStates e.id).isSome = _
    rw [hs.graph, hs.edgeStates]
    intro hn e he
    rw [hres]
    exact h.edges hn e he

/-- A task that goes on is neither decided nor resolved by that. -/
theorem Kept.moved {t : Task} {p : Phase} (h : Kept engine w r.front y) (hready : Ready engine w r'.front)
    (ht : r.task? id = some t) (hu : t.phase.status = .running) (hm : Moved id p r r') : Kept engine w r'.front y := by
  have hskipped := Moved.isSkipped h.ready.good.sound ht hu hm
  obtain ⟨g, g', htouch, -, -⟩ := hm
  refine h.congr hready htouch.frame.graph htouch.entryIds hskipped ?_ htouch.frame.lost ?_ htouch.frame.edgeStates
  · rw [opened_front, opened_front, taskIds_eq_of_nodes htouch.nodes]
  · change r'.ready.Perm r.ready
    rw [htouch.frame.ready]

theorem Unbegun.kept {r₀ : Run} (h₀ : r₀.Unbegun) (hedges : r₀.edgeStates = []) :
    Kept engine r₀.workflow (firstFront r₀) ⟨[], []⟩ := by
  have hids : r₀.entryIds = [] := by rw [entryIds, h₀.entries]; rfl
  have hres : ∀ x, (firstFront r₀).isResolved x = false := fun x => by
    simp [Front.isResolved, firstFront, hids]
  refine ⟨h₀.ready_firstFront, List.nodup_nil, fun x => ?_, fun x => ?_, fun _ e _ => ?_⟩
  · change x ∈ [] ↔ x ∈ r₀.entryIds ∨ x ∈ r₀.ready
    rw [hids, h₀.ready, or_self]
  · rw [hres]
    change (r₀.isSkipped x || _) = false
    rw [isSkipped, entry?_eq_none.2 (hids ▸ List.not_mem_nil)]
    rfl
  · rw [hres]
    change (Table.get? r₀.edgeStates e.id).isSome = false
    rw [hedges]
    rfl

/-- The ledger fits at every state on the way. -/
theorem Visits.kept {r₀ : Run} (h₀ : r₀.Unbegun) (hedges : r₀.edgeStates = []) (h : Visits engine r₀ f y) :
    Kept engine r₀.workflow f y := by
  induction h with
  | first => exact h₀.kept hedges
  | beat _ hb ih => exact ih.beat hb
  | @arrange r y order _ ho ih =>
    have hr := ih.ready
    have hgood : Front.Good { r with ready := order }.front :=
      ⟨hr.good.sound.congr rfl rfl rfl rfl,
        hr.good.live.congr rfl rfl rfl rfl rfl (List.forall_mem_nil _) hr.good.live.ended ho⟩
    exact ih.congr ⟨hr.workflow, hgood, hr.stop, hr.unfinished, hr.fits, hr.due⟩ rfl rfl (fun _ => rfl)
      (List.Perm.refl _) rfl ho rfl
  | @start r y id rest time _ hready hroom ih =>
    have hid : id ∈ r.ready := hready ▸ List.mem_cons_self ..
    obtain ⟨n, hn⟩ := Graph.node?_of_mem (ready_mem_nodeIds ih.ready.good hid)
    obtain rfl := Graph.node?_some_id hn
    exact ih.started (started_startNode hready hn)
  | @resume r y id now _ hin hid ih =>
    have ha := ih.ready.active hin
    have hready : Ready engine _ (r.resume engine now id).front := (ha.resume hid).1.ready_front
    rcases ha.resume_cases now id with ⟨t, ht, hu, p, hm, -⟩ | ⟨-, heq⟩
    · obtain rfl := task?_id ht
      exact ih.moved hready ht (Phase.status_of_not_over hu) (Moved.of_agenda hm)
    · rw [heq] at hready ⊢
      exact ih.congr hready rfl rfl (fun _ => rfl) (List.Perm.refl _) rfl (List.Perm.refl _) rfl
  | @ring r y t alarm _ ht hheeds ih =>
    have ha := ih.ready.active (List.ne_nil_of_mem ht)
    obtain ⟨p, hm, -⟩ := goesOn_ring (r := r) (ha.fits t ht) hheeds
    exact ih.moved (ha.ring ht hheeds).1.ready_front (task?_of_mem ha.good.sound.tasks_nodup ht)
      (Phase.Heeds.status hheeds) hm
  | @gather r y _ hf ih =>
    have hin : r.tasks ≠ [] := fun hnil => by
      rw [hnil] at hf
      cases hf
    refine ih.congr (ih.ready.active hin).ready_batch rfl rfl (fun _ => rfl) ?_ rfl (List.Perm.refl _) rfl
    rw [opened_front]
    exact perm_opened_batchFront r

/-! The counters -/

theorem Kept.missing_toFinset (h : Kept engine w f y) (id : String) :
    (f.missing id).toFinset = y.openSources f.run id := by
  ext s
  rw [List.mem_toFinset, Front.mem_missing, Ledger.openSources, Finset.mem_filter, List.mem_toFinset, h.resolved,
    ← Graph.mem_sources, Graph.sources, mem_distinct]

theorem Kept.count_eq (h : Kept engine w f y) (id : String) :
    Table.getD f.run.unresolved id 0 = (y.openSources f.run id).card := by
  rw [h.ready.good.live.counts, ← h.missing_toFinset, List.toFinset_card_of_nodup (f.nodup_missing id)]

/-- The nodes with a count of zero are those that have been decided or wait for it. -/
theorem Kept.count_zero (h : Kept engine w f y) (hid : id ∈ f.run.graph.nodeIds) :
    Table.getD f.run.unresolved id 0 = 0 ↔ id ∈ y.decided ∨ id ∈ f.waiting := by
  rw [h.ready.good.live.counts, List.length_eq_zero_iff, h.ready.good.live.free id hid, List.mem_append, h.decided]
  tauto

/-! The states of the run -/

variable {r₀ : Run}

theorem Visits.beats {time : Moment} (h : Visits engine r₀ f y) (hb : ReflTransGen (Front.Beat time) f f') :
    ∃ y', Visits engine r₀ f' y' := by
  induction hb with
  | refl => exact ⟨y, h⟩
  | tail _ hb ih =>
    obtain ⟨y', hy⟩ := ih
    exact ⟨_, hy.beat hb⟩

/-- Starting what is ready goes through states on the way. -/
theorem Visits.startReady (time : Moment) (steps : Nat) (h : Visits engine r₀ r.front y) :
    Visits engine r₀ (Run.startReady engine.limit time steps r).front y := by
  induction steps generalizing r with
  | zero => exact h
  | succ n ih =>
    unfold Run.startReady
    split
    · exact h
    · next id rest hready =>
      split_ifs with hroom
      · exact ih (h.start time hready hroom)
      · exact h

/-- A batch that does not end the run leads to a state on the way. -/
theorem Visits.proceed {q : Run} (now : Nat) (h₀ : r₀.Unbegun) (hedges : r₀.edgeStates = [])
    (h : Visits engine r₀ f y) (hq : BatchEnd (engine.moment now) f q)
    (hu : (q.proceed engine now).isFinished = false) : ∃ y', Visits engine r₀ (q.proceed engine now).front y' := by
  have hh : Handled (engine.moment now) f.todo f.run q := hq.handled_of_unfinished (h.kept h₀ hedges).ready hu
  have hstop : q.stop = none := hh.stop.trans (h.kept h₀ hedges).ready.stop
  have hvisit : ∃ y', Visits engine r₀ q.front y' := by
    cases hq with
    | calm hb ho =>
      obtain ⟨y', hy⟩ := h.beats hb
      exact ⟨y', hy.arrange ho⟩
    | @halted m reason hb hs order =>
      have hhalt := Front.halt_stop (engine.moment now) reason ((h.kept h₀ hedges).ready.good.beats hb).live
      cases hhalt.symm.trans hstop
  obtain ⟨y', hy⟩ := hvisit
  have hstarted := hy.startReady (engine.moment now) q.ready.length
  have hready := (hstarted.kept h₀ hedges).ready
  unfold Run.proceed at hu ⊢
  rw [if_neg (by simp [stopped, hstop])] at hu ⊢
  dsimp only at hu ⊢
  split_ifs at hu ⊢
  · exact absurd (hu.symm.trans (isFinished_complete (r := Run.startReady _ _ _ _) hready.good.sound hready.stop))
      Bool.false_ne_true
  · exact ⟨y', hstarted⟩

/-- Wherever a run has come by an instant without having finished, it is on the way. -/
theorem Reaches.visits (hlimit : 0 < engine.limit) (h₀ : r₀.Unbegun) (hedges : r₀.edgeStates = []) {begun now : Nat}
    (h : Reaches engine r₀ begun now r) (hu : r.isFinished = false) : r = r₀ ∨ ∃ y, Visits engine r₀ r.front y := by
  induction h with
  | start => exact Or.inl rfl
  | waits _ _ ih => exact ih hu
  | @occurs now q r hq ho ih =>
    have hunder (hu : q.isFinished = false) : Underway engine r₀ q := underway_of_happens hlimit h₀ hq.happens hu
    refine Or.inr ?_
    cases ho with
    | launch hb =>
      rcases hunder hb.unfinished with rfl | ha
      · exact Visits.first.proceed now h₀ hedges (BatchEnd.of_yields (Front.admitAll_yields h₀.good h₀.stop)) hu
      · exact absurd hb.tasks ha.tasks
    | resume hu' hid =>
      rcases hunder hu' with rfl | ha
      · rw [h₀.agenda] at hid
        cases hid
      · obtain ⟨y, hy⟩ := (ih hu').resolve_left fun heq => ha.tasks (heq ▸ h₀.tasks)
        exact ⟨y, hy.resume now ha.tasks hid⟩
    | ring hu' ht ha =>
      obtain ⟨y, hy⟩ := (ih hu').resolve_left fun heq => by
        rw [heq, h₀.tasks] at ht
        cases ht
      exact ⟨y, hy.ring ht ha⟩
    | gather hu' hf =>
      rcases hunder hu' with rfl | ha
      · rw [h₀.tasks] at hf
        cases hf
      · obtain ⟨y, hy⟩ := (ih hu').resolve_left fun heq => ha.tasks (heq ▸ h₀.tasks)
        exact (hy.gather hf).proceed now h₀ hedges (handleBatch_ends _ ha.good ha.stop) hu
    | cancel =>
      have hend : (q.cancel (engine.moment now)).isFinished = true := by
        cases hf : q.isFinished with
        | true => rwa [Run.isFinished, cancel_of_finished _ hf]
        | false => exact (hunder hf).cancel_finished (engine.moment now) h₀
      exact absurd (hu.symm.trans hend) Bool.false_ne_true

/-- Whatever the workflow, a run goes through states on its way until it is stopped or finishes. At each of them the
count of a node is the number of its distinct sources that are not resolved, and a connection has a state if and only
if its source is resolved; one that was cancelled from within never is. A node is decided once at most: those decided
and those that wait for it are the nodes whose count is zero. The decisions of one instant come to an end, after no
more of them than there are nodes. -/
theorem counters_exact (hlimit : 0 < engine.limit) (w : Workflow) (inputs secrets : Fields) (executionId : String)
    (now : Nat) :
    let r₀ := start w inputs secrets executionId (engine.moment now)
    let g := Graph.ofWorkflow w
    (∀ later r, Reaches engine r₀ now later r → r.isFinished = false → r = r₀ ∨ ∃ y, Visits engine r₀ r.front y) ∧
      ∀ f y, Visits engine r₀ f y →
        f.run.stop = none ∧ f.run.graph = g ∧
        (∀ n, Table.getD f.run.unresolved n 0 = (y.openSources f.run n).card) ∧
        ((w.edges.map Edge.id).Nodup → ∀ n, ∀ e ∈ g.incoming n,
          (Table.get? f.run.edgeStates e.id).isSome = y.resolved f.run e.source) ∧
        y.decided.Nodup ∧ (∀ n ∈ f.waiting, n ∉ y.decided) ∧
        (∀ n ∈ g.nodeIds, Table.getD f.run.unresolved n 0 = 0 ↔ n ∈ y.decided ∨ n ∈ f.waiting) ∧
        ∀ time steps, g.nodes.length ≤ steps → Front.Yields time f f.todo (decideAll steps f.waiting f.run) := by
  intro r₀ g
  have h₀ : r₀.Unbegun := unbegun_start w inputs secrets executionId (engine.moment now)
  refine ⟨fun later r h hu => h.visits hlimit h₀ rfl hu, fun f y h => ?_⟩
  have hk : Kept engine w f y := h.kept h₀ rfl
  have hgraph : f.run.graph = g := hk.ready.good.sound.graph.trans (congrArg _ hk.ready.workflow)
  refine ⟨hk.ready.stop, hgraph, hk.count_eq, fun hn n e he => ?_, hk.nodup, fun n => hk.not_decided,
    fun n hn => hk.count_zero (hgraph ▸ hn), fun time steps hsteps => ?_⟩
  · have hmem : e ∈ g.edges := List.mem_of_mem_filter he
    have hdistinct : (g.edges.map Edge.id).Nodup := hn.sublist (List.filter_sublist.map _)
    rw [hk.resolved]
    exact hk.edges (hgraph ▸ hdistinct) e (hgraph ▸ hmem)
  · refine Front.decideAll_yields steps f.waiting f.run hk.ready.good hk.ready.stop ?_
    have hle : f.run.undecided.length ≤ f.run.graph.nodeIds.length := List.length_filter_le _ _
    rw [hgraph, Graph.nodeIds, List.length_map] at hle
    exact hle.trans hsteps

end

def tangle : Workflow where
  id := "tangle"
  name := "Tangle"
  version := "1"
  nodes := [{ id := "a", type := .trigger, provider := "trigger", operation := "manual" },
    { id := "b", type := .trigger, provider := "trigger", operation := "manual" }]
  edges := [{ id := "e1", source := "a", target := "b" }, { id := "e2", source := "a", target := "b" },
    { id := "e3", source := "b", target := "b" }]

/-- Two sources are open for the node with three incoming connections, and only the other one is decided. -/
theorem counters_exact_tangle :
    let r₀ := start tangle [] [] "run" (narrowEngine.moment 0)
    let r := r₀.launch narrowEngine 0
    0 < narrowEngine.limit ∧ ∃ y, Visits narrowEngine r₀ r.front y ∧ "a" ∈ y.decided ∧ "b" ∉ y.decided ∧
      (y.openSources r "b").card = 2 := by
  intro r₀ r
  have hlimit : 0 < narrowEngine.limit := by decide
  have hlaunch : r = (decideAll 3 ["a"] r₀).proceed narrowEngine 0 := by
    have hroots : r₀.graph.roots = ["a"] := by decide +kernel
    have h : r = _ := launch_of_sorted (by decide +kernel)
    rw [h, hroots]
    rfl
  have hu : r.isFinished = false := by
    rw [hlaunch]
    decide +kernel
  have hnew : r ≠ r₀ := fun heq => by
    have htasks : r.tasks.isEmpty = false := by
      rw [hlaunch]
      decide +kernel
    rw [heq] at htasks
    cases htasks
  obtain ⟨hvisits, hexact⟩ := counters_exact hlimit tangle [] [] "run" 0
  have hreached : Reaches narrowEngine r₀ 0 0 r := Reaches.start.occurs (.launch (unbegun_start tangle [] [] "run" _))
  obtain ⟨y, hy⟩ := (hvisits 0 r hreached hu).resolve_left hnew
  obtain ⟨-, -, hcounts, -, -, -, hzero, -⟩ := hexact r.front y hy
  have hdecided : ∀ n ∈ (Graph.ofWorkflow tangle).nodeIds, Table.getD r.unresolved n 0 = 0 ↔ n ∈ y.decided :=
    fun n hn => (hzero n hn).trans (or_iff_left List.not_mem_nil)
  have ha : Table.getD r.unresolved "a" 0 = 0 := by
    rw [hlaunch]
    decide +kernel
  have hb : Table.getD r.unresolved "b" 0 = 2 := by
    rw [hlaunch]
    decide +kernel
  refine ⟨hlimit, y, hy, (hdecided "a" (by decide +kernel)).1 ha, fun hd => ?_, ?_⟩
  · rw [(hdecided "b" (by decide +kernel)).2 hd] at hb
    cases hb
  · exact (hcounts "b").symm.trans hb

end Run

end Flowgraph
