import Flowgraph.Proofs.Run.Handling

/-! The fate of the nodes of a workflow when it is settled beforehand how nodes end that are run and which
guards hold. It is given by a recursion along the dependency order, in which no schedule occurs. Whatever
has been resolved or admitted while a run is handled agrees with it. -/

namespace Flowgraph

open Relation (ReflTransGen)

inductive Ending where
  | success
  | failed
  | skipped
  /-- Its task was cancelled. It has failed, but what comes behind it is never told. -/
  | interrupted
  /-- It is never decided, for it comes behind a node that was interrupted. -/
  | unreached
  deriving DecidableEq

namespace Ending

def status : Ending → NodeStatus
  | success => .success
  | failed | interrupted => .failed
  | skipped | unreached => .skipped

def isTold : Ending → Bool
  | interrupted | unreached => false
  | _ => true

end Ending

def Phase.ending? : Phase → Option Ending
  | .finished failed => some (if failed then .failed else .success)
  | .unwound => some .interrupted
  | _ => none

/-- What is settled before any run: how every node ends that is run, and which guards hold, of connections and
of nodes. -/
structure Forecast where
  outcome : String → Ending
  gate : String → Bool
  guard : String → Bool

namespace Forecast

def satisfied (e : Edge) : NodeStatus → Bool
  | .success => e.type ≠ .error
  | .failed => e.type = .error
  | _ => false

/-- A connection with a guard that does not hold is closed once its source has succeeded. -/
def vetoed (o : Forecast) (e : Edge) (source : NodeStatus) : Bool :=
  source = .success && e.guard?.isSome && !o.gate e.id

def admits (o : Forecast) (g : Graph) (status : String → NodeStatus) (id : String) : Bool :=
  ((g.incoming id).isEmpty || (g.incoming id).any fun e => satisfied e (status e.source))
    && (g.incoming id).all (fun e => !o.vetoed e (status e.source))
    && (((g.node? id).bind Node.guard?).isNone || o.guard id)

/-- How a node ends, given how its sources have ended. It is decided only if it gets to know that of all of them. -/
def next (o : Forecast) (g : Graph) (ending : String → Ending) (id : String) : Ending :=
  if (g.sources id).all fun s => (ending s).isTold then
    if o.admits g (fun s => (ending s).status) id then o.outcome id else .skipped
  else .unreached

def settle (o : Forecast) (g : Graph) (order : List String) (ending : String → Ending) : String → Ending :=
  order.foldl (fun ending id => Function.update ending id (o.next g ending id)) ending

def fate (o : Forecast) (g : Graph) : String → Ending :=
  match g.topologicalOrder with
  | .ok order => o.settle g order fun _ => .unreached
  | .error _ => fun _ => .unreached

section
variable {o : Forecast} {g : Graph} {id : String} {ending ending' : String → Ending}

/-- Only the sources count. -/
theorem next_congr (h : ∀ s ∈ g.sources id, ending s = ending' s) : o.next g ending id = o.next g ending' id := by
  have hsource : ∀ e ∈ g.incoming id, ending e.source = ending' e.source := fun e he => by
    obtain ⟨he, ht⟩ := List.mem_filter.1 he
    exact h e.source (Graph.mem_sources.2 ⟨e, he, rfl, by simpa using ht⟩)
  have htold : (g.sources id).all (fun s => (ending s).isTold) = (g.sources id).all fun s => (ending' s).isTold := by
    rw [Bool.eq_iff_iff, List.all_eq_true, List.all_eq_true]
    refine forall₂_congr fun s hs => ?_
    rw [h s hs]
  have hany : (g.incoming id).any (fun e => satisfied e (ending e.source).status) =
      (g.incoming id).any fun e => satisfied e (ending' e.source).status := by
    rw [Bool.eq_iff_iff, List.any_eq_true, List.any_eq_true]
    refine exists_congr fun e => and_congr_right fun he => ?_
    rw [hsource e he]
  have hall : (g.incoming id).all (fun e => !o.vetoed e (ending e.source).status) =
      (g.incoming id).all fun e => !o.vetoed e (ending' e.source).status := by
    rw [Bool.eq_iff_iff, List.all_eq_true, List.all_eq_true]
    refine forall₂_congr fun e he => ?_
    rw [hsource e he]
  rw [next, next, admits, admits, htold, hany, hall]

theorem settle_of_not_mem {order : List String} (h : id ∉ order) (ending : String → Ending) :
    o.settle g order ending id = ending id := by
  induction order generalizing ending with
  | nil => rfl
  | cons a rest ih =>
    rw [List.mem_cons, not_or] at h
    rw [settle, List.foldl_cons]
    exact (ih h.2 _).trans (Function.update_of_ne h.1 _ _)

theorem settle_append (before after : List String) (ending : String → Ending) :
    o.settle g (before ++ after) ending = o.settle g after (o.settle g before ending) :=
  List.foldl_append

/-- The fate of a node follows from that of its sources. -/
theorem fate_eq (hg : g.WellFormed) (hac : g.Acyclic) (hid : id ∈ g.nodeIds) :
    o.fate g id = o.next g (o.fate g) id := by
  obtain ⟨order, hok, ho⟩ := hac.topologicalOrder_ok hg
  obtain ⟨before, after, rfl⟩ := List.append_of_mem ((ho.mem id).2 hid)
  have hnodup := ho.nodup
  rw [List.nodup_append] at hnodup
  obtain ⟨-, hafter, hdisjoint⟩ := hnodup
  set early := o.settle g before fun _ => .unreached
  have hfate : o.fate g = o.settle g (id :: after) early := by
    rw [fate, hok]
    exact settle_append before (id :: after) _
  have hself : o.fate g id = o.next g early id := by
    rw [hfate, settle, List.foldl_cons]
    exact (settle_of_not_mem (List.nodup_cons.1 hafter).1 _).trans (Function.update_self ..)
  rw [hself]
  refine next_congr fun s hs => ?_
  have hs' := ho.sourcesFirst before id after rfl s hs
  rw [hfate, settle_of_not_mem fun hmem => hdisjoint s hs' s hmem rfl]

/-- The recursion has one solution only. -/
theorem eq_fate (hg : g.WellFormed) (hac : g.Acyclic) (h : ∀ id ∈ g.nodeIds, ending id = o.next g ending id) :
    ∀ id ∈ g.nodeIds, ending id = o.fate g id := by
  refine hac.induction hg fun id hid ih => ?_
  rw [h id hid, fate_eq hg hac hid]
  exact next_congr ih

end

end Forecast

namespace Run

open Forecast

/-- Where the deciding of a node looks at guards, they come out as settled. -/
structure Regular (o : Forecast) (r : Run) (id : String) : Prop where
  gates : ∀ e ∈ r.graph.incoming id, r.edgeState e = .gated → ∀ text, e.guard? = some text →
    r.scope.evaluate none text = .ok (o.gate e.id)
  guard : ∀ n, r.graph.node? id = some n → ∀ text, n.guard? = some text →
    r.scope.evaluate none text = .ok (o.guard id)

section
variable {o : Forecast} {r : Run} {id : String} {status : String → NodeStatus}

theorem gateHolds_of_guard {e : Edge} {text : String} (h : e.guard? = some text) :
    r.gateHolds e = r.scope.evaluate none text := by
  unfold Edge.guard? at h
  split_ifs at h with htype
  cases hc : e.condition with
  | none =>
    rw [hc] at h
    cases h
  | some c =>
    rw [hc, Option.bind_some, Condition.active?] at h
    split_ifs at h with henabled
    obtain ⟨hx, -⟩ := Option.filter_eq_some_iff.1 h
    rw [gateHolds, hc]
    dsimp only
    rw [hx]

theorem guard_of_gated {e : Edge} {s : NodeStatus} (h : EdgeState.after e s = .gated) :
    ∃ text, e.guard? = some text := by
  cases hg : e.guard? with
  | some text => exact ⟨text, rfl⟩
  | none => cases s <;> cases ht : e.type <;> simp [EdgeState.after, ht, hg] at h

theorem satisfied_eq (e : Edge) (s : NodeStatus) :
    satisfied e s = Decidable.decide (EdgeState.after e s ≠ .dead) := by
  cases s <;> cases ht : e.type <;> cases hg : e.guard? <;> simp [satisfied, EdgeState.after, ht, hg]

theorem vetoed_eq (o : Forecast) (e : Edge) (s : NodeStatus) :
    o.vetoed e s = (Decidable.decide (EdgeState.after e s = .gated) && !o.gate e.id) := by
  cases hg : e.guard? with
  | none => cases s <;> cases ht : e.type <;> simp [vetoed, EdgeState.after, ht, hg]
  | some text =>
    have htype : e.type = .conditional := by
      unfold Edge.guard? at hg
      split_ifs at hg with htype
      exact htype
    cases s <;> simp [vetoed, EdgeState.after, htype, hg]

/-- The incoming connections are looked through to the same end as in the recursion. -/
theorem pathsOpen_eq (edges : List Edge) (reached : Bool)
    (hstate : ∀ e ∈ edges, r.edgeState e = EdgeState.after e (status e.source))
    (hgate : ∀ e ∈ edges, r.edgeState e = .gated → r.gateHolds e = .ok (o.gate e.id)) :
    r.pathsOpen reached edges = .ok ((reached || edges.any fun e => satisfied e (status e.source)) &&
      edges.all fun e => !o.vetoed e (status e.source)) := by
  induction edges generalizing reached with
  | nil => simp [pathsOpen]
  | cons e rest ih =>
    have hrest : ∀ b, r.pathsOpen b rest = _ := fun b =>
      ih b (fun e he => hstate e (List.mem_cons_of_mem _ he)) fun e he => hgate e (List.mem_cons_of_mem _ he)
    have hs := hstate e (List.mem_cons_self ..)
    have hg := hgate e (List.mem_cons_self ..)
    rw [pathsOpen, List.any_cons, List.all_cons, satisfied_eq, vetoed_eq, ← hs]
    cases he : r.edgeState e with
    | dead => simp [hrest]
    | satisfied => simp [hrest]
    | gated =>
      dsimp only
      rw [hg he]
      cases o.gate e.id <;> simp [hrest]

theorem evaluate_guard_eq (hreg : Regular o r id) :
    (match (r.graph.node? id).bind Node.guard? with
      | none => Except.ok true
      | some text => r.scope.evaluate none text) =
      .ok (((r.graph.node? id).bind Node.guard?).isNone || o.guard id) := by
  cases hn : r.graph.node? id with
  | none => rfl
  | some n =>
    rw [Option.bind_some]
    cases ht : n.guard? with
    | none => rfl
    | some text => exact hreg.guard n hn text ht

/-- A node whose incoming connections stand as its sources ended is decided as in the recursion. -/
theorem decide_eq (hreg : Regular o r id)
    (hstate : ∀ e ∈ r.graph.incoming id, r.edgeState e = EdgeState.after e (status e.source)) :
    r.decide id = .ok (o.admits r.graph status id) := by
  have hgate : ∀ e ∈ r.graph.incoming id, r.edgeState e = .gated → r.gateHolds e = .ok (o.gate e.id) := by
    intro e he hgated
    obtain ⟨text, htext⟩ := guard_of_gated ((hstate e he).symm.trans hgated)
    rw [gateHolds_of_guard htext]
    exact hreg.gates e he hgated text htext
  unfold decide
  by_cases hempty : (r.graph.incoming id).isEmpty = true
  · have hnil := List.isEmpty_iff.1 hempty
    simp only [admits, hnil]
    exact evaluate_guard_eq hreg
  · simp only [hempty, admits, pathsOpen_eq _ false hstate hgate]
    generalize ((false || (r.graph.incoming id).any fun e => satisfied e (status e.source)) &&
      (r.graph.incoming id).all fun e => !o.vetoed e (status e.source)) = reached
    cases reached with
    | false => rfl
    | true => exact evaluate_guard_eq hreg

/-! What a node that is resolved means for its connections -/

theorem getD_foldl_set_of_not_mem (edges : List Edge) (value : Edge → EdgeState) (states : Table EdgeState)
    {x : String} (h : x ∉ edges.map Edge.id) :
    Table.getD (edges.foldl (fun states e => states.set e.id (value e)) states) x .dead =
      Table.getD states x .dead := by
  induction edges generalizing states with
  | nil => rfl
  | cons e rest ih =>
    rw [List.map_cons, List.mem_cons, not_or] at h
    rw [List.foldl_cons, ih _ h.2, Table.getD_set, if_neg h.1]

theorem getD_foldl_set {edges : List Edge} (hnodup : (edges.map Edge.id).Nodup) (value : Edge → EdgeState)
    (states : Table EdgeState) {e : Edge} (he : e ∈ edges) :
    Table.getD (edges.foldl (fun states e => states.set e.id (value e)) states) e.id .dead = value e := by
  induction edges generalizing states with
  | nil => cases he
  | cons a rest ih =>
    obtain ⟨hnew, hrest⟩ := List.nodup_cons.1 hnodup
    rw [List.foldl_cons]
    rcases List.mem_cons.1 he with rfl | he
    · rw [getD_foldl_set_of_not_mem rest value _ hnew, Table.getD_set, if_pos rfl]
    · exact ih hrest _ he

/-- With distinct ids, settling the connections of a node leaves all others as they are. -/
theorem edgeState_settleEdges (hnodup : (r.graph.edges.map Edge.id).Nodup) (s : NodeStatus) {e : Edge}
    (he : e ∈ r.graph.edges) :
    (r.settleEdges id s).edgeState e = if e.source = id then EdgeState.after e s else r.edgeState e := by
  split_ifs with hsource
  · refine getD_foldl_set ?_ (fun e => EdgeState.after e s) _ ?_
    · exact hnodup.sublist (List.filter_sublist.map _)
    · exact List.mem_filter.2 ⟨he, by simpa using hsource⟩
  · refine getD_foldl_set_of_not_mem _ _ _ fun hmem => ?_
    obtain ⟨e', he', hid⟩ := List.mem_map.1 hmem
    obtain ⟨he', hsource'⟩ := List.mem_filter.1 he'
    obtain rfl := List.inj_on_of_nodup_map hnodup he' he hid
    exact hsource (by simpa using hsource')

end

end Run

namespace Front

open Run Forecast

/-- What has been resolved, lost or admitted so far agrees with the fate of the nodes. -/
structure Fated (o : Forecast) (ending : String → Ending) (f : Front) : Prop where
  edges : ∀ e ∈ f.run.graph.edges, f.isResolved e.source = true →
    f.run.edgeState e = EdgeState.after e (ending e.source).status
  told : ∀ id, f.isResolved id = true → (ending id).isTold = true
  lost : ∀ id ∈ f.run.lost, ending id = .interrupted
  entries : ∀ e ∈ f.run.log.nodeLogs, e.nodeId ∉ f.opened → e.status = (ending e.nodeId).status
  admitted : ∀ id ∈ f.run.ready ++ f.opened, ending id = o.outcome id
  todo : ∀ t ∈ f.todo, ∀ x, t.phase.ending? = some x → o.outcome t.node.id = x

/-- Whenever the handling of this front decides a node, the guards come out as settled. -/
def Regular (o : Forecast) (time : Moment) (f : Front) : Prop :=
  ∀ r todo id rest, ReflTransGen (Beat time) f ⟨r, todo, id :: rest⟩ → r.Regular o id

section
variable {o : Forecast} {ending : String → Ending} {f f' : Front} {r : Run} {todo : List Task} {t : Task}
  {rest : List String} {id : String} {time : Moment}

/-- A node that can be decided gets to know how all its sources ended. -/
theorem Fated.next_eq (h : Fated o ending ⟨r, todo, rest⟩) (hl : Live ⟨r, todo, rest⟩) (hid : id ∈ rest ++ r.ready) :
    o.next r.graph ending id = if o.admits r.graph (fun s => (ending s).status) id then o.outcome id else .skipped := by
  refine if_pos (List.all_eq_true.2 fun s hs => ?_)
  have hnil := (hl.free id (hl.fresh id hid).1).2 (Or.inr hid)
  exact h.told s (missing_eq_nil.1 hnil s hs)

/-- A node that can be decided is decided according to its fate. -/
theorem Fated.decide_eq (h : Fated o ending ⟨r, todo, id :: rest⟩) (hl : Live ⟨r, todo, id :: rest⟩)
    (hreg : r.Regular o id) : r.decide id = .ok (o.admits r.graph (fun s => (ending s).status) id) := by
  refine Run.decide_eq hreg fun e he => ?_
  obtain ⟨he, ht⟩ := List.mem_filter.1 he
  have hid := List.mem_cons_self (a := id) (l := rest ++ r.ready)
  have hnil := (hl.free id (hl.fresh id hid).1).2 (Or.inr hid)
  exact h.edges e he (missing_eq_nil.1 hnil _ (Graph.mem_sources.2 ⟨e, he, rfl, by simpa using ht⟩))

/-- When a node is resolved that has ended according to its fate, its connections are as its fate says. -/
theorem Fated.edges_settle {r' : Run} {s : NodeStatus} {todo' : List Task} {waiting : List String}
    (h : Fated o ending ⟨r, todo, rest⟩) (hnodup : (r.graph.edges.map Edge.id).Nodup) (hs : (ending id).status = s)
    (hgraph : r'.graph = r.graph) (hstates : r'.edgeStates = (r.settleEdges id s).edgeStates)
    (hres : ∀ x, Front.isResolved ⟨r', todo', waiting⟩ x = (Front.isResolved ⟨r, todo, rest⟩ x || x == id)) :
    ∀ e ∈ r'.graph.edges, Front.isResolved ⟨r', todo', waiting⟩ e.source = true →
      r'.edgeState e = EdgeState.after e (ending e.source).status := by
  intro e he hr
  rw [hgraph] at he
  have hstate : r'.edgeState e = (r.settleEdges id s).edgeState e := by
    unfold edgeState
    rw [hstates]
  rw [hstate, edgeState_settleEdges hnodup s he]
  rw [hres, Bool.or_eq_true, beq_iff_eq] at hr
  split_ifs with hsource
  · rw [hsource, hs]
  · exact h.edges e he (hr.resolve_right hsource)

theorem Fated.told_settle {r' : Run} {todo' : List Task} {waiting : List String}
    (h : Fated o ending ⟨r, todo, rest⟩) (hs : (ending id).isTold = true)
    (hres : ∀ x, Front.isResolved ⟨r', todo', waiting⟩ x = (Front.isResolved ⟨r, todo, rest⟩ x || x == id)) :
    ∀ x, Front.isResolved ⟨r', todo', waiting⟩ x = true → (ending x).isTold = true := by
  intro x hx
  rw [hres, Bool.or_eq_true, beq_iff_eq] at hx
  rcases hx with hx | rfl
  · exact h.told x hx
  · exact hs

/-- A task that is handled has ended according to the fate of its node. -/
theorem Fated.ending_eq {x : Ending} (h : Fated o ending ⟨r, t :: todo, rest⟩) (hp : t.phase.ending? = some x) :
    ending t.node.id = x := by
  have hperm : (Front.opened ⟨r, t :: todo, rest⟩).Perm (t.node.id :: Front.opened ⟨r, todo, rest⟩) := perm_opened_cons
  have hopen := List.mem_append_right r.ready (hperm.mem_iff.2 (List.mem_cons_self ..))
  rw [h.admitted _ hopen]
  exact h.todo t (List.mem_cons_self ..) x hp

theorem Fated.accept (h : Fated o ending ⟨r, todo, id :: rest⟩) (hl : Live ⟨r, todo, id :: rest⟩)
    (hnext : ending id = o.next r.graph ending id) (hreg : r.Regular o id) (hd : r.decide id = .ok true) :
    Fated o ending ⟨{ r with ready := r.ready ++ [id] }, todo, rest⟩ := by
  have hdec := h.decide_eq hl hreg
  rw [hd] at hdec
  have hself : ending id = o.outcome id := by
    rw [hnext, h.next_eq hl (List.mem_cons_self ..), if_pos (Except.ok.inj hdec).symm]
  refine ⟨h.edges, h.told, h.lost, h.entries, fun x hx => ?_, h.todo⟩
  rcases List.mem_append.1 hx with hx | hx
  · rcases List.mem_append.1 hx with hx | hx
    · exact h.admitted x (List.mem_append_left _ hx)
    · rw [List.mem_singleton.1 hx]
      exact hself
  · exact h.admitted x (List.mem_append_right _ hx)

theorem Fated.skip (h : Fated o ending ⟨r, todo, id :: rest⟩) (hl : Live ⟨r, todo, id :: rest⟩)
    (hnodup : (r.graph.edges.map Edge.id).Nodup) (hnext : ending id = o.next r.graph ending id)
    (hreg : r.Regular o id) (hd : r.decide id = .ok false) (waiting : List String) :
    Fated o ending ⟨((r.skip id).resolveOutgoing id .skipped).1, todo, waiting⟩ := by
  have hdec := h.decide_eq hl hreg
  rw [hd] at hdec
  have hself : ending id = .skipped := by
    rw [hnext, h.next_eq hl (List.mem_cons_self ..), ← Except.ok.inj hdec]
    rfl
  obtain ⟨u, hu, -⟩ := resolveOutgoing_spec (r.skip id) id .skipped
  refine ⟨?_, ?_, fun x hx => ?_, fun e he hnot => ?_, fun x hx => ?_, h.todo⟩
  · exact h.edges_settle hnodup (congrArg Ending.status hself) (by rw [hu]; rfl) (by rw [hu]; rfl) (isResolved_skip hl)
  · exact h.told_settle (congrArg Ending.isTold hself) (isResolved_skip hl)
  · exact h.lost x (lost_skip ▸ hx)
  · rw [opened_skip (id :: rest)] at hnot
    rw [hu] at he
    rcases List.mem_append.1 he with he | he
    · exact h.entries e he hnot
    · rw [List.mem_singleton.1 he]
      exact (congrArg Ending.status hself).symm
  · rw [opened_skip (id :: rest), hu] at hx
    exact h.admitted x hx

theorem Fated.resolve {failed : Bool} (h : Fated o ending ⟨r, t :: todo, []⟩) (hs : r.Sound)
    (hl : Live ⟨r, t :: todo, []⟩) (hnodup : (r.graph.edges.map Edge.id).Nodup) (hp : t.phase = .finished failed)
    (waiting : List String) :
    Fated o ending ⟨(r.resolveOutgoing t.node.id (Run.outcome failed)).1, todo, waiting⟩ := by
  have hperm : (Front.opened ⟨r, t :: todo, []⟩).Perm (t.node.id :: Front.opened ⟨r, todo, []⟩) := perm_opened_cons
  have hself : ending t.node.id = if failed then .failed else .success := h.ending_eq (by rw [hp]; rfl)
  have hstatus : (ending t.node.id).status = Run.outcome failed := by
    rw [hself]
    cases failed <;> rfl
  obtain ⟨u, hu, -⟩ := resolveOutgoing_spec r t.node.id (Run.outcome failed)
  refine ⟨?_, ?_, fun x hx => ?_, fun e he hnot => ?_, fun x hx => ?_, fun v hv => h.todo v (List.mem_cons_of_mem _ hv)⟩
  · exact h.edges_settle hnodup hstatus (by rw [hu]; rfl) (by rw [hu]) (isResolved_resolve hl)
  · refine h.told_settle ?_ (isResolved_resolve hl)
    rw [hself]
    cases failed <;> rfl
  · exact h.lost x (lost_resolveOutgoing ▸ hx)
  · rw [opened_resolve []] at hnot
    rw [hu] at he
    by_cases hid : e.nodeId = t.node.id
    · rw [hid, hstatus, hl.todo_entry hs he hid, hp]
      rfl
    · refine h.entries e he fun ho => ?_
      rcases List.mem_cons.1 (hperm.mem_iff.1 ho) with ho | ho
      · exact hid ho
      · exact hnot ho
  · rw [opened_resolve [], hu] at hx
    rcases List.mem_append.1 hx with hx | hx
    · exact h.admitted x (List.mem_append_left _ hx)
    · exact h.admitted x (List.mem_append_right _ (hperm.mem_iff.2 (List.mem_cons_of_mem _ hx)))

/-- A node whose task was cancelled ends as interrupted; its connections are left as they are. -/
theorem Fated.lose (h : Fated o ending ⟨r, t :: todo, []⟩) (hs : r.Sound) (hl : Live ⟨r, t :: todo, []⟩)
    (hp : t.phase = .unwound) : Fated o ending ⟨r.markInterrupted time t.node.id, todo, []⟩ := by
  have hperm : (Front.opened ⟨r, t :: todo, []⟩).Perm (t.node.id :: Front.opened ⟨r, todo, []⟩) := perm_opened_cons
  have hself : ending t.node.id = .interrupted := h.ending_eq (by rw [hp]; rfl)
  refine ⟨fun e he hr => ?_, fun x hx => ?_, fun x hx => ?_, fun e' he' hnot => ?_, fun x hx => ?_,
    fun v hv => h.todo v (List.mem_cons_of_mem _ hv)⟩
  · rw [isResolved_lose] at hr
    exact h.edges e he hr
  · rw [isResolved_lose] at hx
    exact h.told x hx
  · rcases List.mem_append.1 hx with hx | hx
    · exact h.lost x hx
    · rw [List.mem_singleton.1 hx]
      exact hself
  · change e' ∈ (r.markInterrupted time t.node.id).log.nodeLogs at he'
    rw [markInterrupted_log] at he'
    obtain ⟨e, he, rfl⟩ := List.mem_map.1 he'
    have hkeep := keepsId_cutEntry time r.stop [t.node.id] e
    rw [hkeep] at hnot ⊢
    by_cases hid : e.nodeId = t.node.id
    · rw [cutEntry, if_pos (List.mem_singleton.2 hid), interrupted_status, hl.todo_entry hs he hid, hp, hid, hself]
      rfl
    · rw [cutEntry, if_neg fun hmem => hid (List.mem_singleton.1 hmem)]
      refine h.entries e he fun ho => hnot ?_
      exact (List.mem_cons.1 (hperm.mem_iff.1 ho)).resolve_left hid
  · rcases List.mem_append.1 hx with hx | hx
    · exact h.admitted x (List.mem_append_left _ hx)
    · exact h.admitted x (List.mem_append_right _ (hperm.mem_iff.2 (List.mem_cons_of_mem _ hx)))

theorem Fated.beat (h : f.Fated o ending) (hg : f.Good) (hnodup : (f.run.graph.edges.map Edge.id).Nodup)
    (hending : ∀ id ∈ f.run.graph.nodeIds, ending id = o.next f.run.graph ending id) (hreg : f.Regular o time)
    (hb : Beat time f f') : f'.Fated o ending := by
  cases hb with
  | @accept r todo rest id hd =>
    have hid := (hg.live.fresh id (List.mem_cons_self ..)).1
    exact Fated.accept h hg.live (hending id hid) (hreg r todo id rest ReflTransGen.refl) hd
  | @skip r todo rest id hd =>
    have hid := (hg.live.fresh id (List.mem_cons_self ..)).1
    exact Fated.skip h hg.live hnodup (hending id hid) (hreg r todo id rest ReflTransGen.refl) hd _
  | resolve hp hc => exact Fated.resolve h hg.sound hg.live hnodup hp _
  | lose hp => exact Fated.lose h hg.sound hg.live hp

theorem Regular.beats (hreg : f.Regular o time) (hb : ReflTransGen (Beat time) f f') : f'.Regular o time :=
  fun r todo id rest h => hreg r todo id rest (hb.trans h)

theorem Fated.beats (h : f.Fated o ending) (hg : f.Good) (hnodup : (f.run.graph.edges.map Edge.id).Nodup)
    (hending : ∀ id ∈ f.run.graph.nodeIds, ending id = o.next f.run.graph ending id) (hreg : f.Regular o time)
    (hb : ReflTransGen (Beat time) f f') : f'.Fated o ending := by
  induction hb with
  | refl => exact h
  | tail hbs hb ih =>
    have hgraph := (handled_of_beats hbs).graph
    refine ih.beat (hg.beats hbs) ?_ ?_ (hreg.beats hbs) hb
    · rw [hgraph]
      exact hnodup
    · rw [hgraph]
      exact hending

/-- When the nodes that fail are contained, nothing stops the handling. -/
theorem Fated.not_stops {reason : String} (h : f.Fated o ending) (hl : f.Live) (hreg : f.Regular o time)
    (hcontained : ∀ id, ending id = .failed → f.run.contained id = true) : ¬ f.Stops reason := by
  intro hs
  cases hs with
  | @raised r todo rest id failure hd =>
    have hdec := h.decide_eq hl (hreg r todo id rest ReflTransGen.refl)
    rw [hd] at hdec
    cases hdec
  | @uncontained r todo t hp hc =>
    have := hcontained _ (Fated.ending_eq h (by rw [hp]; rfl))
    rw [hc] at this
    cases this

end

end Front

end Flowgraph
