import Flowgraph.Proofs.Run.Sound

/-! A beat of the front keeps the run sound and the front live. It adds entries of skipped nodes to the
log, and apart from that nothing that a task could see. -/

namespace Flowgraph

open Relation (ReflTransGen)

namespace Run

theorem resolveOutgoing_spec (r : Run) (id : String) (status : NodeStatus) :
    ∃ u, (r.resolveOutgoing id status).1 = { r.settleEdges id status with unresolved := u } ∧
      (∀ x, Table.getD u x 0 =
        if x ∈ r.graph.targets id then Table.getD r.unresolved x 0 - 1 else Table.getD r.unresolved x 0) ∧
      (r.resolveOutgoing id status).2 =
        (r.graph.targets id).filter fun t => Table.getD r.unresolved t 0 = 1 := by
  obtain ⟨u, hu, hval, hfreed⟩ :=
    resolveTargets_spec (r.graph.targets id) (r.graph.nodup_targets id) (r.settleEdges id status)
  exact ⟨u, hu, hval, hfreed⟩

theorem keepsId_interrupted (time : Moment) (stop : Option Stop) : KeepsId (NodeLog.interrupted time stop) :=
  fun e => by
    unfold NodeLog.interrupted
    split_ifs <;> rfl

theorem interrupted_of_ne {time : Moment} {stop : Option Stop} {e : NodeLog} (h : e.status ≠ .running) :
    e.interrupted time stop = e :=
  if_neg h

theorem interrupted_status (time : Moment) (stop : Option Stop) (e : NodeLog) :
    (e.interrupted time stop).status = if e.status = .running then .failed else e.status := by
  unfold NodeLog.interrupted
  split_ifs <;> rfl

theorem interrupted_status_ne (time : Moment) (stop : Option Stop) (e : NodeLog) :
    (e.interrupted time stop).status ≠ .running := by
  rw [interrupted_status]
  split_ifs with h
  · decide
  · exact h

def cutEntry (time : Moment) (stop : Option Stop) (cut : List String) (e : NodeLog) : NodeLog :=
  if e.nodeId ∈ cut then e.interrupted time stop else e

theorem keepsId_cutEntry (time : Moment) (stop : Option Stop) (cut : List String) :
    KeepsId (cutEntry time stop cut) := fun e => by
  unfold cutEntry
  split_ifs
  · exact keepsId_interrupted time stop e
  · rfl

theorem cutEntry_cutEntry (time : Moment) (stop : Option Stop) (cut cut' : List String) (e : NodeLog) :
    cutEntry time stop cut' (cutEntry time stop cut e) = cutEntry time stop (cut ++ cut') e := by
  have hid := keepsId_cutEntry time stop cut e
  rw [cutEntry, hid]
  simp only [cutEntry, List.mem_append]
  split_ifs <;> first | rfl | tauto | exact interrupted_of_ne (interrupted_status_ne time stop e)

theorem cutEntry_skippedEntry (time : Moment) (stop : Option Stop) (cut : List String) (id : String) :
    cutEntry time stop cut (skippedEntry id) = skippedEntry id := by
  unfold cutEntry
  split_ifs
  · exact interrupted_of_ne (by simp [skippedEntry])
  · rfl

theorem cutEntry_of_ne {time : Moment} {stop : Option Stop} {cut : List String} {e : NodeLog}
    (h : e.status ≠ .running) : cutEntry time stop cut e = e := by
  unfold cutEntry
  split_ifs
  · exact interrupted_of_ne h
  · rfl

/-- What handling changes: cancelled tasks among those to be handled are marked, and skipped nodes are
entered. -/
structure Handled (time : Moment) (todo : List Task) (r r' : Run) : Prop where
  workflow : r'.workflow = r.workflow
  graph : r'.graph = r.graph
  scope : r'.scope = r.scope
  tasks : r'.tasks = r.tasks
  agenda : r'.agenda = r.agenda
  stop : r'.stop = r.stop
  log : ∃ cut ids : List String, (∀ id ∈ cut, ∃ t ∈ todo, t.node.id = id ∧ t.phase = .unwound) ∧
    r'.log = { r.log with
      nodeLogs := r.log.nodeLogs.map (cutEntry time r.stop cut) ++ ids.map skippedEntry }

section
variable {time : Moment} {todo todo' : List Task} {r r' r'' : Run}

theorem map_cutEntry_nil (time : Moment) (stop : Option Stop) (es : List NodeLog) :
    es.map (cutEntry time stop []) = es := by
  conv_rhs => rw [← List.map_id es]
  exact List.map_congr_left fun e _ => if_neg (List.not_mem_nil)

/-- Handling that only enters skipped nodes. -/
theorem handled_of_log (time : Moment) (todo : List Task) (ids : List String)
    (hw : r'.workflow = r.workflow) (hg : r'.graph = r.graph) (hs : r'.scope = r.scope)
    (ht : r'.tasks = r.tasks) (ha : r'.agenda = r.agenda) (hst : r'.stop = r.stop)
    (hl : r'.log = { r.log with nodeLogs := r.log.nodeLogs ++ ids.map skippedEntry }) :
    Handled time todo r r' :=
  ⟨hw, hg, hs, ht, ha, hst, [], ids, List.forall_mem_nil _, by rw [map_cutEntry_nil, hl]⟩

theorem handled_refl (time : Moment) (todo : List Task) (r : Run) : Handled time todo r r :=
  handled_of_log time todo [] rfl rfl rfl rfl rfl rfl (by simp)

theorem Handled.trans (h : Handled time todo r r') (hsub : ∀ t ∈ todo', t ∈ todo)
    (h' : Handled time todo' r' r'') : Handled time todo r r'' := by
  obtain ⟨cut, ids, hc, hl⟩ := h.log
  obtain ⟨cut', ids', hc', hl'⟩ := h'.log
  refine ⟨h'.workflow.trans h.workflow, h'.graph.trans h.graph, h'.scope.trans h.scope,
    h'.tasks.trans h.tasks, h'.agenda.trans h.agenda, h'.stop.trans h.stop, cut ++ cut', ids ++ ids', ?_, ?_⟩
  · intro id hid
    rcases List.mem_append.1 hid with hid | hid
    · exact hc id hid
    · obtain ⟨t, ht, hrest⟩ := hc' id hid
      exact ⟨t, hsub t ht, hrest⟩
  · rw [hl', h.stop, hl]
    simp [cutEntry_cutEntry, cutEntry_skippedEntry, Function.comp_def]

theorem Handled.entryIds (h : Handled time todo r r') : ∃ ids, r'.entryIds = r.entryIds ++ ids := by
  obtain ⟨cut, ids, -, hl⟩ := h.log
  refine ⟨ids, ?_⟩
  rw [Run.entryIds, hl, List.map_append, List.map_map, List.map_map, Run.entryIds]
  congr 1
  · exact List.map_congr_left fun e _ => keepsId_cutEntry time r.stop cut e
  · exact List.map_id ids

/-- An entry stays, unless it is that of a cancelled task among those to be handled. -/
theorem Handled.entry? (h : Handled time todo r r') {id : String} {e : NodeLog} (he : r.entry? id = some e)
    (hkeep : e.status = .running → ∀ t ∈ todo, t.node.id = id → t.phase ≠ .unwound) : r'.entry? id = some e := by
  obtain ⟨cut, ids, hc, hl⟩ := h.log
  have hid := entry?_id he
  have hsame : cutEntry time r.stop cut e = e := by
    by_cases hs : e.status = .running
    · refine if_neg fun hcut => ?_
      obtain ⟨t, ht, htid, hp⟩ := hc _ hcut
      exact hkeep hs t ht (htid.trans hid) hp
    · exact cutEntry_of_ne hs
  have hnode : ∀ x, (cutEntry time r.stop cut x).nodeId = x.nodeId := keepsId_cutEntry time r.stop cut
  rw [Run.entry?, ExecutionLog.nodeLog?] at he ⊢
  simp only [hl, List.find?_append, List.find?_map, Function.comp_def, hnode, he, Option.map_some, Option.some_or,
    hsame]

theorem Handled.taskIds (h : Handled time todo r r') : r'.taskIds = r.taskIds := by
  rw [Run.taskIds, h.tasks, Run.taskIds]

theorem Handled.with_ready (h : Handled time todo r r') (order : List String) :
    Handled time todo r { r' with ready := order } :=
  ⟨h.workflow, h.graph, h.scope, h.tasks, h.agenda, h.stop, h.log⟩

theorem handled_resolveOutgoing (time : Moment) (todo : List Task) (r : Run) (id : String) (status : NodeStatus) :
    Handled time todo r (r.resolveOutgoing id status).1 := by
  obtain ⟨u, hu, -⟩ := resolveOutgoing_spec r id status
  rw [hu]
  exact handled_of_log time todo [] rfl rfl rfl rfl rfl rfl (by simp [settleEdges])

theorem handled_skip (time : Moment) (todo : List Task) (r : Run) (id : String) :
    Handled time todo r ((r.skip id).resolveOutgoing id .skipped).1 := by
  have hskip : Handled time todo r (r.skip id) := handled_of_log time todo [id] rfl rfl rfl rfl rfl rfl rfl
  exact hskip.trans (fun _ h => h) (handled_resolveOutgoing time todo _ id .skipped)

theorem markInterrupted_log (time : Moment) (id : String) (r : Run) :
    (r.markInterrupted time id).log =
      { r.log with nodeLogs := r.log.nodeLogs.map (cutEntry time r.stop [id]) } := by
  have hmap : (fun e : NodeLog => if e.nodeId = id then e.interrupted time r.stop else e) =
        cutEntry time r.stop [id] := by
    funext e
    simp only [cutEntry, List.mem_singleton]
  rw [← hmap]
  rfl

theorem handled_markInterrupted {t : Task} (time : Moment) (ht : t ∈ todo) (hp : t.phase = .unwound) (r : Run) :
    Handled time todo r (r.markInterrupted time t.node.id) := by
  refine ⟨rfl, rfl, rfl, rfl, rfl, rfl, [t.node.id], [], fun id hid => ⟨t, ht, (List.mem_singleton.1 hid).symm, hp⟩, ?_⟩
  rw [markInterrupted_log]
  simp

end

end Run

namespace Front

open Run

section
variable {time : Moment} {f f' : Front}

theorem Beat.todo_subset (h : Beat time f f') : ∀ t ∈ f'.todo, t ∈ f.todo := by
  cases h with
  | accept | skip => exact fun _ ht => ht
  | resolve | lose => exact fun _ ht => List.mem_cons_of_mem _ ht

theorem Beat.handled (h : Beat time f f') : Handled time f.todo f.run f'.run := by
  cases h with
  | accept => exact handled_of_log _ _ [] rfl rfl rfl rfl rfl rfl (by simp)
  | skip => exact handled_skip _ _ _ _
  | resolve => exact handled_resolveOutgoing _ _ _ _ _
  | lose hp => exact handled_markInterrupted time (List.mem_cons_self ..) hp _

theorem todo_subset_of_beats (h : ReflTransGen (Beat time) f f') : ∀ t ∈ f'.todo, t ∈ f.todo := by
  induction h with
  | refl => exact fun _ ht => ht
  | tail _ hb ih => exact fun t ht => ih t (hb.todo_subset t ht)

theorem handled_of_beats (h : ReflTransGen (Beat time) f f') : Handled time f.todo f.run f'.run := by
  induction h with
  | refl => exact handled_refl _ _ _
  | tail hbs hb ih => exact ih.trans (todo_subset_of_beats hbs) hb.handled

/-- The code leaves no choice in what comes next. -/
theorem Beat.unique {g g' : Front} (h : Beat time f g) (h' : Beat time f g') : g = g' := by
  cases h with
  | accept h =>
    cases h' with
    | accept => rfl
    | skip h' =>
      rw [h] at h'
      cases h'
  | skip h =>
    cases h' with
    | accept h' =>
      rw [h] at h'
      cases h'
    | skip => rfl
  | resolve hp h =>
    cases h' with
    | resolve hp' =>
      obtain rfl := Phase.finished.inj (hp.symm.trans hp')
      rfl
    | lose hp' => exact Phase.noConfusion (hp.symm.trans hp')
  | lose hp =>
    cases h' with
    | resolve hp' => exact Phase.noConfusion (hp.symm.trans hp')
    | lose => rfl

/-- Neither where the nodes wait that are decided or can be counts nor in which order. -/
theorem Live.congr (hl : f.Live) (hgraph : f'.run.graph = f.run.graph)
    (hentries : f'.run.entryIds = f.run.entryIds) (hunresolved : f'.run.unresolved = f.run.unresolved)
    (hlost : f'.run.lost = f.run.lost) (hopened : f'.opened = f.opened)
    (htodo : ∀ t ∈ f'.todo, t.phase.isOver = true ∧ ∃ e, f'.run.entry? t.node.id = some e ∧ e.status = t.phase.status)
    (hended : ∀ e ∈ f'.run.log.nodeLogs, e.status.Ended ∨ e.nodeId ∈ f'.opened)
    (hperm : (f'.waiting ++ f'.run.ready).Perm (f.waiting ++ f.run.ready)) : f'.Live := by
  have hmissing : ∀ id, f'.missing id = f.missing id := fun id => by
    simp only [missing, isResolved, hgraph, hentries, hopened, hlost]
  refine ⟨?_, ?_, htodo, ?_, hended, hperm.nodup_iff.2 hl.nodup, fun id hid => ?_, fun id => ?_, fun id hid => ?_⟩
  · rw [hentries, hopened]
    exact hl.opened
  · rw [hopened]
    exact hl.opened_nodup
  · rw [hlost, hentries, hopened]
    exact hl.lost
  · rw [hgraph, hentries]
    exact hl.fresh id (hperm.mem_iff.1 hid)
  · rw [hunresolved, hmissing]
    exact hl.counts id
  · rw [hmissing, hentries, hperm.mem_iff]
    exact hl.free id (hgraph ▸ hid)

/-- A node that is decided or can be has all its sources in the log. -/
theorem Live.sources_mem (hl : f.Live) {id : String} (hid : id ∈ f.waiting ++ f.run.ready) :
    ∀ s ∈ f.run.graph.sources id, s ∈ f.run.entryIds := by
  intro s hs
  have hnil := (hl.free id (hl.fresh id hid).1).2 (Or.inr hid)
  exact (isResolved_iff.1 (missing_eq_nil.1 hnil s hs)).1

/-- A node that is skipped is entered and resolved at once. -/
theorem entryIds_skip (r : Run) (id : String) :
    ((r.skip id).resolveOutgoing id .skipped).1.entryIds = r.entryIds ++ [id] := by
  obtain ⟨u, hu, -⟩ := resolveOutgoing_spec (r.skip id) id .skipped
  rw [hu]
  exact entryIds_addEntry

theorem entryIds_resolveOutgoing (r : Run) (id : String) (status : NodeStatus) :
    (r.resolveOutgoing id status).1.entryIds = r.entryIds := by
  obtain ⟨u, hu, -⟩ := resolveOutgoing_spec r id status
  rw [hu]
  rfl

section
variable {r : Run} {todo : List Task} {rest waiting : List String} {id : String} {t : Task} {status : NodeStatus}

theorem opened_skip (rest : List String) : Front.opened ⟨((r.skip id).resolveOutgoing id .skipped).1, todo, waiting⟩ =
    Front.opened ⟨r, todo, rest⟩ := by
  have hh := handled_skip default [] r id
  rw [Front.opened, hh.taskIds]
  rfl

theorem opened_resolve (rest : List String) : Front.opened ⟨(r.resolveOutgoing id status).1, todo, waiting⟩ =
    Front.opened ⟨r, todo, rest⟩ := by
  rw [Front.opened, (handled_resolveOutgoing default [] r id status).taskIds]
  rfl

theorem perm_opened_cons : (Front.opened ⟨r, t :: todo, rest⟩).Perm (t.node.id :: Front.opened ⟨r, todo, rest⟩) :=
  List.perm_middle

theorem lost_skip : ((r.skip id).resolveOutgoing id .skipped).1.lost = r.lost := by
  obtain ⟨u, hu, -⟩ := resolveOutgoing_spec (r.skip id) id .skipped
  rw [hu]
  rfl

theorem lost_resolveOutgoing : (r.resolveOutgoing id status).1.lost = r.lost := by
  obtain ⟨u, hu, -⟩ := resolveOutgoing_spec r id status
  rw [hu]
  rfl

theorem isResolved_skip (hl : Live ⟨r, todo, id :: rest⟩) (s : String) :
    Front.isResolved ⟨((r.skip id).resolveOutgoing id .skipped).1, todo, waiting⟩ s =
      (Front.isResolved ⟨r, todo, id :: rest⟩ s || s == id) := by
  have hself := (hl.fresh id (List.mem_cons_self ..)).2
  rw [Bool.eq_iff_iff, isResolved_iff, Bool.or_eq_true, isResolved_iff, beq_iff_eq,
    opened_skip (id :: rest), entryIds_skip, List.mem_append, List.mem_singleton, lost_skip]
  constructor
  · rintro ⟨h | h, ho, hlost⟩
    · exact Or.inl ⟨h, ho, hlost⟩
    · exact Or.inr h
  · rintro (⟨h, ho, hlost⟩ | rfl)
    · exact ⟨Or.inl h, ho, hlost⟩
    · exact ⟨Or.inr rfl, fun ho => hself (hl.opened s ho), fun hlost => hself (hl.lost s hlost).1⟩

theorem isResolved_resolve (hl : Live ⟨r, t :: todo, rest⟩) (s : String) :
    Front.isResolved ⟨(r.resolveOutgoing t.node.id status).1, todo, waiting⟩ s =
      (Front.isResolved ⟨r, t :: todo, rest⟩ s || s == t.node.id) := by
  have hperm : (Front.opened ⟨r, t :: todo, rest⟩).Perm (t.node.id :: Front.opened ⟨r, todo, rest⟩) := perm_opened_cons
  have hself : t.node.id ∈ Front.opened ⟨r, t :: todo, rest⟩ := hperm.mem_iff.2 (List.mem_cons_self ..)
  have hnodup := List.nodup_cons.1 (hperm.nodup_iff.1 hl.opened_nodup)
  rw [Bool.eq_iff_iff, isResolved_iff, Bool.or_eq_true, isResolved_iff, beq_iff_eq,
    opened_resolve rest, entryIds_resolveOutgoing, hperm.mem_iff, List.mem_cons, not_or, lost_resolveOutgoing]
  change s ∈ r.entryIds ∧ _ ↔ (s ∈ r.entryIds ∧ _) ∨ _
  constructor
  · rintro ⟨he, ho, hlost⟩
    by_cases hs : s = t.node.id
    · exact Or.inr hs
    · exact Or.inl ⟨he, ⟨hs, ho⟩, hlost⟩
  · rintro (⟨he, ⟨-, ho⟩, hlost⟩ | rfl)
    · exact ⟨he, ho, hlost⟩
    · exact ⟨hl.opened _ hself, hnodup.1, fun hlost => (hl.lost _ hlost).2 hself⟩

theorem entryIds_markInterrupted (time : Moment) (id : String) : (r.markInterrupted time id).entryIds = r.entryIds := by
  rw [entryIds, markInterrupted_log, List.map_map, entryIds]
  exact List.map_congr_left fun e _ => keepsId_cutEntry time r.stop [id] e

theorem isResolved_lose (time : Moment) (s : String) :
    Front.isResolved ⟨r.markInterrupted time t.node.id, todo, waiting⟩ s =
      Front.isResolved ⟨r, t :: todo, []⟩ s := by
  have hperm : (Front.opened ⟨r, t :: todo, []⟩).Perm (t.node.id :: Front.opened ⟨r, todo, []⟩) := perm_opened_cons
  have hlost : (r.markInterrupted time t.node.id).lost = r.lost ++ [t.node.id] := rfl
  rw [Bool.eq_iff_iff, isResolved_iff, isResolved_iff, hperm.mem_iff, entryIds_markInterrupted, hlost,
    List.mem_append, List.mem_singleton, List.mem_cons]
  change s ∈ r.entryIds ∧ s ∉ Front.opened ⟨r, todo, []⟩ ∧ _ ↔ _
  tauto

/-- Whatever has not ended is still opened when one more node has been entered that has. -/
theorem ended_skip (hl : Live ⟨r, todo, id :: rest⟩) : ∀ e ∈ ((r.skip id).resolveOutgoing id .skipped).1.log.nodeLogs,
    e.status.Ended ∨ e.nodeId ∈ Front.opened ⟨r, todo, id :: rest⟩ := by
  obtain ⟨u, hu, -⟩ := resolveOutgoing_spec (r.skip id) id .skipped
  rw [hu]
  intro e he
  rcases List.mem_append.1 he with he | he
  · exact hl.ended e he
  · rw [List.mem_singleton.1 he]
    exact Or.inl (Or.inr (Or.inr rfl))

theorem live_skip (hg : r.graph.WellFormed) (hl : Live ⟨r, todo, id :: rest⟩) :
    Live ⟨((r.skip id).resolveOutgoing id .skipped).1, todo,
      r.graph.sortByPosition (rest ++ ((r.skip id).resolveOutgoing id .skipped).2)⟩ := by
  have hh := handled_skip default [] r id
  obtain ⟨u, hu, hval, hfreed⟩ := resolveOutgoing_spec (r.skip id) id .skipped
  have hopened : Front.opened ⟨((r.skip id).resolveOutgoing id .skipped).1, todo,
      r.graph.sortByPosition (rest ++ ((r.skip id).resolveOutgoing id .skipped).2)⟩ =
      Front.opened ⟨r, todo, id :: rest⟩ := opened_skip _
  have hids := entryIds_skip r id
  have hself := (hl.fresh id (List.mem_cons_self ..)).2
  have hnodup := hl.nodup
  rw [List.cons_append, List.nodup_cons] at hnodup
  refine hl.settle hg rest hh.graph (by rw [hu]; rfl) ?_ (isResolved_skip hl) (fun x => by rw [hu]; exact hval x) hfreed
    (Graph.perm_sortByPosition _ _) (fun x hx => ?_) (hopened ▸ hl.opened_nodup) (fun t ht => ?_) (fun x hx => ?_)
    (fun e he => ?_) hnodup.2
    (fun x hx => ⟨(hl.fresh x (List.mem_cons_of_mem _ hx)).1, fun hx' => ?_⟩) (fun x => ?_)
  · rw [Bool.eq_false_iff, Ne, isResolved_iff]
    exact fun h => hself h.1
  · rw [hids]
    exact List.mem_append_left _ (hl.opened x (hopened ▸ hx))
  · obtain ⟨hp, e, he, hst⟩ := hl.todo t ht
    exact ⟨hp, e, hh.entry? he fun _ => List.forall_mem_nil _, hst⟩
  · change x ∈ ((r.skip id).resolveOutgoing id .skipped).1.lost at hx
    rw [lost_skip] at hx
    rw [hids, hopened]
    exact ⟨List.mem_append_left _ (hl.lost x hx).1, (hl.lost x hx).2⟩
  · rw [hopened]
    exact ended_skip hl e he
  · rw [hids, List.mem_append, List.mem_singleton] at hx'
    rcases hx' with hx' | rfl
    · exact (hl.fresh x (List.mem_cons_of_mem _ hx)).2 hx'
    · exact hnodup.1 hx
  · rw [hids, List.mem_append, List.mem_singleton, List.cons_append, List.mem_cons]
    tauto

/-- The entry of a task that is to be handled is the only one with its id. -/
theorem Live.todo_entry (hs : r.Sound) (hl : Live ⟨r, t :: todo, rest⟩) {e : NodeLog} (he : e ∈ r.log.nodeLogs)
    (hid : e.nodeId = t.node.id) : e.status = t.phase.status := by
  obtain ⟨-, e', he', hst⟩ := hl.todo t (List.mem_cons_self ..)
  have heq := entry?_of_mem hs.entries_nodup he
  rw [hid] at heq
  rw [Option.some.inj (heq.symm.trans he')]
  exact hst

theorem live_resolve {failed : Bool} (hs : r.Sound) (hl : Live ⟨r, t :: todo, []⟩) (hp : t.phase = .finished failed) :
    Live ⟨(r.resolveOutgoing t.node.id status).1, todo,
      r.graph.sortByPosition (r.resolveOutgoing t.node.id status).2⟩ := by
  have hh := handled_resolveOutgoing default [] r t.node.id status
  obtain ⟨u, hu, hval, hfreed⟩ := resolveOutgoing_spec r t.node.id status
  have hperm : (Front.opened ⟨r, t :: todo, []⟩).Perm (t.node.id :: Front.opened ⟨r, todo, []⟩) := perm_opened_cons
  have hopened : Front.opened ⟨(r.resolveOutgoing t.node.id status).1, todo,
      r.graph.sortByPosition (r.resolveOutgoing t.node.id status).2⟩ = Front.opened ⟨r, todo, []⟩ := opened_resolve _
  have hids := entryIds_resolveOutgoing r t.node.id status
  have hself : t.node.id ∈ Front.opened ⟨r, t :: todo, []⟩ := hperm.mem_iff.2 (List.mem_cons_self ..)
  have hnodup := hperm.nodup_iff.1 hl.opened_nodup
  rw [List.nodup_cons] at hnodup
  refine hl.settle hs.wellFormed [] hh.graph (by rw [hu]; rfl) ?_ (isResolved_resolve hl)
    (fun x => by rw [hu]; exact hval x) hfreed
    (Graph.perm_sortByPosition _ _) (fun x hx => ?_) (hopened ▸ hnodup.2) (fun u hu' => ?_) (fun x hx => ?_)
    (fun e he => ?_) hl.nodup (fun x hx => ?_) (fun x => ?_)
  · rw [Bool.eq_false_iff, Ne, isResolved_iff]
    exact fun h => h.2.1 hself
  · rw [hids]
    exact hl.opened x (hperm.mem_iff.2 (List.mem_cons_of_mem _ (hopened ▸ hx)))
  · obtain ⟨hover, e, he, hst⟩ := hl.todo u (List.mem_cons_of_mem _ hu')
    exact ⟨hover, e, hh.entry? he fun _ => List.forall_mem_nil _, hst⟩
  · change x ∈ (r.resolveOutgoing t.node.id status).1.lost at hx
    rw [lost_resolveOutgoing] at hx
    rw [hids, hopened]
    exact ⟨(hl.lost x hx).1, fun ho => (hl.lost x hx).2 (hperm.mem_iff.2 (List.mem_cons_of_mem _ ho))⟩
  · change e ∈ (r.resolveOutgoing t.node.id status).1.log.nodeLogs at he
    rw [hu] at he
    rw [hopened]
    rcases hl.ended e he with hend | ho
    · exact Or.inl hend
    · rcases List.mem_cons.1 (hperm.mem_iff.1 ho) with hid | ho
      · refine Or.inl ?_
        rw [hl.todo_entry hs he hid, hp]
        cases failed
        · exact Or.inl rfl
        · exact Or.inr (Or.inl rfl)
      · exact Or.inr ho
  · rw [hids]
    exact hl.fresh x hx
  · rw [hids]

/-- A cancelled task is no longer opened, and its node is not resolved either: nobody hears of it. -/
theorem live_lose (time : Moment) (hs : r.Sound) (hl : Live ⟨r, t :: todo, []⟩) :
    Live ⟨r.markInterrupted time t.node.id, todo, []⟩ := by
  have hperm : (Front.opened ⟨r, t :: todo, []⟩).Perm (t.node.id :: Front.opened ⟨r, todo, []⟩) := perm_opened_cons
  have hids : (r.markInterrupted time t.node.id).entryIds = r.entryIds := entryIds_markInterrupted time t.node.id
  have hself : t.node.id ∈ Front.opened ⟨r, t :: todo, []⟩ := hperm.mem_iff.2 (List.mem_cons_self ..)
  have hnodup := List.nodup_cons.1 (hperm.nodup_iff.1 hl.opened_nodup)
  have hmissing : ∀ id, Front.missing ⟨r.markInterrupted time t.node.id, todo, []⟩ id =
      Front.missing ⟨r, t :: todo, []⟩ id := fun id =>
    List.filter_congr fun s _ => by rw [isResolved_lose time s]
  refine ⟨fun x hx => ?_, hnodup.2, fun u hu => ?_, fun x hx => ?_, fun e he => ?_, hl.nodup, fun x hx => ?_,
    fun x => ?_, fun x hx => ?_⟩
  · change x ∈ (r.markInterrupted time t.node.id).entryIds
    rw [hids]
    exact hl.opened x (hperm.mem_iff.2 (List.mem_cons_of_mem _ hx))
  · obtain ⟨hover, e, he, hst⟩ := hl.todo u (List.mem_cons_of_mem _ hu)
    have hne : u.node.id ≠ t.node.id := fun heq =>
      hnodup.1 (List.mem_append_right _ (List.mem_map.2 ⟨u, hu, heq⟩))
    have htouch : Touched t.node.id (fun t => t) (NodeLog.interrupted time r.stop)
        { r with lost := r.lost ++ [t.node.id] } (r.markInterrupted time t.node.id) :=
      touched_editEntry (keepsId_interrupted time r.stop)
    refine ⟨hover, e, ?_, hst⟩
    rw [htouch.entry?, if_neg hne]
    exact he
  · change x ∈ r.lost ++ [t.node.id] at hx
    change x ∈ (r.markInterrupted time t.node.id).entryIds ∧ x ∉ Front.opened ⟨r, todo, []⟩
    rw [hids]
    rcases List.mem_append.1 hx with hx | hx
    · exact ⟨(hl.lost x hx).1, fun ho => (hl.lost x hx).2 (hperm.mem_iff.2 (List.mem_cons_of_mem _ ho))⟩
    · rw [List.mem_singleton.1 hx]
      exact ⟨hl.opened _ hself, hnodup.1⟩
  · change e ∈ (r.markInterrupted time t.node.id).log.nodeLogs at he
    change e.status.Ended ∨ e.nodeId ∈ Front.opened ⟨r, todo, []⟩
    rw [markInterrupted_log] at he
    obtain ⟨e₀, he₀, rfl⟩ := List.mem_map.1 he
    rw [keepsId_cutEntry time r.stop [t.node.id] e₀]
    by_cases hid : e₀.nodeId = t.node.id
    · refine Or.inl ?_
      rw [cutEntry, if_pos (List.mem_singleton.2 hid), interrupted_status]
      split_ifs with hrun
      · exact Or.inr (Or.inl rfl)
      · obtain ⟨hover, -⟩ := hl.todo t (List.mem_cons_self ..)
        have hst := hl.todo_entry hs he₀ hid
        rw [hst]
        rw [hst] at hrun
        cases hp : t.phase with
        | finished failed => cases failed <;> simp [Phase.status, NodeStatus.Ended]
        | unwound => exact absurd (by rw [hp]; rfl) hrun
        | _ => rw [hp] at hover; cases hover
    · rw [cutEntry, if_neg (fun hm => hid (List.mem_singleton.1 hm))]
      refine (hl.ended e₀ he₀).imp_right fun ho => ?_
      exact (List.mem_cons.1 (hperm.mem_iff.1 ho)).resolve_left hid
  · change _ ∧ x ∉ (r.markInterrupted time t.node.id).entryIds
    rw [hids]
    exact hl.fresh x hx
  · rw [hmissing]
    exact hl.counts x
  · change _ ↔ x ∈ (r.markInterrupted time t.node.id).entryIds ∨ _
    rw [hmissing, hids]
    exact hl.free x hx

end

theorem Beat.live (hb : Beat time f f') (hs : f.run.Sound) (hl : f.Live) : f'.Live := by
  cases hb with
  | accept h =>
    refine hl.congr rfl rfl rfl rfl rfl hl.todo hl.ended ?_
    dsimp only
    rw [← List.append_assoc]
    exact List.perm_append_singleton _ _
  | skip h => exact live_skip hs.wellFormed hl
  | resolve hp h => exact live_resolve hs hl hp
  | lose hp => exact live_lose time hs hl

/-- Marking an entry is nothing to a sound run: the task has left it. -/
theorem Sound.markInterrupted {r : Run} {t : Task} (time : Moment) (hs : r.Sound) (ht : t.node.id ∉ r.taskIds) :
    (r.markInterrupted time t.node.id).Sound := by
  have hids : (r.markInterrupted time t.node.id).entryIds = r.entryIds := entryIds_markInterrupted time t.node.id
  have htouch : Touched t.node.id (fun t => t) (NodeLog.interrupted time r.stop)
      { r with lost := r.lost ++ [t.node.id] } (r.markInterrupted time t.node.id) :=
    touched_editEntry (keepsId_interrupted time r.stop)
  refine ⟨hs.graph, ?_, ?_, ?_, ?_, hs.tasks_nodup, hs.task_node, fun u hu => ?_⟩
  · rw [hids]
    exact hs.entries_nodup
  · rw [hids]
    exact hs.entries_mem
  · rw [hids]
    exact hs.entries_closed
  · rw [hids]
    exact hs.ordered
  · obtain ⟨e, he, hst⟩ := hs.task_entry u hu
    have hne : u.node.id ≠ t.node.id := fun heq => ht (heq ▸ List.mem_map_of_mem hu)
    refine ⟨e, ?_, hst⟩
    rw [htouch.entry?, if_neg hne]
    exact he

theorem Beat.sound (hb : Beat time f f') (hs : f.run.Sound) (hl : f.Live) : f'.run.Sound := by
  cases hb with
  | accept h => exact hs.congr rfl rfl rfl rfl
  | @skip r todo rest id h =>
    obtain ⟨u, hu, -⟩ := resolveOutgoing_spec (r.skip id) id .skipped
    have hfresh := hl.fresh id (List.mem_cons_self ..)
    refine hs.enter (skippedEntry id) [] ?_ ?_ ?_ ?_ hfresh.1 hfresh.2
      (hl.sources_mem (List.mem_cons_self ..)) (Or.inl rfl)
    all_goals rw [hu]
    all_goals simp [skip_eq, addEntry, settleEdges]
  | @resolve r todo t failed hp h =>
    obtain ⟨u, hu, -⟩ := resolveOutgoing_spec r t.node.id (outcome failed)
    rw [hu]
    exact hs.congr rfl rfl rfl rfl
  | @lose r todo t hp =>
    have hperm : (Front.opened ⟨r, t :: todo, []⟩).Perm (t.node.id :: Front.opened ⟨r, todo, []⟩) := perm_opened_cons
    have hnodup := List.nodup_cons.1 (hperm.nodup_iff.1 hl.opened_nodup)
    exact Sound.markInterrupted time hs fun hid => hnodup.1 (List.mem_append_left _ hid)

structure Good (f : Front) : Prop where
  sound : f.run.Sound
  live : f.Live

theorem Good.beat (h : f.Good) (hb : Beat time f f') : f'.Good :=
  ⟨hb.sound h.sound h.live, hb.live h.sound h.live⟩

theorem Good.beats (h : f.Good) (hb : ReflTransGen (Beat time) f f') : f'.Good := by
  induction hb with
  | refl => exact h
  | tail _ hb ih => exact ih.beat hb

end

end Front

end Flowgraph
