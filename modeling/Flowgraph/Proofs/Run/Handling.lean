import Flowgraph.Proofs.Run.Beat

/-! The handling of finished tasks is made of beats. They go on until nothing is left to decide, unless
deciding a node raises or a failure is not contained: then the run is stopped where it is. -/

namespace Flowgraph

open Relation (ReflTransGen)

namespace Run

def undecided (r : Run) : List String :=
  r.graph.nodeIds.filter fun id => !r.entryIds.contains id && !r.ready.contains id

theorem mem_undecided {r : Run} {id : String} :
    id ∈ r.undecided ↔ id ∈ r.graph.nodeIds ∧ id ∉ r.entryIds ∧ id ∉ r.ready := by
  simp [undecided]

/-- Deciding one more node leaves fewer undecided. -/
theorem length_undecided_lt (r r' : Run) {id : String} (hg : r'.graph = r.graph)
    (hsub : ∀ x, x ∈ r.entryIds ∨ x ∈ r.ready → x ∈ r'.entryIds ∨ x ∈ r'.ready)
    (hid : id ∈ r.undecided) (hnew : id ∈ r'.entryIds ∨ id ∈ r'.ready) :
    r'.undecided.length < r.undecided.length := by
  have hle : r'.undecided.Sublist r.undecided := by
    rw [undecided, undecided, hg]
    refine List.monotone_filter_right _ fun x hx => ?_
    have := hsub x
    simp only [Bool.and_eq_true, Bool.not_eq_true', List.contains_eq_mem, decide_eq_false_iff_not] at hx ⊢
    tauto
  refine Nat.lt_of_le_of_ne hle.length_le fun heq => ?_
  rw [← hle.eq_of_length heq, mem_undecided] at hid
  exact hnew.elim hid.2.1 hid.2.2

def failureReason (r : Run) (id : String) : String :=
  "Node '" ++ id ++ "' failed: " ++ ((r.entry? id).bind NodeLog.error).getD ""

def raiseReason (f : Failure) : String :=
  "Internal error: " ++ f.message

theorem internalError_eq {r : Run} (h : r.stop = none) (f : Failure) :
    r.internalError f = { r with stop := some ⟨.failed, raiseReason f⟩ } := by
  simp [internalError, stopWith, h, raiseReason]

section
variable {time : Moment} {r : Run} {t : Task} {failed : Bool}

theorem handle_eq (r : Run) (hp : t.phase = .finished failed) :
    r.handle time t =
      let r' := if failed && !r.contained t.node.id then r.stopWith .failed (r.failureReason t.node.id) else r
      if r'.stopped then r'
      else admitAll (r'.resolveOutgoing t.node.id (outcome failed)).1
        (r'.resolveOutgoing t.node.id (outcome failed)).2 := by
  unfold handle
  rw [hp]
  rfl

theorem handle_unwound (r : Run) (hp : t.phase = .unwound) : r.handle time t = r.markInterrupted time t.node.id := by
  unfold handle
  rw [hp]

theorem handle_of_stopped {s : Stop} (h : r.stop = some s) (hp : t.phase = .finished failed) : r.handle time t = r := by
  have hstop : ∀ status reason, r.stopWith status reason = r := fun status reason => by
    simp [stopWith, h]
  simp [handle_eq r hp, hstop, stopped, h]

theorem handle_of_contained (h : r.stop = none) (hp : t.phase = .finished failed)
    (hc : failed = true → r.contained t.node.id = true) :
    r.handle time t = admitAll (r.resolveOutgoing t.node.id (outcome failed)).1
      (r.resolveOutgoing t.node.id (outcome failed)).2 := by
  have hgo : (failed && !r.contained t.node.id) = false := by
    cases hf : failed with
    | false => rfl
    | true => simp [hc hf]
  rw [handle_eq r hp, hgo]
  simp [stopped, h]

theorem handle_of_uncontained (h : r.stop = none) (hp : t.phase = .finished true)
    (hc : r.contained t.node.id = false) :
    r.handle time t = { r with stop := some ⟨.failed, r.failureReason t.node.id⟩ } := by
  rw [handle_eq r hp, hc]
  simp [stopped, stopWith, h]

end

end Run

namespace Front

open Run

/-- Why handling stops at a front: deciding the next node raises, or a failure is not contained. -/
inductive Stops : Front → String → Prop
  | raised {r : Run} {todo : List Task} {rest : List String} {id : String} {f : Failure}
    (h : r.decide id = .error f) : Stops ⟨r, todo, id :: rest⟩ (raiseReason f)
  | uncontained {r : Run} {todo : List Task} {t : Task} (hp : t.phase = .finished true)
    (hc : r.contained t.node.id = false) : Stops ⟨r, t :: todo, []⟩ (r.failureReason t.node.id)

/-- The run is stopped at a front: of the tasks that are left the cancelled ones are still marked. -/
def halt (time : Moment) (reason : String) (f : Front) : Run :=
  f.todo.foldl (handle time) { f.run with stop := some ⟨.failed, reason⟩ }

/-- The front gets to a run with nothing left to decide and so much left to do, or to one that is
stopped on the way. -/
def Yields (time : Moment) (f : Front) (todo : List Task) (r : Run) : Prop :=
  ReflTransGen (Beat time) f ⟨r, todo, []⟩ ∨
    ∃ m reason, ReflTransGen (Beat time) f m ∧ Stops m reason ∧ todo.foldl (handle time) r = m.halt time reason

section
variable {time : Moment} {f f' : Front} {todo : List Task} {r : Run} {t : Task}

theorem Yields.of_beats (hb : ReflTransGen (Beat time) f f') (h : Yields time f' todo r) : Yields time f todo r := by
  rcases h with h | ⟨m, reason, hm, hs, hr⟩
  · exact Or.inl (hb.trans h)
  · exact Or.inr ⟨m, reason, hb.trans hm, hs, hr⟩

theorem Live.mem_undecided (hl : f.Live) {id : String} (hid : id ∈ f.waiting) : id ∈ f.run.undecided := by
  have hfresh := hl.fresh id (List.mem_append_left _ hid)
  exact Run.mem_undecided.2
    ⟨hfresh.1, hfresh.2, fun hr => (List.nodup_append.1 hl.nodup).2.2 id hid id hr rfl⟩

/-- Deciding goes on to the end or to a raise, if the bound allows for all nodes that are undecided. -/
theorem decideAll_yields (steps : Nat) (waiting : List String) (r : Run)
    (hg : Good ⟨r, todo, waiting⟩) (hstop : r.stop = none) (hsteps : r.undecided.length ≤ steps) :
    Yields time ⟨r, todo, waiting⟩ todo (decideAll steps waiting r) := by
  induction steps generalizing waiting r with
  | zero =>
    cases waiting with
    | nil => exact Or.inl ReflTransGen.refl
    | cons id rest =>
      have hund : id ∈ r.undecided := hg.live.mem_undecided (List.mem_cons_self ..)
      have := List.length_pos_of_mem hund
      omega
  | succ n ih =>
    cases waiting with
    | nil => exact Or.inl ReflTransGen.refl
    | cons id rest =>
      have hund : id ∈ r.undecided := hg.live.mem_undecided (List.mem_cons_self ..)
      unfold decideAll
      split
      · next failure hd =>
        exact Or.inr ⟨_, _, ReflTransGen.refl, Stops.raised hd, by rw [internalError_eq hstop failure]; rfl⟩
      · next hd =>
        have hb : Beat time ⟨r, todo, id :: rest⟩ ⟨{ r with ready := r.ready ++ [id] }, todo, rest⟩ := Beat.accept hd
        have hlt := length_undecided_lt r { r with ready := r.ready ++ [id] } rfl
          (fun x hx => hx.imp_right fun h => List.mem_append_left _ h) hund
          (Or.inr (List.mem_append_right _ (List.mem_singleton_self id)))
        exact (ih _ _ (hg.beat hb) hstop (by omega)).of_beats (ReflTransGen.single hb)
      · next hd =>
        have hb : Beat time ⟨r, todo, id :: rest⟩ _ := Beat.skip hd
        obtain ⟨u, hu, -⟩ := resolveOutgoing_spec (r.skip id) id .skipped
        have hids : ((r.skip id).resolveOutgoing id .skipped).1.entryIds = r.entryIds ++ [id] := by
          rw [hu]
          exact entryIds_addEntry
        have hlt := length_undecided_lt r ((r.skip id).resolveOutgoing id .skipped).1
          (by rw [hu]; rfl)
          (fun x hx => by
            rw [hids, hu]
            exact hx.imp_left fun h => List.mem_append_left _ h) hund
          (Or.inl (by rw [hids]; exact List.mem_append_right _ (List.mem_singleton_self id)))
        have hgraph : ((r.skip id).resolveOutgoing id .skipped).1.graph = r.graph := by rw [hu]; rfl
        dsimp only
        rw [hgraph]
        refine (ih _ _ (hg.beat hb) ?_ (by omega)).of_beats (ReflTransGen.single hb)
        rw [hu]
        exact hstop

theorem admitAll_yields {r : Run} {ids : List String} (hg : Good ⟨r, todo, r.graph.sortByPosition ids⟩)
    (hstop : r.stop = none) : Yields time ⟨r, todo, r.graph.sortByPosition ids⟩ todo (r.admitAll ids) := by
  refine decideAll_yields _ _ r hg hstop ?_
  have : r.undecided.length ≤ r.graph.nodeIds.length := List.length_filter_le _ _
  rw [Graph.nodeIds, List.length_map] at this
  omega

/-- Handling one task resolves its node, loses it or stops the run. -/
theorem handle_yields (hg : Good ⟨r, t :: todo, []⟩) (hstop : r.stop = none) :
    Yields time ⟨r, t :: todo, []⟩ todo (r.handle time t) := by
  obtain ⟨hover, -⟩ := hg.live.todo t (List.mem_cons_self ..)
  rcases Phase.isOver_iff.1 hover with ⟨failed, hp⟩ | hp
  · by_cases hc : failed = true → r.contained t.node.id = true
    · rw [handle_of_contained hstop hp hc]
      have hb : Beat time ⟨r, t :: todo, []⟩ _ := Beat.resolve hp hc
      have hh := handled_resolveOutgoing time [] r t.node.id (outcome failed)
      rw [← hh.graph] at hb
      exact (admitAll_yields (hg.beat hb) (hh.stop.trans hstop)).of_beats (ReflTransGen.single hb)
    · push Not at hc
      obtain ⟨rfl, hc⟩ := hc
      have hc : r.contained t.node.id = false := by simpa using hc
      refine Or.inr ⟨_, _, ReflTransGen.refl, Stops.uncontained hp hc, ?_⟩
      rw [handle_of_uncontained hstop hp hc, halt, List.foldl_cons, handle_of_stopped rfl hp]
  · rw [handle_unwound r hp]
    exact Or.inl (ReflTransGen.single (Beat.lose hp))

/-- Handling several tasks resolves the nodes of all of them that were not cancelled, or stops the run. -/
theorem foldl_handle_yields (hg : Good ⟨r, todo, []⟩) (hstop : r.stop = none) :
    Yields time ⟨r, todo, []⟩ [] (todo.foldl (handle time) r) := by
  induction todo generalizing r with
  | nil => exact Or.inl ReflTransGen.refl
  | cons t rest ih =>
    rw [List.foldl_cons]
    have hyields : Yields time ⟨r, t :: rest, []⟩ rest _ := handle_yields hg hstop
    rcases hyields with hb | ⟨m, reason, hm, hs, hr⟩
    · exact (ih (hg.beats hb) ((handled_of_beats hb).stop.trans hstop)).of_beats hb
    · exact Or.inr ⟨m, reason, hm, hs, hr⟩

/-! Tasks that are left when the run is stopped -/

/-- A stopped run only marks the cancelled tasks among those that are left. -/
theorem handled_foldl_of_stopped {s : Stop} (h : r.stop = some s) (hover : ∀ t ∈ todo, t.phase.isOver = true) :
    Handled time todo r (todo.foldl (handle time) r) ∧ (todo.foldl (handle time) r).ready = r.ready := by
  induction todo generalizing r with
  | nil => exact ⟨handled_refl time [] r, rfl⟩
  | cons t rest ih =>
    rw [List.foldl_cons]
    have hrest : ∀ u ∈ rest, u.phase.isOver = true := fun u hu => hover u (List.mem_cons_of_mem _ hu)
    have hsub : ∀ u ∈ rest, u ∈ t :: rest := fun u hu => List.mem_cons_of_mem _ hu
    rcases Phase.isOver_iff.1 (hover t (List.mem_cons_self ..)) with ⟨failed, hp⟩ | hp
    · rw [handle_of_stopped h hp]
      exact (ih h hrest).imp_left fun hh => (handled_refl time _ r).trans hsub hh
    · rw [handle_unwound r hp]
      have hmark : Handled time (t :: rest) r (r.markInterrupted time t.node.id) :=
        handled_markInterrupted time (List.mem_cons_self ..) hp r
      exact (ih (hmark.stop.trans h) hrest).imp_left fun hh => hmark.trans hsub hh

theorem halt_stop (time : Moment) (reason : String) (hl : f.Live) :
    (f.halt time reason).stop = some ⟨.failed, reason⟩ :=
  (handled_foldl_of_stopped rfl fun t ht => (hl.todo t ht).1).1.stop

theorem halt_handled (time : Moment) (reason : String) (hl : f.Live) :
    Handled time f.todo { f.run with stop := some ⟨.failed, reason⟩ } (f.halt time reason) :=
  (handled_foldl_of_stopped rfl fun t ht => (hl.todo t ht).1).1

theorem sound_foldl_of_stopped {s : Stop} (h : r.stop = some s) (hs : r.Sound)
    (hover : ∀ t ∈ todo, t.phase.isOver = true ∧ t.node.id ∉ r.taskIds) : (todo.foldl (handle time) r).Sound := by
  induction todo generalizing r with
  | nil => exact hs
  | cons t rest ih =>
    rw [List.foldl_cons]
    obtain ⟨hphase, hnot⟩ := hover t (List.mem_cons_self ..)
    have hrest : ∀ u ∈ rest, u.phase.isOver = true ∧ u.node.id ∉ r.taskIds := fun u hu =>
      hover u (List.mem_cons_of_mem _ hu)
    rcases Phase.isOver_iff.1 hphase with ⟨failed, hp⟩ | hp
    · rw [handle_of_stopped h hp]
      exact ih h hs hrest
    · rw [handle_unwound r hp]
      exact ih h (Sound.markInterrupted time hs hnot) hrest

theorem Live.todo_not_mem (hl : f.Live) {t : Task} (ht : t ∈ f.todo) : t.node.id ∉ f.run.taskIds := fun hid =>
  (List.nodup_append.1 hl.opened_nodup).2.2 _ hid _ (List.mem_map_of_mem (f := fun t : Task => t.node.id) ht) rfl

theorem Good.halt_sound (time : Moment) (reason : String) (hg : f.Good) : (f.halt time reason).Sound := by
  have hs : Run.Sound { f.run with stop := some ⟨.failed, reason⟩ } := hg.sound.congr rfl rfl rfl rfl
  exact sound_foldl_of_stopped rfl hs fun t ht => ⟨(hg.live.todo t ht).1, hg.live.todo_not_mem ht⟩

theorem ended_foldl_of_stopped {s : Stop} (h : r.stop = some s) (hs : r.Sound)
    (hover : ∀ t ∈ todo, t.phase.isOver = true ∧ ∃ e, r.entry? t.node.id = some e ∧ e.status = t.phase.status)
    (hnodup : (todo.map fun t => t.node.id).Nodup) (hnot : ∀ t ∈ todo, t.node.id ∉ r.taskIds)
    (hended : ∀ e ∈ r.log.nodeLogs, e.status.Ended ∨ e.nodeId ∈ r.taskIds ∨ e.nodeId ∈ todo.map fun t => t.node.id) :
    ∀ e ∈ (todo.foldl (handle time) r).log.nodeLogs, e.status.Ended ∨ e.nodeId ∈ r.taskIds := by
  induction todo generalizing r with
  | nil => exact fun e he => (hended e he).imp_right fun h => h.resolve_right List.not_mem_nil
  | cons t rest ih =>
    rw [List.foldl_cons]
    rw [List.map_cons, List.nodup_cons] at hnodup
    have hsub : ∀ u ∈ rest, u ∈ t :: rest := fun u hu => List.mem_cons_of_mem _ hu
    have hne : ∀ u ∈ rest, u.node.id ≠ t.node.id := fun u hu heq => hnodup.1 (List.mem_map.2 ⟨u, hu, heq⟩)
    have hentry : ∀ e ∈ r.log.nodeLogs, e.nodeId = t.node.id → e.status = t.phase.status := fun e he hid => by
      obtain ⟨-, e', he', hst⟩ := hover t (List.mem_cons_self ..)
      have heq := entry?_of_mem hs.entries_nodup he
      rw [hid] at heq
      rw [Option.some.inj (heq.symm.trans he')]
      exact hst
    rcases Phase.isOver_iff.1 (hover t (List.mem_cons_self ..)).1 with ⟨failed, hp⟩ | hp
    · rw [handle_of_stopped h hp]
      refine ih h hs (fun u hu => hover u (hsub u hu)) hnodup.2 (fun u hu => hnot u (hsub u hu)) fun e he => ?_
      rcases hended e he with hend | hid | hid
      · exact Or.inl hend
      · exact Or.inr (Or.inl hid)
      · rcases List.mem_cons.1 hid with hid | hid
        · refine Or.inl ?_
          rw [hentry e he hid, hp]
          cases failed
          · exact Or.inl rfl
          · exact Or.inr (Or.inl rfl)
        · exact Or.inr (Or.inr hid)
    · rw [handle_unwound r hp]
      have hids : (r.markInterrupted time t.node.id).taskIds = r.taskIds := rfl
      have htouch : Touched t.node.id (fun t => t) (NodeLog.interrupted time r.stop)
          { r with lost := r.lost ++ [t.node.id] } (r.markInterrupted time t.node.id) :=
        touched_editEntry (keepsId_interrupted time r.stop)
      refine ih (r := r.markInterrupted time t.node.id) h
        (Sound.markInterrupted time hs (hnot t (List.mem_cons_self ..)))
        (fun u hu => ?_) hnodup.2 (fun u hu => hnot u (hsub u hu)) fun e he => ?_
      · obtain ⟨hover, e, he, hst⟩ := hover u (hsub u hu)
        refine ⟨hover, e, ?_, hst⟩
        rw [htouch.entry?, if_neg (hne u hu)]
        exact he
      · rw [markInterrupted_log] at he
        obtain ⟨e₀, he₀, rfl⟩ := List.mem_map.1 he
        rw [keepsId_cutEntry, hids]
        by_cases hid : e₀.nodeId = t.node.id
        · refine Or.inl ?_
          rw [cutEntry, if_pos (List.mem_singleton.2 hid), interrupted_status, hentry e₀ he₀ hid, hp]
          exact Or.inr (Or.inl rfl)
        · rw [cutEntry, if_neg fun hm => hid (List.mem_singleton.1 hm)]
          refine (hended e₀ he₀).imp_right fun hm => hm.imp_right fun hm => ?_
          exact (List.mem_cons.1 hm).resolve_left hid

/-- When the run is stopped at a front, what has not ended is in flight. -/
theorem Good.halt_ended (time : Moment) (reason : String) (hg : f.Good) :
    ∀ e ∈ (f.halt time reason).log.nodeLogs, e.status.Ended ∨ e.nodeId ∈ f.run.taskIds := by
  have hs : Run.Sound { f.run with stop := some ⟨.failed, reason⟩ } := hg.sound.congr rfl rfl rfl rfl
  refine ended_foldl_of_stopped rfl hs hg.live.todo (List.nodup_append.1 hg.live.opened_nodup).2.1
    (fun t ht => hg.live.todo_not_mem ht) fun e he => ?_
  exact (hg.live.ended e he).imp_right List.mem_append.1

end

end Front

namespace Run

/-! The whole batch -/

def unfinished (r : Run) : Run :=
  { r with tasks := r.tasks.filter fun t => !t.isFinished }

def front (r : Run) : Front :=
  ⟨r, [], []⟩

def batchFront (r : Run) : Front :=
  ⟨r.unfinished, r.batch, []⟩

section
variable {r : Run} {t : Task}

theorem isFinished_eq (t : Task) : t.isFinished = t.phase.isOver := by
  unfold Task.isFinished Phase.isOver
  cases t.phase <;> rfl

/-- Finished tasks can go. -/
theorem Sound.unfinished (h : r.Sound) : r.unfinished.Sound where
  graph := h.graph
  entries_nodup := h.entries_nodup
  entries_mem := h.entries_mem
  entries_closed := h.entries_closed
  ordered := h.ordered
  tasks_nodup := h.tasks_nodup.sublist (List.filter_sublist.map _)
  task_node := fun t ht => h.task_node t (List.mem_of_mem_filter ht)
  task_entry := fun t ht => h.task_entry t (List.mem_of_mem_filter ht)

theorem perm_batch (r : Run) : r.batch.Perm (r.tasks.filter Task.isFinished) :=
  List.mergeSort_perm _ _

theorem mem_batch : t ∈ r.batch ↔ t ∈ r.tasks ∧ t.isFinished = true := by
  rw [(perm_batch r).mem_iff, List.mem_filter]

theorem opened_front (r : Run) : r.front.opened = r.taskIds :=
  List.append_nil _

/-- When the finished tasks leave, their nodes are still opened. -/
theorem perm_opened_batchFront (r : Run) : r.batchFront.opened.Perm r.taskIds := by
  have hsplit : (r.unfinished.tasks ++ r.batch).Perm r.tasks := by
    refine (List.Perm.append_left _ (perm_batch r)).trans ?_
    refine List.perm_append_comm.trans ?_
    exact List.filter_append_perm Task.isFinished r.tasks
  have := hsplit.map fun t => t.node.id
  rw [List.map_append] at this
  exact this

theorem Live.batchFront (hs : r.Sound) (h : r.front.Live) : r.batchFront.Live := by
  have hperm := perm_opened_batchFront r
  have hopened := opened_front r
  have hmissing : ∀ id, r.batchFront.missing id = r.front.missing id := fun id => by
    refine List.filter_congr fun s _ => ?_
    rw [Bool.not_inj_iff, Bool.eq_iff_iff, Front.isResolved_iff, Front.isResolved_iff, hperm.mem_iff, hopened]
    rfl
  refine ⟨fun id hid => ?_, hperm.nodup_iff.2 hs.tasks_nodup, fun t ht => ?_, fun id hid => ?_, fun e he => ?_, h.nodup,
    h.fresh, fun id => ?_, fun id hid => ?_⟩
  · exact h.opened id (hopened ▸ hperm.mem_iff.1 hid)
  · obtain ⟨ht, hf⟩ := mem_batch.1 ht
    rw [isFinished_eq] at hf
    exact ⟨hf, hs.task_entry t ht⟩
  · obtain ⟨hentered, hnot⟩ := h.lost id hid
    exact ⟨hentered, fun ho => hnot (hopened ▸ hperm.mem_iff.1 ho)⟩
  · refine (h.ended e he).imp_right fun ho => hperm.mem_iff.2 ?_
    rw [hopened] at ho
    exact ho
  · rw [hmissing]
    exact h.counts id
  · rw [hmissing]
    exact h.free id hid

/-- Between two batches, what has not ended is in flight. -/
theorem Good.ended (h : r.front.Good) : ∀ e ∈ r.log.nodeLogs, e.status.Ended ∨ e.nodeId ∈ r.taskIds := fun e he =>
  (h.live.ended e he).imp_right fun ho => opened_front r ▸ ho

theorem Good.batchFront (h : r.front.Good) : r.batchFront.Good :=
  ⟨h.sound.unfinished, Live.batchFront h.sound h.live⟩

/-- How the handling of a batch ends. Either nothing is left to handle and to decide, and the ready
nodes have been brought into order, or the run has been stopped. -/
inductive BatchEnd (time : Moment) (f : Front) : Run → Prop
  | calm {q : Run} {order : List String} (hb : ReflTransGen (Front.Beat time) f q.front) (ho : order.Perm q.ready) :
    BatchEnd time f { q with ready := order }
  | halted {m : Front} {reason : String} (hb : ReflTransGen (Front.Beat time) f m) (hs : Front.Stops m reason)
    (order : List String) : BatchEnd time f { m.halt time reason with ready := order }

theorem BatchEnd.of_yields {time : Moment} {f : Front} (h : Front.Yields time f [] r) : BatchEnd time f r := by
  rcases h with hb | ⟨m, reason, hb, hs, hr⟩
  · exact .calm hb (List.Perm.refl _)
  · rw [List.foldl_nil] at hr
    rw [hr]
    exact .halted hb hs (m.halt time reason).ready

theorem handleBatch_ends (time : Moment) (h : r.front.Good) (hstop : r.stop = none) :
    BatchEnd time r.batchFront (r.handleBatch time) := by
  have hy : Front.Yields time r.batchFront [] (r.batch.foldl (handle time) r.unfinished) :=
    Front.foldl_handle_yields (Good.batchFront h) hstop
  have heq : r.handleBatch time = { r.batch.foldl (handle time) r.unfinished with
      ready := (r.batch.foldl (handle time) r.unfinished).graph.sortByPosition
        (r.batch.foldl (handle time) r.unfinished).ready } := rfl
  rw [heq]
  rcases hy with hb | ⟨m, reason, hb, hs, hr⟩
  · exact .calm hb (Graph.perm_sortByPosition _ _)
  · rw [List.foldl_nil] at hr
    rw [hr]
    exact .halted hb hs _

end

end Run

end Flowgraph
