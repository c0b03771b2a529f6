import Flowgraph.Proofs.Run.Effect
import Flowgraph.Proofs.Run.Occupancy

/-! The verdict on a run. The first stop decides its status, and after that nothing is started any more: what has ended
stays, what is in flight fails as interrupted, and the rest is skipped. -/

namespace Flowgraph

open Relation (ReflTransGen)

/-- What becomes of an entry while its run winds down after a stop. -/
structure NodeLog.Fares (stop : Stop) (spared : List String) (e e' : NodeLog) : Prop where
  nodeId : e'.nodeId = e.nodeId
  stays : e.status ≠ .running → e' = e
  ends : e.status = .running → e'.status = .running ∨
    e'.status = .failed ∧ e'.error = some (Stop.interruption (some stop)) ∨ e.nodeId ∈ spared

namespace Run

/-- A stopped run has wound down some way. -/
structure Winds (lenient : Bool) (stop : Stop) (s s' : Scene) : Prop where
  stopped : s'.run.stop = some stop
  entries : ∃ (g : NodeLog → NodeLog) (skipped : List String),
    s'.run.log.nodeLogs = s.run.log.nodeLogs.map g ++ skipped.map skippedEntry ∧
      ∀ e ∈ s.run.log.nodeLogs, e.Fares stop s'.spared (g e)
  tasks : ∀ t' ∈ s'.run.tasks, t'.node.id ∈ s'.spared ∨
    ∃ t ∈ s.run.tasks, t'.node = t.node ∧ (t'.phase = t.phase ∨ t'.phase = .unwound)
  spared : ∀ id ∈ s.spared, id ∈ s'.spared
  outlasts : ∀ id ∈ s'.spared, id ∈ s.spared ∨
    lenient = true ∧ ∃ t ∈ s.run.tasks, t.node.id = id ∧ t.phase.isUnderCall = true

/-- Where a stop comes from: a request, a node that could not be decided, or a failure that nothing contains. -/
inductive Cause (w : Workflow) (r : Run) : Bool → Bool → Stop → Prop
  | asked : Cause w r true false ⟨.cancelled, cancelReason⟩
  | raised (f : Failure) : Cause w r false true ⟨.failed, raiseReason f⟩
  | uncontained {n : Node} {e : NodeLog} (hn : (Graph.ofWorkflow w).node? n.id = some n)
    (hc : Policy.contains w (Graph.ofWorkflow w) n = false) (he : r.entry? n.id = some e) (hf : e.status = .failed) :
    Cause w r false false ⟨.failed, "Node '" ++ n.id ++ "' failed: " ++ e.error.getD ""⟩

def calmStatus (r : Run) : RunStatus :=
  if ∃ e ∈ r.log.nodeLogs, e.status = .failed then .failed else .success

/-- What holds from a stop on: nothing is started, and what has ended stays. When the run has finished, it has the
status and the reason of the stop, what was in flight has failed as interrupted unless its call has outlasted its
cancellation, and the rest is skipped. -/
structure Closes (lenient : Bool) (w : Workflow) (stop : Stop) (s s' : Scene) : Prop where
  unstarted : ∀ e ∈ s'.run.log.nodeLogs, e.nodeId ∉ s.run.entryIds → e.status = .skipped
  ended : Keeps s.run s'.run
  outlasts : ∀ id ∈ s'.spared, id ∈ s.spared ∨
    lenient = true ∧ ∃ t ∈ s.run.tasks, t.node.id = id ∧ t.phase.isUnderCall = true
  status : s'.run.isFinished = true → s'.run.log.status = stop.status ∧ s'.run.log.error = some stop.reason
  inFlight : s'.run.isFinished = true → ∀ e ∈ s.run.log.nodeLogs, e.status = .running → e.nodeId ∈ s'.spared ∨
    ∃ e', s'.run.entry? e.nodeId = some e' ∧ e'.status = .failed ∧ e'.error = some (Stop.interruption (some stop))
  skipped : s'.run.isFinished = true → ∀ id ∈ w.nodeIds, id ∉ s.run.entryIds →
    ∃ e, s'.run.entry? id = some e ∧ e.status = .skipped

/-- What a run shows of the requests and raises so far, and of the stop that came of them. -/
inductive Told (w : Workflow) (r : Run) : Bool → Bool → Option Stop → Prop
  | going (hu : r.isFinished = false) (hstop : r.stop = none) : Told w r false false none
  | stopped {cancelled raised : Bool} {stop : Stop} (hu : r.isFinished = false) (hstop : r.stop = some stop)
    (hc : Cause w r cancelled raised stop) : Told w r cancelled raised (some stop)
  | done (hf : r.isFinished = true) (hs : r.log.status = r.calmStatus) : Told w r false false none
  | judged {cancelled raised : Bool} {stop : Stop} (hf : r.isFinished = true) (hc : Cause w r cancelled raised stop)
    (hs : r.log.status = stop.status) (he : r.log.error = some stop.reason) : Told w r cancelled raised (some stop)

section
variable {engine : Engine} {lenient cancelled raised : Bool} {w : Workflow} {stop : Stop} {verdict : Option Stop}
  {r r' q : Run} {f m : Front} {begun now : Nat} {time : Moment} {t : Task} {p : Phase} {id reason : String}
  {s s' s'' : Scene} {mark : Mark} {e e' e'' : NodeLog} {spared more changed : List String}

theorem fares_refl (stop : Stop) (spared : List String) (e : NodeLog) : e.Fares stop spared e :=
  ⟨rfl, fun _ => rfl, fun h => Or.inl h⟩

theorem Fares.trans (h : e.Fares stop spared e') (h' : e'.Fares stop more e'') (hsub : ∀ id ∈ spared, id ∈ more) :
    e.Fares stop more e'' where
  nodeId := h'.nodeId.trans h.nodeId
  stays hne := by
    have heq := h.stays hne
    rw [← heq]
    exact h'.stays (heq ▸ hne)
  ends hrun := by
    rcases h.ends hrun with hrun' | hfailed | hspared
    · rw [← h.nodeId]
      exact h'.ends hrun'
    · have heq := h'.stays (by rw [hfailed.1]; exact nofun)
      exact Or.inr (Or.inl (heq ▸ hfailed))
    · exact Or.inr (Or.inr (hsub _ hspared))

theorem winds_refl (h : s.run.stop = some stop) : Winds lenient stop s s where
  stopped := h
  entries := ⟨id, [], by simp, fun e _ => fares_refl stop s.spared e⟩
  tasks := fun t ht => Or.inr ⟨t, ht, rfl, Or.inl rfl⟩
  spared := fun _ h => h
  outlasts := fun _ h => Or.inl h

theorem Winds.trans (h : Winds lenient stop s s') (h' : Winds lenient stop s' s'') : Winds lenient stop s s'' where
  stopped := h'.stopped
  entries := by
    obtain ⟨g, skipped, hlog, hfares⟩ := h.entries
    obtain ⟨g', skipped', hlog', hfares'⟩ := h'.entries
    refine ⟨g' ∘ g, skipped ++ skipped', ?_, fun e he => ?_⟩
    · have hskip : (skipped.map skippedEntry).map g' = skipped.map skippedEntry := by
        rw [List.map_map]
        refine List.map_congr_left fun id hid => (hfares' _ ?_).stays nofun
        rw [hlog]
        exact List.mem_append_right _ (List.mem_map_of_mem hid)
      rw [hlog', hlog, List.map_append, hskip, List.map_map, List.map_append, List.append_assoc]
    · refine Fares.trans (hfares e he) (hfares' (g e) ?_) h'.spared
      rw [hlog]
      exact List.mem_append_left _ (List.mem_map_of_mem he)
  tasks := fun t'' ht'' => by
    rcases h'.tasks t'' ht'' with hspared | ⟨t', ht', hnode', hphase'⟩
    · exact Or.inl hspared
    · rcases h.tasks t' ht' with hspared | ⟨t, ht, hnode, hphase⟩
      · exact Or.inl (h'.spared _ (hnode' ▸ hspared))
      · refine Or.inr ⟨t, ht, hnode'.trans hnode, ?_⟩
        rcases hphase' with heq | hunwound
        · rw [heq]
          exact hphase
        · exact Or.inr hunwound
  spared := fun id hid => h'.spared id (h.spared id hid)
  outlasts := fun id hid => by
    rcases h'.outlasts id hid with hid | ⟨hl, t', ht', rfl, hcall⟩
    · exact h.outlasts id hid
    · rcases h.tasks t' ht' with hspared | ⟨t, ht, hnode, hphase | hunwound⟩
      · exact h.outlasts _ hspared
      · exact Or.inr ⟨hl, t, ht, congrArg Node.id hnode.symm, hphase ▸ hcall⟩
      · rw [hunwound] at hcall
        cases hcall

/-! Each of the moves of a stopped run -/

/-- Only marks and skipped nodes are new in the log. -/
theorem winds_of_log (s : Scene) (r' : Run) {g : NodeLog → NodeLog} (skipped : List String)
    (hstop : r'.stop = some stop)
    (hlog : r'.log.nodeLogs = s.run.log.nodeLogs.map g ++ skipped.map skippedEntry)
    (hg : ∀ e ∈ s.run.log.nodeLogs, e.Fares stop s.spared (g e))
    (htasks : ∀ t' ∈ r'.tasks, ∃ t ∈ s.run.tasks, t'.node = t.node ∧ t'.phase = t.phase)
    (altered : List String) : Winds lenient stop s ⟨r', s.spared, altered⟩ where
  stopped := hstop
  entries := ⟨g, skipped, hlog, hg⟩
  tasks := fun t' ht' => by
    obtain ⟨t, ht, hnode, hphase⟩ := htasks t' ht'
    exact Or.inr ⟨t, ht, hnode, Or.inl hphase⟩
  spared := fun _ h => h
  outlasts := fun _ h => Or.inl h

/-- A task moves: it leaves, or it is spared. -/
theorem Winding.winds_moved (h : Winding engine w s.run) (hstop : s.run.stop = some stop) (ht : t ∈ s.run.tasks)
    (hrun : t.phase.status = .running) (hm : Moved t.node.id p s.run r')
    (hp : p = .unwound ∧ spared = s.spared ∨ spared = t.node.id :: s.spared ∧ lenient = true ∧
      (t.phase.isUnderCall = true ∨ t.node.id ∈ s.spared)) : Winds lenient stop s ⟨r', spared, s.altered⟩ := by
  have htasks := hm.task_cases
  obtain ⟨f, g, htouch, -, hg⟩ := hm
  have hkept : ∀ id ∈ s.spared, id ∈ spared := fun id hid => by
    rcases hp with ⟨-, rfl⟩ | ⟨rfl, -⟩
    · exact hid
    · exact List.mem_cons_of_mem _ hid
  refine ⟨htouch.frame.stop.trans hstop, ⟨fun e => if e.nodeId = t.node.id then g e else e, [], ?_, fun e he => ?_⟩,
    fun u' hu' => ?_, hkept, fun id hid => ?_⟩
  · rw [htouch.entries]
    simp
  · dsimp only
    split_ifs with hid
    · have hown : e.status = .running :=
        (h.sound.entry_status he (hid ▸ task?_of_mem h.sound.tasks_nodup ht)).trans hrun
      refine ⟨htouch.nodeId e, fun hne => absurd hown hne, fun _ => ?_⟩
      rcases hp with ⟨rfl, -⟩ | ⟨rfl, -⟩
      · exact Or.inl (hg e hown)
      · exact Or.inr (Or.inr (hid ▸ List.mem_cons_self ..))
    · exact fares_refl stop spared e
  · obtain ⟨u, hu, hnode, ⟨hid, hphase⟩ | ⟨-, hphase⟩⟩ := htasks u' hu'
    · rcases hp with ⟨rfl, -⟩ | ⟨rfl, -⟩
      · exact Or.inr ⟨u, hu, hnode, Or.inr hphase⟩
      · refine Or.inl ?_
        rw [hnode, hid]
        exact List.mem_cons_self ..
    · exact Or.inr ⟨u, hu, hnode, Or.inl hphase⟩
  · rcases hp with ⟨-, rfl⟩ | ⟨rfl, hl, hcall⟩
    · exact Or.inl hid
    · rcases List.mem_cons.1 hid with rfl | hid
      · exact hcall.symm.imp_right fun hcall => ⟨hl, t, ht, rfl, hcall⟩
      · exact Or.inl hid

theorem Winding.winds_pick (h : Winding engine w s.run) (hstop : s.run.stop = some stop)
    (hover : t.phase.isOver = true) :
    Winds lenient stop s (s.withRun ((s.run.without t).handle time t)) := by
  have hrest : ∀ u ∈ (s.run.without t).tasks, ∃ u' ∈ s.run.tasks, u.node = u'.node ∧ u.phase = u'.phase := fun u hu =>
    ⟨u, (mem_tasks_without.1 hu).1, rfl, rfl⟩
  rcases handle_without time h.stopped hover with ⟨failed, -, heq⟩ | ⟨hp, heq⟩ <;> rw [heq]
  · exact winds_of_log s (s.run.without t) (g := id) [] hstop (by simp [without]) (fun e _ => fares_refl stop _ e)
      hrest _
  · refine winds_of_log s ((s.run.without t).markInterrupted time t.node.id)
      (g := cutEntry time s.run.stop [t.node.id]) [] hstop ?_ (fun e he => ?_) hrest _
    · rw [markInterrupted_log, List.map_nil, List.append_nil]
      rfl
    · refine ⟨keepsId_cutEntry _ _ _ e, fun hne => cutEntry_of_ne hne, fun hrun => ?_⟩
      unfold cutEntry
      split_ifs
      · rw [NodeLog.interrupted, if_pos hrun, hstop]
        exact Or.inr (Or.inl ⟨rfl, rfl⟩)
      · exact Or.inl hrun

theorem Winding.winds_finish (h : Winding engine w s.run) (hstop : s.run.stop = some stop) (ht : s.run.tasks = []) :
    Winds lenient stop s (s.withRun (s.run.complete time)) := by
  have hg := h.sound.wellFormed
  have hn := h.sound.tasks_nodup
  refine winds_of_log s _ _ ((stop_complete time hg hn).trans hstop) (complete_spec time hg hn h.unfinished).1
    (fun e he => ?_) (fun u hu => ?_) _
  · have hsame : s.run.closed time e = e := by
      rw [closed, hstop, ht]
      rfl
    rw [hsame]
    exact fares_refl stop _ e
  · rw [tasks_complete time hg hn h.unfinished fun _ => ht] at hu
    cases hu

theorem Stage.winds (h : Stage engine w s.run) (hstop : s.run.stop = some stop)
    (hm : Moves engine lenient now s mark s') : Winds lenient stop s s' := by
  have hnot : s.run.stop ≠ none := by
    rw [hstop]
    exact (Option.some_ne_none stop)
  cases hm with
  | handle ho hp hr =>
    cases ho with
    | first hb => exact absurd hb.stop hnot
    | batch hno => exact absurd hno hnot
  | halt ho hp hs =>
    cases ho with
    | first hb => exact absurd hb.stop hnot
    | batch hno => exact absurd hno hnot
  | resume hno => exact absurd hno hnot
  | ring hno => exact absurd hno hnot
  | request =>
    rw [stopWith_of_stopped (by rw [Run.stopped, hstop]; rfl)]
    exact winds_refl hstop
  | deliver hstopped hu ht hover =>
    exact (h.winding_of_stopped hstopped hu).winds_moved hstop ht (Phase.status_of_not_over hover)
      (moved_unwind hover) (Or.inl ⟨rfl, rfl⟩)
  | outlast hl hstopped hu ht hover hcall hr =>
    have hw := h.winding_of_stopped hstopped hu
    have hrun := Phase.status_of_not_over hover
    rcases hr with rfl | ⟨alarm, ha, rfl⟩
    · obtain ⟨p, hmoved, -⟩ : GoesOn engine _ _ s.run (s.run.goOn engine now _) := goesOn_goOn (hw.fits _ ht) hover
      exact hw.winds_moved hstop ht hrun hmoved (Or.inr ⟨rfl, hl, hcall⟩)
    · obtain ⟨p, hmoved, -⟩ := goesOn_ring (r := s.run) (hw.fits _ ht) ha
      exact hw.winds_moved hstop ht hrun hmoved (Or.inr ⟨rfl, hl, hcall⟩)
  | pick hstopped hu ht hover => exact (h.winding_of_stopped hstopped hu).winds_pick hstop hover
  | finish hstopped hu ht => exact (h.winding_of_stopped hstopped hu).winds_finish hstop ht
  | @alter changed scope renew ha hn =>
    refine winds_of_log s { s.run with scope, tasks := s.run.tasks.map renew } (g := id) [] hstop (by simp)
      (fun e _ => fares_refl stop _ e) (fun u hu => ?_) _
    obtain ⟨t, ht, rfl⟩ := List.mem_map.1 hu
    exact ⟨t, ht, (hn t).1, (hn t).2⟩

theorem Stage.winds_of_goes (hlimit : 0 < engine.limit) (h : Stage engine w s.run) (hstop : s.run.stop = some stop)
    (hs : ReflTransGen (Goes engine lenient) s s') : Winds lenient stop s s' ∧ Stage engine w s'.run := by
  induction hs with
  | refl => exact ⟨winds_refl hstop, h⟩
  | tail _ hm ih =>
    obtain ⟨now, mark, hm⟩ := hm
    exact ⟨ih.1.trans (ih.2.winds ih.1.stopped hm), ih.2.moves hlimit hm⟩

/-! The verdict -/

theorem Cause.keeps (h : Cause w r cancelled raised stop) (hk : Keeps r r') : Cause w r' cancelled raised stop := by
  cases h with
  | asked => exact .asked
  | raised f => exact .raised f
  | uncontained hn hc he hf => exact .uncontained hn hc (hk _ _ he (Or.inr (Or.inl hf))) hf

theorem Cause.status (h : Cause w r cancelled raised stop) :
    stop.status = if cancelled then .cancelled else .failed := by
  cases h <;> rfl

theorem Cause.of_stops (h : Stage engine w r) (ho : Opens r f) (hp : f.Pulses time changed m) (hs : m.Stops reason)
    (order : List String) : Cause w (haltedAt m reason order) false (!m.waiting.isEmpty) ⟨.failed, reason⟩ := by
  have hf := h.ready ho
  have hgood : m.Good := hp.good hf.good
  have hh := hp.handled
  have hworkflow : m.run.workflow = w := hh.workflow.trans hf.workflow
  have hgraph : m.run.graph = Graph.ofWorkflow w := hgood.sound.graph.trans (congrArg _ hworkflow)
  cases hs with
  | @raised r todo rest id failure hd => exact .raised failure
  | @uncontained r todo t hphase hc =>
    obtain ⟨-, e, he, hst⟩ := hgood.live.todo t (List.mem_cons_self ..)
    have hn : r.graph.node? t.node.id = some t.node := by
      have hnode := ho.todo_node (ho.sound hf.good h) t (hp.todo_subset t (List.mem_cons_self ..))
      exact (congrArg (Graph.node? · t.node.id) hh.graph).trans hnode
    have hreason : failureReason r t.node.id = "Node '" ++ t.node.id ++ "' failed: " ++ e.error.getD "" := by
      have he' : r.entry? t.node.id = some e := he
      rw [failureReason, he']
      rfl
    change r.workflow = w at hworkflow
    change r.graph = Graph.ofWorkflow w at hgraph
    rw [Run.contained, hn] at hc
    dsimp only at hc
    rw [hworkflow, hgraph] at hc
    rw [hgraph] at hn
    rw [hreason]
    refine .uncontained hn hc he ?_
    rw [hst, hphase]
    rfl

theorem Told.going_of_opens (h : Told w r cancelled raised verdict) (ho : Opens r f) :
    cancelled = false ∧ raised = false ∧ verdict = none := by
  have hu := ho.unfinished
  have hstop : r.stop = none := by
    cases ho with
    | first hb => exact hb.stop
    | batch hstop => exact hstop
  cases h with
  | going _ _ => exact ⟨rfl, rfl, rfl⟩
  | stopped _ hs _ => cases hstop.symm.trans hs
  | done hf _ => exact ⟨rfl, rfl, rfl⟩
  | judged hf _ _ _ => exact absurd (hu.symm.trans hf) Bool.false_ne_true

/-- A move that neither stops the run nor brings it to its end. -/
theorem Told.keeps (h : Told w r cancelled raised verdict) (hk : Keeps r r') (hstop : r'.stop = r.stop)
    (hu : r.isFinished = false → r'.isFinished = false) (hf : r.isFinished = true → r'.log = r.log) :
    Told w r' cancelled raised verdict := by
  have hfinished : r.isFinished = true → r'.isFinished = true := fun h => by rwa [Run.isFinished, hf h]
  cases h with
  | going hu' hs => exact .going (hu hu') (hstop.trans hs)
  | stopped hu' hs hc => exact .stopped (hu hu') (hstop.trans hs) (hc.keeps hk)
  | done hf' hs => exact .done (hfinished hf') (by rw [calmStatus, hf hf']; exact hs)
  | judged hf' hc hs he => exact .judged (hfinished hf') (hc.keeps hk) (by rw [hf hf', hs]) (by rw [hf hf', he])

theorem Told.request (h : Told w r cancelled raised verdict) :
    Told w (r.stopWith .cancelled cancelReason) (cancelled || (!r.stopped && !r.isFinished)) raised
      (if !r.stopped && !r.isFinished then some ⟨.cancelled, cancelReason⟩ else verdict) := by
  have hlog := log_stopWith (r := r) .cancelled cancelReason
  have hk : Keeps r (r.stopWith .cancelled cancelReason) := fun id e he _ => by
    rw [Run.entry?, hlog]
    exact he
  cases h with
  | going hu hs =>
    rw [stopWith_of_none hs, Run.stopped, hs, hu]
    exact .stopped hu rfl .asked
  | stopped hu hs hc =>
    have hstopped : r.stopped = true := by rw [Run.stopped, hs]; rfl
    rw [stopWith_of_stopped hstopped, hstopped, Bool.not_true, Bool.false_and, Bool.or_false]
    exact .stopped hu hs hc
  | done hf hs =>
    rw [hf, Bool.not_true, Bool.and_false, Bool.or_false]
    exact .done (by rwa [Run.isFinished, hlog]) (by rw [calmStatus, hlog]; exact hs)
  | judged hf hc hs he =>
    rw [hf, Bool.not_true, Bool.and_false, Bool.or_false]
    exact .judged (by rwa [Run.isFinished, hlog]) (hc.keeps hk) (by rw [hlog, hs]) (by rw [hlog, he])

theorem Closable.told_complete (hc : Closable w r) (hstop : r.stop = none) :
    Told w (r.complete time) false false none := by
  have hspec := (complete_spec time hc.sound.wellFormed hc.sound.tasks_nodup hc.unfinished).2
  rw [hstop] at hspec
  exact .done hc.covers.finished hspec

theorem Closable.judged_complete (hc : Closable w r) (hstop : r.stop = some stop)
    (hcause : Cause w (r.complete time) cancelled raised stop) :
    Told w (r.complete time) cancelled raised (some stop) := by
  have hspec := (complete_spec time hc.sound.wellFormed hc.sound.tasks_nodup hc.unfinished).2
  rw [hstop] at hspec
  exact .judged hc.covers.finished hcause hspec.1 hspec.2

/-- A move tells of a request and of a raise, and the first stop is the one that counts. -/
theorem Told.moves (hlimit : 0 < engine.limit) (hstage : Stage engine w s.run)
    (h : Told w s.run cancelled raised verdict) (hm : Moves engine lenient now s mark s') :
    ∃ verdict', Told w s'.run (cancelled || (mark = .asks && !s.run.stopped && !s.run.isFinished))
      (raised || mark = .raises) verdict' ∧ (verdict.isSome = true → verdict' = verdict) := by
  have hk := hstage.keeps hlimit hm
  have hwinds := fun stop (hstop : s.run.stop = some stop) => hstage.winds hstop hm
  -- a move of a stopped run that does not complete it
  have hstopped : s.run.stopped = true → s.run.isFinished = false → s'.run.isFinished = false →
      Told w s'.run cancelled raised verdict := fun hs hu hu' => by
    obtain ⟨stop, hstop⟩ := stop_of_stopped hs
    exact h.keeps hk ((hwinds stop hstop).stopped.trans hstop.symm) (fun _ => hu')
      fun hf => absurd (hu.symm.trans hf) Bool.false_ne_true
  have hgoing : s.run.stop = none → s.run.isFinished = false → Active engine w s'.run →
      Told w s'.run cancelled raised verdict := fun hstop hu ha =>
    h.keeps hk (ha.stop.trans hstop.symm) (fun _ => ha.unfinished)
      fun hf => absurd (hu.symm.trans hf) Bool.false_ne_true
  cases hm with
  | handle ho hp hr =>
    obtain ⟨rfl, rfl, rfl⟩ := h.going_of_opens ho
    refine ⟨none, ?_, fun _ => rfl⟩
    obtain ⟨nodes, m, -, ⟨heq, ha⟩ | ⟨heq, hstop, hc⟩⟩ := (hstage.ready ho).handles hlimit hp hr
    · exact heq ▸ .going ha.unfinished ha.stop
    · exact heq ▸ hc.told_complete hstop
  | @halt f m reason changed order ho hp hs =>
    obtain ⟨rfl, rfl, rfl⟩ := h.going_of_opens ho
    have hf := hstage.ready ho
    have hwinding : Winding engine w (haltedAt m reason order) :=
      hf.winding hp (ho.todo_node (ho.sound hf.good hstage))
    have hcause := Cause.of_stops hstage ho hp hs order
    have htold : Told w (haltedAt m reason order) false (!m.waiting.isEmpty) (some ⟨.failed, reason⟩) :=
      .stopped hwinding.unfinished rfl hcause
    refine ⟨some ⟨.failed, reason⟩, ?_, nofun⟩
    cases hw : m.waiting with
    | nil =>
      rw [hw] at htold
      exact htold
    | cons id rest =>
      rw [hw] at htold
      exact htold
  | resume hstop hu hid =>
    exact ⟨verdict, by simpa using hgoing hstop hu ((hstage.active_of_agenda hstop hu hid).resume hid).1, fun _ => rfl⟩
  | ring hstop hu ht ha =>
    exact ⟨verdict, by simpa using hgoing hstop hu ((hstage.active_of_task hstop hu ht).ring ht ha).1, fun _ => rfl⟩
  | request =>
    refine ⟨_, by simpa using h.request, fun hsome => if_neg ?_⟩
    cases h with
    | going _ _ => cases hsome
    | stopped _ hs _ => simp [Run.stopped, hs]
    | done _ _ => cases hsome
    | judged hf _ _ _ => simp [hf]
  | deliver hs hu ht hover =>
    exact ⟨verdict, by simpa using hstopped hs hu ((hstage.winding_of_stopped hs hu).deliver ht hover).unfinished,
      fun _ => rfl⟩
  | outlast hl hs hu ht hover hcall hr =>
    exact ⟨verdict, by simpa using hstopped hs hu ((hstage.winding_of_stopped hs hu).outlast ht hover hr).unfinished,
      fun _ => rfl⟩
  | pick hs hu ht hover =>
    exact ⟨verdict, by simpa using hstopped hs hu ((hstage.winding_of_stopped hs hu).pick ht hover).unfinished,
      fun _ => rfl⟩
  | finish hs hu ht =>
    have hc := (hstage.winding_of_stopped hs hu).toClosable
    cases h with
    | going _ hno =>
      rw [Run.stopped, hno] at hs
      cases hs
    | stopped _ hstop hcause => exact ⟨_, by simpa using hc.judged_complete hstop (hcause.keeps hk), fun _ => rfl⟩
    | done hf _ => exact absurd (hu.symm.trans hf) Bool.false_ne_true
    | judged hf _ _ _ => exact absurd (hu.symm.trans hf) Bool.false_ne_true
  | alter ha hn => exact ⟨verdict, by simpa using h.keeps hk rfl id fun _ => rfl, fun _ => rfl⟩

theorem Story.told {r₀ : Run} (hlimit : 0 < engine.limit) (h₀ : r₀.Unbegun)
    (h : Story engine lenient r₀ begun now cancelled raised s) :
    ∃ verdict, Told r₀.workflow s.run cancelled raised verdict := by
  induction h with
  | start => exact ⟨none, .going h₀.unfinished h₀.stop⟩
  | waits _ _ ih => exact ih
  | moves hs hm ih =>
    obtain ⟨verdict, htold⟩ := ih
    obtain ⟨verdict', htold', -⟩ := htold.moves hlimit (stage_of_goes hlimit h₀ hs.goes) hm
    exact ⟨verdict', htold'⟩

theorem Told.goes (hlimit : 0 < engine.limit) (hstage : Stage engine w s.run)
    (h : Told w s.run cancelled raised (some stop)) (hs : ReflTransGen (Goes engine lenient) s s') :
    Stage engine w s'.run ∧ ∃ cancelled raised, Told w s'.run cancelled raised (some stop) := by
  induction hs with
  | refl => exact ⟨hstage, cancelled, raised, h⟩
  | tail _ hm ih =>
    obtain ⟨now, mark, hm⟩ := hm
    obtain ⟨hstage', cancelled, raised, htold⟩ := ih
    obtain ⟨verdict, htold', hsome⟩ := htold.moves hlimit hstage' hm
    rw [hsome rfl] at htold'
    exact ⟨hstage'.moves hlimit hm, _, _, htold'⟩

/-- Only calls that may outlast a cancellation do. -/
theorem spared_eq_nil (hl : lenient = false) (h : ReflTransGen (Goes engine lenient) r.scene s) : s.spared = [] := by
  induction h with
  | refl => rfl
  | tail _ hm ih =>
    obtain ⟨now, mark, hm⟩ := hm
    cases hm with
    | outlast hl' => exact absurd (hl.symm.trans hl') Bool.false_ne_true
    | _ => exact ih

/-! From a stop to the end -/

theorem Stage.covers (h : Stage engine w r) (hf : r.isFinished = true) : Covers w r.log := by
  cases h with
  | first hb hw => exact absurd (hb.unfinished.symm.trans hf) Bool.false_ne_true
  | active ha => exact absurd (ha.unfinished.symm.trans hf) Bool.false_ne_true
  | winding hs => exact absurd (hs.unfinished.symm.trans hf) Bool.false_ne_true
  | finished hc => exact hc

theorem Told.of_finished (h : Told w r cancelled raised (some stop)) (hf : r.isFinished = true) :
    r.log.status = stop.status ∧ r.log.error = some stop.reason := by
  cases h with
  | stopped hu _ _ => exact absurd (hu.symm.trans hf) Bool.false_ne_true
  | judged _ _ hs he => exact ⟨hs, he⟩

theorem Winds.closes (hw : Winds lenient stop s s') (hstage : Stage engine w s'.run)
    (htold : Told w s'.run cancelled raised (some stop)) : Closes lenient w stop s s' := by
  obtain ⟨g, skipped, hlog, hfares⟩ := hw.entries
  have hold : ∀ e ∈ s.run.log.nodeLogs, s'.run.entry? e.nodeId = some (g e) := fun e he => by
    rw [← (hfares e he).nodeId]
    refine entry?_of_mem hstage.nodup ?_
    rw [hlog]
    exact List.mem_append_left _ (List.mem_map_of_mem he)
  have hnew : ∀ e ∈ s'.run.log.nodeLogs, e.nodeId ∉ s.run.entryIds → e.status = .skipped := fun e he hnot => by
    rw [hlog] at he
    rcases List.mem_append.1 he with he | he
    · obtain ⟨e₀, he₀, rfl⟩ := List.mem_map.1 he
      rw [(hfares e₀ he₀).nodeId] at hnot
      exact absurd (List.mem_map_of_mem he₀) hnot
    · obtain ⟨id, -, rfl⟩ := List.mem_map.1 he
      rfl
  refine ⟨hnew, fun id e he hend => ?_, hw.outlasts, htold.of_finished, fun hf e he hrun => ?_,
    fun hf id hid hnot => ?_⟩
  · have hmem := entry?_mem he
    have hstays := (hfares e hmem).stays hend.ne_running
    rw [← entry?_id he, hold e hmem, hstays]
  · rcases (hfares e he).ends hrun with hstill | hfailed | hspared
    · have hmem := entry?_mem (hold e he)
      exact absurd hstill ((hstage.covers hf).ended _ hmem).ne_running
    · exact Or.inr ⟨g e, hold e he, hfailed⟩
    · exact Or.inl hspared
  · obtain ⟨e, he, rfl⟩ := List.mem_map.1 (((hstage.covers hf).mem id).2 hid)
    exact ⟨e, entry?_of_mem hstage.nodup he, hnew e he hnot⟩

/-- A task that is over is marked and gone. -/
theorem Winding.picks (lenient : Bool) (h : Winding engine w s.run) (ht : t ∈ s.run.tasks)
    (hover : t.phase.isOver = true) :
    ∃ s', Goes engine lenient s s' ∧ Winding engine w s'.run ∧ s'.run.tasks.length < s.run.tasks.length := by
  refine ⟨_, ⟨0, _, .pick h.stopped h.unfinished ht hover⟩, h.pick ht hover, ?_⟩
  have htasks : ((s.run.without t).handle (engine.moment 0) t).tasks = (s.run.without t).tasks := by
    rcases handle_without (engine.moment 0) h.stopped hover with ⟨-, -, heq⟩ | ⟨-, heq⟩ <;> rw [heq]
    rfl
  rw [Scene.run_withRun, htasks]
  exact List.length_filter_lt_length_iff_exists.2 ⟨t, ht, by simp⟩

/-- Any task leaves, and is gone then. -/
theorem Winding.loses (lenient : Bool) (h : Winding engine w s.run) (ht : t ∈ s.run.tasks) :
    ∃ s', ReflTransGen (Goes engine lenient) s s' ∧ Winding engine w s'.run ∧
      s'.run.tasks.length < s.run.tasks.length := by
  cases hover : t.phase.isOver with
  | true =>
    obtain ⟨s', hgoes, hs', hlt⟩ := h.picks lenient ht hover
    exact ⟨s', .single hgoes, hs', hlt⟩
  | false =>
    have hmoved : Moved t.node.id .unwound s.run (s.run.unwind (engine.moment 0) t) := moved_unwind hover
    obtain ⟨f, g, htouch, hphase, -⟩ := hmoved
    have ht' : f t ∈ (s.run.unwind (engine.moment 0) t).tasks := by
      rw [htouch.tasks]
      exact List.mem_map.2 ⟨t, ht, if_pos rfl⟩
    have hlength : (s.run.unwind (engine.moment 0) t).tasks.length = s.run.tasks.length := by
      rw [htouch.tasks, List.length_map]
    obtain ⟨s', hgoes, hs', hlt⟩ := Winding.picks lenient (s := s.withRun _) (h.deliver ht hover) ht'
      (by rw [hphase]; rfl)
    exact ⟨s', .head ⟨0, _, .deliver h.stopped h.unfinished ht hover⟩ (.single hgoes), hs', hlength ▸ hlt⟩

/-- A stopped run can always come to its end. -/
theorem Winding.ends (h : Winding engine w s.run) :
    ∃ s', ReflTransGen (Goes engine lenient) s s' ∧ s'.run.isFinished = true := by
  induction hn : s.run.tasks.length using Nat.strong_induction_on generalizing s with
  | _ n ih =>
    cases htasks : s.run.tasks with
    | nil => exact ⟨_, .single ⟨0, _, .finish h.stopped h.unfinished htasks⟩, h.covers.finished⟩
    | cons t rest =>
      obtain ⟨s', hgoes, hs', hlt⟩ := h.loses lenient (t := t) (by rw [htasks]; exact List.mem_cons_self ..)
      obtain ⟨s'', hgoes', hf⟩ := ih _ (hn ▸ hlt) hs' rfl
      exact ⟨s'', hgoes.trans hgoes', hf⟩

theorem Told.judgement (h : Told w r cancelled raised verdict) (hf : r.isFinished = true) :
    (r.log.status = .cancelled ↔ cancelled = true) ∧
      (r.log.status = .failed ↔ cancelled = false ∧ (raised = true ∨ ∃ e ∈ r.log.nodeLogs, e.status = .failed)) ∧
      (r.log.status = .success ↔ cancelled = false ∧ raised = false ∧ ∀ e ∈ r.log.nodeLogs, e.status ≠ .failed) := by
  cases h with
  | going hu _ => exact absurd (hu.symm.trans hf) Bool.false_ne_true
  | stopped hu _ _ => exact absurd (hu.symm.trans hf) Bool.false_ne_true
  | done _ hs =>
    rw [hs, calmStatus]
    split_ifs with hfailed
    · simpa using hfailed
    · simpa using hfailed
  | judged _ hc hs _ =>
    rw [hs, hc.status]
    cases hc with
    | asked => simp
    | raised f => simp
    | uncontained hn hc he hfailed => simpa using ⟨_, entry?_mem he, hfailed⟩

end

/-! Runs followed move by move -/

/-- What happens within one instant apart from requests and raises. -/
def Passes (engine : Engine) (lenient : Bool) (now : Nat) : Scene → Scene → Prop :=
  ReflTransGen fun s s' => Moves engine lenient now s .passes s'

def resumeAll (engine : Engine) (now : Nat) (ids : List String) (r : Run) : Run :=
  ids.foldl (fun r id => r.resume engine now id) r

def mayResume (engine : Engine) (now : Nat) : List String → Run → Bool
  | [], _ => true
  | id :: rest, r =>
    r.stop.isNone && !r.isFinished && r.agenda.contains id && mayResume engine now rest (r.resume engine now id)

def leave (time : Moment) (id : String) (r : Run) : Run :=
  match r.task? id with
  | some t => r.unwind time t
  | none => r

def mark (time : Moment) (id : String) (r : Run) : Run :=
  match r.task? id with
  | some t => (r.without t).handle time t
  | none => r

section
variable {engine : Engine} {lenient cancelled raised : Bool} {begun now : Nat} {r₀ : Run} {s s' : Scene}

theorem Passes.goes (h : Passes engine lenient now s s') : ReflTransGen (Goes engine lenient) s s' := by
  induction h with
  | refl => exact .refl
  | tail _ hm ih => exact ih.tail ⟨now, _, hm⟩

theorem Story.passes (h : Story engine lenient r₀ begun now cancelled raised s)
    (hp : Passes engine lenient now s s') : Story engine lenient r₀ begun now cancelled raised s' := by
  induction hp with
  | refl => exact h
  | tail _ hm ih => simpa using ih.moves hm

theorem Story.asks (h : Story engine lenient r₀ begun now cancelled raised s) (hstop : s.run.stop = none)
    (hu : s.run.isFinished = false) :
    Story engine lenient r₀ begun now true raised (s.withRun (s.run.stopWith .cancelled cancelReason)) := by
  have hstopped : s.run.stopped = false := by rw [Run.stopped, hstop]; rfl
  simpa [hstopped, hu] using h.moves .request

/-- Nodes that may run are accepted one after another. -/
theorem pulses_accept {f : Front} {r : Run} {time : Moment} (ids ready : List String)
    (haccept : ∀ id ∈ ids, ∀ ready, Run.decide { r with ready } id = .ok true)
    (h : f.Pulses time [] ⟨{ r with ready }, [], ids⟩) : f.Pulses time [] (front { r with ready := ready ++ ids }) := by
  induction ids generalizing ready with
  | nil => rwa [List.append_nil]
  | cons id rest ih =>
    have hbeat := h.beat (.accept (haccept id (List.mem_cons_self ..) ready))
    have hrest := ih (ready ++ [id]) (fun id hid => haccept id (List.mem_cons_of_mem _ hid)) hbeat
    rwa [List.append_assoc] at hrest

theorem passes_launch {r : Run} (ids : List String) (h : r.Unbegun) (hfront : firstFront r = ⟨r, [], ids⟩)
    (haccept : ∀ id ∈ ids, ∀ ready, Run.decide { r with ready } id = .ok true) :
    Passes engine lenient now r.scene ({ r with ready := ids }.proceed engine now).scene := by
  have hready : { r with ready := [] } = r := by rw [← h.ready]
  have hpulses : (firstFront r).Pulses (engine.moment now) [] (front { r with ready := ids }) :=
    pulses_accept ids [] haccept (by rw [hready, hfront]; exact .refl)
  exact .single (.handle (q := { r with ready := ids }) (.first h) hpulses (List.Perm.refl _))

theorem passes_resumeAll (ids : List String) (s : Scene) (hgo : mayResume engine now ids s.run = true) :
    Passes engine lenient now s (s.withRun (resumeAll engine now ids s.run)) := by
  induction ids generalizing s with
  | nil => exact .refl
  | cons id rest ih =>
    simp only [mayResume, Bool.and_eq_true, Option.isNone_iff_eq_none, Bool.not_eq_true', List.contains_iff_mem] at hgo
    obtain ⟨⟨⟨hstop, hu⟩, hid⟩, hrest⟩ := hgo
    exact .head (.resume hstop hu hid) (ih (s.withRun _) hrest)

theorem moves_leave (id : String)
    (hgo : s.run.stopped && !s.run.isFinished && (s.run.task? id).any fun t => !t.phase.isOver) :
    Moves engine lenient now s .passes (s.withRun (s.run.leave (engine.moment now) id)) := by
  unfold Run.leave
  cases ht : s.run.task? id with
  | none => simp [ht] at hgo
  | some t =>
    simp only [ht, Option.any_some, Bool.and_eq_true, Bool.not_eq_true'] at hgo
    exact .deliver hgo.1.1 hgo.1.2 (task?_mem ht) hgo.2

theorem moves_mark (id : String)
    (hgo : s.run.stopped && !s.run.isFinished && (s.run.task? id).any fun t => t.phase.isOver) :
    Moves engine lenient now s .passes (s.withRun (s.run.mark (engine.moment now) id)) := by
  unfold Run.mark
  cases ht : s.run.task? id with
  | none => simp [ht] at hgo
  | some t =>
    simp only [ht, Option.any_some, Bool.and_eq_true, Bool.not_eq_true'] at hgo
    exact .pick hgo.1.1 hgo.1.2 (task?_mem ht) hgo.2

end

/-! A run that is cancelled while it does three things at once -/

def failingFirst (failures : Nat) : Executor where
  isAsync := true
  perform i := if i.attempt ≤ failures then .failed ⟨.runtime, "busy"⟩ else .done []

def waitingFor (seconds : Number) : Executor where
  isAsync := true
  perform _ := .after seconds fun scope => (scope, .ok .null)

def busyEngine : Engine where
  registry := ⟨[{ provider := "trigger", operation := "manual", executor := some (.echo true) },
    { provider := "test", operation := "retry", executor := some (failingFirst 1) },
    { provider := "test", operation := "wait", executor := some (waitingFor (.int 5)) }]⟩
  limit := 3
  defaultTimeout := Policy.standardTimeout
  backoff := ⟨.int 1, .int 1, .int 2, none⟩
  epoch := ⟨0, none⟩

def fourSteps : Workflow where
  id := "four"
  name := "Four steps"
  version := "1"
  nodes := [{ id := "begin", type := .trigger, provider := "trigger", operation := "manual" },
    { id := "retry", type := .action, provider := "test", operation := "retry", runtime := { retries := some 1 } },
    { id := "wait", type := .action, provider := "test", operation := "wait" },
    { id := "after", type := .action, provider := "test", operation := "wait" }]
  edges := [{ id := "e", source := "wait", target := "after" }]

def midway : Run :=
  let r := start fourSteps [] [] "run" (busyEngine.moment 0)
  resumeAll busyEngine 0 ["begin", "retry", "wait", "begin", "retry", "wait", "begin", "retry", "begin", "retry"]
    (Run.proceed busyEngine 0 { r with ready := ["begin", "retry", "wait"] })

theorem story_midway (lenient : Bool) :
    Story busyEngine lenient (start fourSteps [] [] "run" (busyEngine.moment 0)) 0 0 false false midway.scene := by
  set r₀ := start fourSteps [] [] "run" (busyEngine.moment 0)
  have hfront : firstFront r₀ = ⟨r₀, [], ["begin", "retry", "wait"]⟩ := by
    have hroots : r₀.graph.roots = ["begin", "retry", "wait"] := by decide
    rw [firstFront_of_sorted (by decide), hroots]
  have haccept : ∀ id ∈ ["begin", "retry", "wait"], ∀ ready, Run.decide { r₀ with ready } id = .ok true := by
    simp only [List.mem_cons, List.not_mem_nil, or_false]
    rintro id (rfl | rfl | rfl) ready <;> rfl
  have hlaunch : Passes busyEngine lenient 0 r₀.scene _ :=
    passes_launch _ (unbegun_start fourSteps [] [] "run" _) hfront haccept
  exact (Story.start.passes hlaunch).passes (passes_resumeAll _ (scene _) (by decide))

def fourCancelled : Run :=
  midway.stopWith .cancelled cancelReason

def fourLeft : Run :=
  (fourCancelled.leave (busyEngine.moment 0) "wait").leave (busyEngine.moment 0) "retry"

def fourMarked : Run :=
  let time := busyEngine.moment 0
  ((fourLeft.mark time "begin").mark time "retry").mark time "wait"

theorem story_fourCancelled (lenient : Bool) :
    Story busyEngine lenient (start fourSteps [] [] "run" (busyEngine.moment 0)) 0 0 true false fourCancelled.scene :=
  (story_midway lenient).asks (by decide) (by decide)

theorem passes_fourLeft (lenient : Bool) : Passes busyEngine lenient 0 fourCancelled.scene fourLeft.scene := by
  set r := fourCancelled.leave (busyEngine.moment 0) "wait"
  have hwait : Moves busyEngine lenient 0 fourCancelled.scene .passes r.scene :=
    moves_leave (s := fourCancelled.scene) "wait" (by decide)
  have hretry : Moves busyEngine lenient 0 r.scene .passes fourLeft.scene :=
    moves_leave (s := r.scene) "retry" (by decide)
  exact (ReflTransGen.single hwait).tail hretry

theorem passes_fourMarked (lenient : Bool) : Passes busyEngine lenient 0 fourCancelled.scene fourMarked.scene :=
  (((passes_fourLeft lenient).tail (moves_mark "begin" (by decide))).tail
    (moves_mark "retry" (by decide))).tail (moves_mark "wait" (by decide))

theorem passes_fourEnded (lenient : Bool) :
    Passes busyEngine lenient 0 fourCancelled.scene (fourMarked.complete (busyEngine.moment 0)).scene :=
  (passes_fourMarked lenient).tail
    (.finish (by decide) (by decide) (List.isEmpty_iff.1 (by decide)))

end Run

end Flowgraph
