import Flowgraph.Proofs.Run.Verdict

/-! Statuses and times. Whatever happens to a run, in whatever order and at whatever instants, as long as time
does not go back: a node is started once, after its sources, or it is skipped, and the times in the log tell when
it was started and when it ended. A cancelled task stamps its end when it leaves, and its entry tells how it ended when
it is marked. What has ended in the log stays as it is, and so does a log that has ended. -/

namespace Flowgraph

open Relation (ReflTransGen)

/-- How the status of a node changes. -/
inductive NodeStatus.Changes : NodeStatus → NodeStatus → Prop
  | start : Changes .pending .running
  | skip : Changes .pending .skipped
  | succeed : Changes .running .success
  | fail : Changes .running .failed

namespace NodeLog

/-- What an instant makes of an entry. -/
inductive Becomes (time : Moment) (e e' : NodeLog) : Prop
  | stays (he : e' = e)
  | carriesOn (hrun : e.status = .running) (he : e' = { e with inputs := e'.inputs, retries := e'.retries })
  | ends (hrun : e.status = .running) (hstatus : e'.status = .success ∨ e'.status = .failed)
    (hid : e'.nodeId = e.nodeId) (hstart : e'.startTime = e.startTime) (hend : e'.endTime = some time)
  | leaves (hrun : e.status = .running) (he : e' = { e with endTime := some time })
  | marked (hrun : e.status = .running) (stop : Option Stop) (he : e' = e.interrupted time stop)

/-- The times of an entry suit its status, and lie in the past. -/
structure Timed (now : Moment) (e : NodeLog) : Prop where
  entered : e.status ≠ .pending
  started : e.startTime.isSome = true ↔ e.status ≠ .skipped
  ended : e.status ≠ .running → (e.endTime.isSome = true ↔ e.status = .success ∨ e.status = .failed)
  ordered : ∀ a b, e.startTime = some a → e.endTime = some b → a.micros ≤ b.micros
  start_le : ∀ a, e.startTime = some a → a.micros ≤ now.micros
  end_le : ∀ b, e.endTime = some b → b.micros ≤ now.micros

section
variable {now later : Moment} {e e' : NodeLog}

theorem Becomes.nodeId (h : e.Becomes later e') : e'.nodeId = e.nodeId := by
  cases h with
  | ends _ _ hid _ _ => exact hid
  | marked _ stop he => rw [he, Run.keepsId_interrupted]
  | stays he | carriesOn _ he | leaves _ he => rw [he]

theorem Becomes.startTime (h : e.Becomes later e') : e'.startTime = e.startTime := by
  cases h with
  | ends _ _ _ hstart _ => exact hstart
  | marked hrun stop he => rw [he, interrupted, if_pos hrun]
  | stays he | carriesOn _ he | leaves _ he => rw [he]

theorem Becomes.status (h : e.Becomes later e') : e'.status = e.status ∨ e.status.Changes e'.status := by
  cases h with
  | ends hrun hstatus _ _ _ =>
    rw [hrun]
    rcases hstatus with hs | hs <;> rw [hs]
    · exact Or.inr .succeed
    · exact Or.inr .fail
  | marked hrun stop he =>
    rw [he, interrupted, if_pos hrun, hrun]
    exact Or.inr .fail
  | stays he | carriesOn _ he | leaves _ he => exact Or.inl (by rw [he])

theorem Timed.mono (h : e.Timed now) (hle : now.micros ≤ later.micros) : e.Timed later where
  entered := h.entered
  started := h.started
  ended := h.ended
  ordered := h.ordered
  start_le a ha := (h.start_le a ha).trans hle
  end_le b hb := (h.end_le b hb).trans hle

/-- An entry that was running keeps its start, and whatever end it has is that which it had or the present instant. -/
theorem Timed.closes (h : e.Timed now) (hrun : e.status = .running) (hstart : e'.startTime = e.startTime)
    (hend : e'.endTime = e.endTime ∨ e'.endTime = some now)
    (hstatus : e'.status = .running ∨ (e'.status = .success ∨ e'.status = .failed) ∧ e'.endTime.isSome = true) :
    e'.Timed now where
  entered := by rcases hstatus with hs | ⟨hs | hs, -⟩ <;> rw [hs] <;> exact nofun
  started := by
    rw [hstart, h.started, hrun]
    rcases hstatus with hs | ⟨hs | hs, -⟩ <;> rw [hs] <;> exact ⟨fun _ => nofun, fun _ => nofun⟩
  ended hne := by
    rcases hstatus with hs | ⟨hs, hsome⟩
    · exact absurd hs hne
    · exact ⟨fun _ => hs, fun _ => hsome⟩
  ordered a b ha hb := by
    rw [hstart] at ha
    rcases hend with hsame | hnow
    · exact h.ordered a b ha (hsame ▸ hb)
    · rw [hnow] at hb
      exact Option.some.inj hb ▸ h.start_le a ha
  start_le a ha := h.start_le a (hstart ▸ ha)
  end_le b hb := by
    rcases hend with hsame | hnow
    · exact h.end_le b (hsame ▸ hb)
    · rw [hnow] at hb
      rw [← Option.some.inj hb]

theorem Timed.becomes (h : e.Timed now) (hb : e.Becomes now e') : e'.Timed now := by
  have hstart := hb.startTime
  cases hb with
  | stays he => rwa [he]
  | carriesOn hrun he => exact h.closes hrun hstart (Or.inl (by rw [he])) (Or.inl (by rw [he]; exact hrun))
  | ends hrun hstatus _ _ hend => exact h.closes hrun hstart (Or.inr hend) (Or.inr ⟨hstatus, by rw [hend]; rfl⟩)
  | leaves hrun he => exact h.closes hrun hstart (Or.inr (by rw [he])) (Or.inl (by rw [he]; exact hrun))
  | marked hrun stop he =>
    have hend : e'.endTime = (e.endTime <|> some now) := by rw [he, interrupted, if_pos hrun]
    have hfailed : e'.status = .failed := by rw [he, interrupted, if_pos hrun]
    cases hold : e.endTime with
    | none =>
      rw [hold] at hend
      exact h.closes hrun hstart (Or.inr hend) (Or.inr ⟨Or.inr hfailed, by rw [hend]; rfl⟩)
    | some b =>
      rw [hold] at hend
      exact h.closes hrun hstart (Or.inl (hend.trans hold.symm)) (Or.inr ⟨Or.inr hfailed, by rw [hend]; rfl⟩)

end

end NodeLog

theorem Deed.becomes {engine : Engine} {time : Moment} {t : Task} {s s' : Scope} {e e' : NodeLog} {p : Phase}
    (h : Deed engine time t s e s' e' p) (hrun : e.status = .running) : e.Becomes time e' := by
  cases h with
  | carriesOn _ _ _ he _ => exact .carriesOn hrun he
  | fails _ he => exact .ends hrun (Or.inr (by rw [he])) (by rw [he]) (by rw [he]) (by rw [he])
  | succeeds _ _ he => exact .ends hrun (Or.inl (by rw [he])) (by rw [he]) (by rw [he]) (by rw [he])
  | spoils _ _ _ he => exact .ends hrun (Or.inr (by rw [he])) (by rw [he]) (by rw [he]) (by rw [he])
  | leaves _ _ he => exact .leaves hrun he
  | drops _ _ he => exact .stays he

theorem Engine.moment_mono (engine : Engine) {now later : Nat} (h : now ≤ later) :
    (engine.moment now).micros ≤ (engine.moment later).micros :=
  Int.add_le_add_left (Int.ofNat_le.2 h) _

/-- What an entry shows of a task in this phase: neither inputs nor an end before its first attempt, inputs from then
on, and an end once it has left in the middle. -/
def Phase.Shows (p : Phase) (e : NodeLog) : Prop :=
  match p with
  | .fresh => e.inputs = none ∧ e.endTime = none
  | .finished _ => True
  | .unwound => e.endTime.isSome = true ↔ e.inputs.isSome = true
  | _ => e.inputs.isSome = true ∧ e.endTime = none

theorem Phase.shows_of_attempt {p : Phase} {e : NodeLog} (h : p.attempt?.isSome = true) :
    p.Shows e ↔ e.inputs.isSome = true ∧ e.endTime = none := by
  cases p with
  | fresh | finished _ | unwound => cases h
  | _ => exact Iff.rfl

theorem Deed.shows {engine : Engine} {time : Moment} {t : Task} {s s' : Scope} {e e' : NodeLog} {p : Phase}
    (h : Deed engine time t s e s' e' p) (hshows : t.phase.Shows e) : p.Shows e' := by
  cases h with
  | carriesOn hp _ _ he hinputs =>
    have hend : e'.endTime = e.endTime := by rw [he]
    rw [Phase.shows_of_attempt hp, hend]
    rcases hinputs with ⟨hattempt, hsame⟩ | ⟨hfresh, hsome⟩
    · rw [hsame]
      exact (Phase.shows_of_attempt hattempt).1 hshows
    · rw [hfresh] at hshows
      exact ⟨hsome, hshows.2⟩
  | fails | succeeds | spoils => trivial
  | leaves hp _ he =>
    rw [he]
    exact ⟨fun _ => ((Phase.shows_of_attempt hp).1 hshows).1, fun _ => rfl⟩
  | drops hp _ he =>
    rw [hp] at hshows
    rw [he]
    exact ⟨fun h => absurd h (by rw [hshows.2]; exact nofun), fun h => absurd h (by rw [hshows.1]; exact nofun)⟩

namespace Run

def statusOf (r : Run) (id : String) : NodeStatus :=
  ((r.entry? id).map NodeLog.status).getD .pending

theorem timed_skippedEntry (now : Moment) (id : String) : (skippedEntry id).Timed now :=
  ⟨nofun, ⟨nofun, fun h => absurd rfl h⟩, fun _ => ⟨nofun, by rintro (h | h) <;> cases h⟩, nofun, nofun, nofun⟩

theorem timed_runningEntry (now : Moment) (n : Node) : (runningEntry now n).Timed now := by
  refine ⟨nofun, ⟨fun _ => nofun, fun _ => rfl⟩, fun h => absurd rfl h, nofun, ?_, nofun⟩
  rintro a ⟨⟩
  exact Int.le_refl _

theorem Appears.timed {time : Moment} {e : NodeLog} (h : Appears time e) : e.Timed time := by
  rcases h with ⟨id, rfl⟩ | ⟨n, rfl⟩
  · exact timed_skippedEntry time id
  · exact timed_runningEntry time n

/-- What an instant makes of the log of a run: its entries stay, carry on, end, are closed or marked, and behind them
come those of nodes that are skipped or started. If that ends the log, it is stamped, and after that it stays. -/
structure Evolves (time : Moment) (r r' : Run) : Prop where
  entries : ∃ (g : NodeLog → NodeLog) (new : List NodeLog), r'.log.nodeLogs = r.log.nodeLogs.map g ++ new ∧
    (∀ e ∈ r.log.nodeLogs, e.Becomes time (g e)) ∧ ∀ e ∈ new, Appears time e
  going : r'.isFinished = false → r'.log = { r.log with nodeLogs := r'.log.nodeLogs }
  finished : r.isFinished = true → r'.log = r.log
  stamped : r.isFinished = false → r'.isFinished = true → r'.log.endTime = some time

def Shown (r : Run) : Prop :=
  ∀ t ∈ r.tasks, ∀ e, r.entry? t.node.id = some e → t.phase.Shows e

section
variable {engine : Engine} {lenient : Bool} {w : Workflow} {now : Nat} {time : Moment} {r r' : Run} {t : Task}
  {e : NodeLog} {id : String} {changed : List String} {s s' : Scene} {mark : Mark}

/-! One move -/

theorem Comes.evolves (h : Comes engine time changed r r') (hs : r.isFinished = false → r.Sound) :
    Evolves time r r' := by
  cases h with
  | @acts t hu ht hover hd =>
    have hsound := hs hu
    obtain ⟨f, g, htouch, hdeed⟩ := hd
    have hu' : r'.isFinished = false := htouch.frame.isFinished.trans hu
    refine ⟨⟨fun e => if e.nodeId = t.node.id then g e else e, [], by simp [htouch.entries], fun e he => ?_,
      List.forall_mem_nil _⟩, fun _ => htouch.frame.log, fun hf => absurd (hu.symm.trans hf) Bool.false_ne_true,
      fun _ hf => absurd (hu'.symm.trans hf) Bool.false_ne_true⟩
    dsimp only
    split_ifs with hid
    · have hst := hsound.entry_status he (hid ▸ task?_of_mem hsound.tasks_nodup ht)
      exact (hdeed e).becomes (hst.trans (Phase.status_of_not_over hover))
    · exact .stays rfl
  | relates h =>
    obtain ⟨cut, new, -, hentries, hnew⟩ := h.entries
    refine ⟨⟨_, new, hentries, fun e he => ?_, hnew⟩, h.going, h.finished, h.stamped⟩
    by_cases hrun : e.status = .running
    · unfold cutEntry
      split_ifs
      · exact .marked hrun r.stop rfl
      · exact .stays rfl
    · exact .stays (cutEntry_of_ne hrun)

theorem Comes.shown (h : Comes engine time changed r r') (hr : r.Sound) (hr' : r'.Sound) (hshown : r.Shown) :
    r'.Shown := by
  intro t' ht' e' he'
  cases h with
  | @acts t hu ht hover hd =>
    obtain ⟨f, g, htouch, hdeed⟩ := hd
    rw [htouch.tasks] at ht'
    obtain ⟨u, hu, rfl⟩ := List.mem_map.1 ht'
    rw [htouch.entry?] at he'
    by_cases hid : u.node.id = t.node.id
    · obtain rfl := List.inj_on_of_nodup_map hr.tasks_nodup hu ht hid
      rw [if_pos rfl] at he' ⊢
      rw [htouch.node, if_pos rfl] at he'
      obtain ⟨e, he, rfl⟩ := Option.map_eq_some_iff.1 he'
      exact (hdeed e).shows (hshown u hu e he)
    · rw [if_neg hid] at he' ⊢
      rw [if_neg hid] at he'
      exact hshown u hu e' he'
  | relates h =>
    obtain ⟨cut, new, hcut, hentries, hnew⟩ := h.entries
    obtain ⟨e₁, he₁, hst⟩ := hr'.task_entry t' ht'
    obtain rfl := Option.some.inj (he'.symm.trans he₁)
    rcases h.tasks t' ht' with ⟨t, ht, hnode, hphase⟩ | ⟨hfresh, hnot⟩
    · rw [hnode] at he'
      rw [hphase] at hst ⊢
      obtain ⟨e, he, -⟩ := hr.task_entry t ht
      have hmem : cutEntry time r.stop cut e ∈ r'.log.nodeLogs := by
        rw [hentries]
        exact List.mem_append_left _ (List.mem_map_of_mem (entry?_mem he))
      have hsame : e' = cutEntry time r.stop cut e := by
        have hfound := entry?_of_mem hr'.entries_nodup hmem
        rw [keepsId_cutEntry, entry?_id he] at hfound
        exact Option.some.inj (he'.symm.trans hfound)
      by_cases hin : e.nodeId ∈ cut
      -- its task was cancelled, so its entry would be running, but a marked entry is not
      · obtain ⟨u, hu, hid, hunwound⟩ := hcut _ hin
        obtain rfl := List.inj_on_of_nodup_map hr.tasks_nodup hu ht (hid.trans (entry?_id he))
        rw [hunwound, hsame, cutEntry, if_pos hin] at hst
        exact absurd hst (interrupted_status_ne time r.stop e)
      · rw [hsame, cutEntry, if_neg hin]
        exact hshown t ht e he
    · rw [hfresh] at hst ⊢
      have hmem := entry?_mem he'
      rw [hentries] at hmem
      rcases List.mem_append.1 hmem with hmem | hmem
      · obtain ⟨e, he, rfl⟩ := List.mem_map.1 hmem
        have hid := (keepsId_cutEntry time r.stop cut e).symm.trans (entry?_id he')
        exact absurd (List.mem_map.2 ⟨e, he, hid⟩) hnot
      · rcases hnew e' hmem with ⟨id, rfl⟩ | ⟨n, rfl⟩
        · cases hst
        · exact ⟨rfl, rfl⟩

/-! What holds at every instant -/

/-- What the log of a run shows of the graph at every moment: a node is entered once, and after its sources have
ended. -/
structure Grounded (g : Graph) (r : Run) : Prop where
  nodup : r.entryIds.Nodup
  ended : ∀ id ∈ r.entryIds, ∀ s ∈ g.sources id, ∃ e, r.entry? s = some e ∧ e.status.Ended

/-- The times that the log of a run shows at an instant. -/
structure Punctual (g : Graph) (now : Moment) (r : Run) : Prop where
  timed : ∀ e ∈ r.log.nodeLogs, e.Timed now
  follows : ∀ e ∈ r.log.nodeLogs, ∀ a, e.startTime = some a → ∀ s ∈ g.sources e.nodeId, ∀ e', r.entry? s = some e' →
    ∀ b, e'.endTime = some b → b.micros ≤ a.micros
  stamped : r.log.endTime.isSome = true ↔ r.isFinished = true

theorem grounded_of_covers (h : Covers w r.log) : r.Grounded (Graph.ofWorkflow w) where
  nodup := h.nodup
  ended id hid s hs := by
    have hmem : s ∈ r.entryIds := by
      refine (h.mem s).2 (Graph.mem_nodeIds_ofWorkflow.1 ?_)
      exact ((Graph.ofWorkflow_wellFormed w).leads_mem (Graph.mem_sources.1 hs)).1
    obtain ⟨e, he⟩ := mem_entryIds.1 hmem
    exact ⟨e, he, h.ended e (entry?_mem he)⟩

theorem Stage.grounded (h : Stage engine w r) : r.Grounded (Graph.ofWorkflow w) := by
  refine ⟨h.nodup, ?_⟩
  cases h with
  | first hb hw =>
    intro id hid
    rw [entryIds, hb.entries] at hid
    cases hid
  | active ha =>
    have hsources : r.SourcesEnded := Good.sourcesEnded ha.good
    rwa [SourcesEnded, ha.graph] at hsources
  | winding hs =>
    have hsources := hs.sources
    rwa [SourcesEnded, hs.sound.graph, hs.workflow] at hsources
  | finished hc => exact (grounded_of_covers hc).ended

/-- The entry of a node is running exactly while there is a task of it that shows that. -/
theorem Stage.exists_task (h : Stage engine w r) (he : e ∈ r.log.nodeLogs) (hrun : e.status = .running) :
    r.isFinished = false ∧ ∃ t ∈ r.tasks, t.node.id = e.nodeId := by
  have htask : ∀ {ids : List String}, (e.status.Ended ∨ e.nodeId ∈ ids) → e.nodeId ∈ ids := fun h =>
    h.resolve_left fun hend => hend.ne_running hrun
  cases h with
  | first hb hw =>
    rw [hb.entries] at he
    cases he
  | active ha =>
    have hended := ha.good.live.ended e he
    rw [opened_front] at hended
    exact ⟨ha.unfinished, List.mem_map.1 (htask hended)⟩
  | winding hs => exact ⟨hs.unfinished, List.mem_map.1 (htask (hs.ended e he))⟩
  | finished hc => exact absurd hrun (hc.ended e he).ne_running

/-! What evolving keeps -/

variable {g : Graph} {early late : Moment}

theorem Evolves.statusOf (h : Evolves late r r') (hn : r'.entryIds.Nodup) (id : String) :
    r'.statusOf id = r.statusOf id ∨ (r.statusOf id).Changes (r'.statusOf id) := by
  obtain ⟨grow, new, hentries, hgrow, hnew⟩ := h.entries
  unfold Run.statusOf
  cases he : r.entry? id with
  | some e =>
    have hmem : grow e ∈ r'.log.nodeLogs := by
      rw [hentries]
      exact List.mem_append_left _ (List.mem_map_of_mem (entry?_mem he))
    have hfound := entry?_of_mem hn hmem
    rw [(hgrow e (entry?_mem he)).nodeId, entry?_id he] at hfound
    rw [hfound]
    exact (hgrow e (entry?_mem he)).status
  | none =>
    cases he' : r'.entry? id with
    | none => exact Or.inl rfl
    | some e' =>
      have hmem := entry?_mem he'
      rw [hentries, List.mem_append] at hmem
      rcases hmem with hmem | hmem
      · obtain ⟨e, he₀, rfl⟩ := List.mem_map.1 hmem
        have hid : e.nodeId = id := (hgrow e he₀).nodeId.symm.trans (entry?_id he')
        exact absurd (List.mem_map.2 ⟨e, he₀, hid⟩) (entry?_eq_none.1 he)
      · rcases hnew e' hmem with ⟨x, rfl⟩ | ⟨n, rfl⟩
        · exact Or.inr .skip
        · exact Or.inr .start

theorem Punctual.mono (h : r.Punctual g early) (hle : early.micros ≤ late.micros) : r.Punctual g late :=
  ⟨fun e he => (h.timed e he).mono hle, h.follows, h.stamped⟩

theorem Punctual.evolves (h : r.Punctual g late) (hr : r.Grounded g) (hkeeps : Keeps r r') (hev : Evolves late r r') :
    r'.Punctual g late := by
  obtain ⟨grow, new, hentries, hgrow, hnew⟩ := hev.entries
  have htimed : ∀ e ∈ r'.log.nodeLogs, e.Timed late := fun e he => by
    rw [hentries, List.mem_append] at he
    rcases he with he | he
    · obtain ⟨e₀, he₀, rfl⟩ := List.mem_map.1 he
      exact (h.timed e₀ he₀).becomes (hgrow e₀ he₀)
    · exact (hnew e he).timed
  refine ⟨htimed, fun e he a ha s hs e' he' b hb => ?_, ?_⟩
  · rw [hentries, List.mem_append] at he
    rcases he with he | he
    -- the sources of a node that was entered before had ended by then, and have stayed as they were
    · obtain ⟨e₀, he₀, rfl⟩ := List.mem_map.1 he
      rw [(hgrow e₀ he₀).startTime] at ha
      rw [(hgrow e₀ he₀).nodeId] at hs
      obtain ⟨e₁, he₁, hend⟩ := hr.ended e₀.nodeId (List.mem_map_of_mem he₀) s hs
      rw [hkeeps s e₁ he₁ hend] at he'
      obtain rfl := Option.some.inj he'
      exact h.follows e₀ he₀ a ha s hs e₁ he₁ b hb
    · rcases hnew e he with ⟨x, rfl⟩ | ⟨n, rfl⟩
      · cases ha
      · rw [← Option.some.inj ha]
        exact (htimed e' (entry?_mem he')).end_le b hb
  · cases hf : r.isFinished with
    | true =>
      rw [Run.isFinished, hev.finished hf]
      exact h.stamped
    | false =>
      cases hf' : r'.isFinished with
      | true => simp [hev.stamped hf hf']
      | false => rw [hev.going hf', h.stamped, hf]

theorem Unbegun.punctual (h : r.Unbegun) (hend : r.log.endTime = none) : r.Punctual g early := by
  refine ⟨fun e he => ?_, fun e he => ?_, ?_⟩
  · rw [h.entries] at he
    cases he
  · rw [h.entries] at he
    cases he
  · rw [hend, h.unfinished]
    exact Iff.rfl

variable {begun : Nat} {cancelled raised : Bool} {r₀ : Run}

theorem Stage.evolves (hlimit : 0 < engine.limit) (h : Stage engine w s.run)
    (hm : Moves engine lenient now s mark s') : Evolves (engine.moment now) s.run s'.run := by
  obtain ⟨changed, -, hcomes⟩ := h.comes hlimit hm
  exact hcomes.evolves h.sound

/-- At every instant of a run the times in its log are in order. -/
theorem Story.punctual (hlimit : 0 < engine.limit) (h₀ : r₀.Unbegun) (hend : r₀.log.endTime = none)
    (h : Story engine lenient r₀ begun now cancelled raised s) :
    s.run.Punctual (Graph.ofWorkflow r₀.workflow) (engine.moment now) := by
  induction h with
  | start => exact h₀.punctual hend
  | waits _ hle ih => exact ih.mono (engine.moment_mono hle)
  | moves hs hm ih =>
    have hstage := stage_of_goes hlimit h₀ hs.goes
    exact ih.evolves hstage.grounded (hstage.keeps hlimit hm) (hstage.evolves hlimit hm)

theorem Story.shown (hlimit : 0 < engine.limit) (h₀ : r₀.Unbegun)
    (h : Story engine lenient r₀ begun now cancelled raised s) (hu : s.run.isFinished = false) : s.run.Shown := by
  induction h with
  | start =>
    intro t ht
    change t ∈ r₀.tasks at ht
    rw [h₀.tasks] at ht
    cases ht
  | waits _ _ ih => exact ih hu
  | moves hs hm ih =>
    have hstage := stage_of_goes hlimit h₀ hs.goes
    obtain ⟨changed, -, hcomes⟩ := hstage.comes hlimit hm
    -- nothing comes back from a finished run
    have hbefore := (Bool.eq_false_or_eq_true _).resolve_left fun hf => by
      rw [Run.isFinished, (hstage.evolves hlimit hm).finished hf] at hu
      exact Bool.false_ne_true (hu.symm.trans hf)
    exact hcomes.shown (hstage.sound hbefore) ((hstage.moves hlimit hm).sound hu) (ih hbefore)

/-- An end is shown of the nodes that have ended, and of those whose tasks have been cancelled after their first step
and are still to be marked. -/
theorem Stage.endTime_iff (h : Stage engine w r) (hshown : r.isFinished = false → r.Shown) (he : e ∈ r.log.nodeLogs)
    (htimed : e.Timed time) :
    e.endTime.isSome = true ↔ e.status = .success ∨ e.status = .failed ∨
      e.status = .running ∧ e.inputs.isSome = true ∧ ∃ t ∈ r.tasks, t.node.id = e.nodeId ∧ t.phase = .unwound := by
  by_cases hrun : e.status = .running
  · obtain ⟨hu, t, ht, hid⟩ := h.exists_task he hrun
    have hsound := h.sound hu
    have hfound : r.entry? t.node.id = some e := hid ▸ entry?_of_mem hsound.entries_nodup he
    have hshows := hshown hu t ht e hfound
    have hover : t.phase.isOver = true → t.phase = .unwound := fun hover => by
      obtain ⟨failed, hp⟩ | hp := Phase.isOver_iff.1 hover
      · obtain ⟨e', he', hst⟩ := hsound.task_entry t ht
        obtain rfl := Option.some.inj (hfound.symm.trans he')
        rw [hst, hp] at hrun
        cases failed <;> cases hrun
      · exact hp
    constructor
    · intro hend
      refine Or.inr (Or.inr ⟨hrun, ?_⟩)
      cases hphase : t.phase.isOver with
      | true =>
        have hunwound := hover hphase
        rw [hunwound] at hshows
        exact ⟨hshows.1 hend, t, ht, hid, hunwound⟩
      | false =>
        have hnone : e.endTime = none := by
          cases hp : t.phase with
          | finished _ | unwound =>
            rw [hp] at hphase
            cases hphase
          | _ =>
            rw [hp] at hshows
            exact hshows.2
        rw [hnone] at hend
        cases hend
    · rintro (hs | hs | ⟨-, hinputs, u, hu', hid', hunwound⟩)
      · cases hrun.symm.trans hs
      · cases hrun.symm.trans hs
      · have hshows' := hshown hu u hu' e (hid' ▸ entry?_of_mem hsound.entries_nodup he)
        rw [hunwound] at hshows'
        exact hshows'.2 hinputs
  · rw [htimed.ended hrun]
    exact ⟨fun hs => hs.imp_right Or.inl, fun hs => hs.imp_right fun hs => hs.resolve_right fun hs => hrun hs.1⟩

end

end Run

end Flowgraph
