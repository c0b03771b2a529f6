import Flowgraph.Proofs.Run.Course

/-! The life of a run: its steps, in any order, and cancellations that reach it at any moment. Until it has
finished nothing has stopped it, and what is added to its log when it finishes is skipped. -/

namespace Flowgraph

open Relation (ReflTransGen)

namespace Run

/-! Only the entries differ -/

def withEntries (r : Run) (es : List NodeLog) : Run :=
  { r with log := { r.log with nodeLogs := es } }

section
variable (r : Run) (es : List NodeLog)

theorem pathsOpen_withEntries (satisfied : Bool) (l : List Edge) :
    (r.withEntries es).pathsOpen satisfied l = r.pathsOpen satisfied l := by
  induction l generalizing satisfied with
  | nil => rfl
  | cons e rest ih =>
    have hstate : (r.withEntries es).edgeState e = r.edgeState e := rfl
    have hgate : (r.withEntries es).gateHolds e = r.gateHolds e := rfl
    simp only [pathsOpen, hstate, hgate, ih]

theorem decide_withEntries (id : String) : (r.withEntries es).decide id = r.decide id := by
  have hgraph : (r.withEntries es).graph = r.graph := rfl
  have hscope : (r.withEntries es).scope = r.scope := rfl
  simp only [decide, pathsOpen_withEntries, hgraph, hscope]

theorem resolveTargets_withEntries (ids : List String) :
    (r.withEntries es).resolveTargets ids = ((r.resolveTargets ids).1.withEntries es, (r.resolveTargets ids).2) := by
  induction ids generalizing r with
  | nil => rfl
  | cons id rest ih =>
    have hone : (r.withEntries es).resolveOne id = ((r.resolveOne id).1.withEntries es, (r.resolveOne id).2) := rfl
    simp only [resolveTargets, hone, ih]

theorem resolveOutgoing_withEntries (id : String) (status : NodeStatus) :
    (r.withEntries es).resolveOutgoing id status =
      ((r.resolveOutgoing id status).1.withEntries es, (r.resolveOutgoing id status).2) :=
  resolveTargets_withEntries (r.settleEdges id status) es (r.graph.targets id)

end

end Run

namespace Front

open Run

def withEntries (f : Front) (es : List NodeLog) : Front :=
  ⟨f.run.withEntries es, f.todo, f.waiting⟩

/-- Deciding a node raises when the handling of this front gets to it. -/
def Raises (f : Front) : Prop :=
  ∃ time r todo id rest failure, ReflTransGen (Beat time) f ⟨r, todo, id :: rest⟩ ∧ r.decide id = .error failure

section
variable {time : Moment} {f g g' m : Front}

/-- No beat looks at what the entries say, nor at the clock. -/
theorem Beat.withEntries (h : Beat time f g) (time' : Moment) (es : List NodeLog) :
    ∃ es', Beat time' (f.withEntries es) (g.withEntries es') := by
  cases h with
  | accept h => exact ⟨es, .accept ((decide_withEntries _ es _).trans h)⟩
  | @skip r todo rest id h =>
    refine ⟨es ++ [skippedEntry id], ?_⟩
    have hb : Beat time' ⟨r.withEntries es, todo, id :: rest⟩ _ := .skip ((decide_withEntries r es id).trans h)
    have hskip : (r.withEntries es).skip id = (r.skip id).withEntries (es ++ [skippedEntry id]) := rfl
    rw [hskip, resolveOutgoing_withEntries] at hb
    exact hb
  | @resolve r todo t failed hp h =>
    refine ⟨es, ?_⟩
    have hb : Beat time' ⟨r.withEntries es, t :: todo, []⟩ _ := .resolve hp h
    rw [resolveOutgoing_withEntries] at hb
    exact hb
  | lose hp => exact ⟨_, .lose hp⟩

theorem beats_withEntries (time' : Moment) (h : ReflTransGen (Beat time) f g) :
    ∃ es, ReflTransGen (Beat time') f (g.withEntries es) := by
  induction h with
  | refl => exact ⟨f.run.log.nodeLogs, .refl⟩
  | tail _ hb ih =>
    obtain ⟨es, hes⟩ := ih
    obtain ⟨es', hb'⟩ := hb.withEntries time' es
    exact ⟨es', hes.tail hb'⟩

/-- When the front is handled makes no difference to that. -/
theorem Raises.beats (h : f.Raises) (time : Moment) :
    ∃ r todo id rest failure, ReflTransGen (Beat time) f ⟨r, todo, id :: rest⟩ ∧ r.decide id = .error failure := by
  obtain ⟨time', r, todo, id, rest, failure, hb, hd⟩ := h
  obtain ⟨es, hb'⟩ := beats_withEntries time hb
  exact ⟨r.withEntries es, todo, id, rest, failure, hb', (decide_withEntries r es id).trans hd⟩

/-- The handling of a front ends in one place only. -/
theorem eq_of_beats (h : ReflTransGen (Beat time) f g) (h' : ReflTransGen (Beat time) f g')
    (hg : ∀ x, ¬ Beat time g x) (hg' : ∀ x, ¬ Beat time g' x) : g = g' := by
  have hunique : Relator.RightUnique (Beat time) := fun _ _ _ => Beat.unique
  rcases ReflTransGen.total_of_right_unique hunique h h' with hb | hb
  · rcases ReflTransGen.cases_head hb with heq | ⟨x, hx, -⟩
    · exact heq
    · exact absurd hx (hg x)
  · rcases ReflTransGen.cases_head hb with heq | ⟨x, hx, -⟩
    · exact heq.symm
    · exact absurd hx (hg' x)

theorem not_beat_of_raised {r : Run} {todo : List Task} {id : String} {rest : List String} {failure : Failure}
    (h : r.decide id = .error failure) (x : Front) : ¬ Beat time ⟨r, todo, id :: rest⟩ x := by
  intro hb
  cases hb with
  | accept h' =>
    rw [h] at h'
    cases h'
  | skip h' =>
    rw [h] at h'
    cases h'

theorem not_beat_front (r : Run) (x : Front) : ¬ Beat time r.front x := by
  intro hb
  cases hb

/-- Handling that raises ends where it does. -/
theorem Raises.eq (h : f.Raises) (hm : ReflTransGen (Beat time) f m) (hend : ∀ x, ¬ Beat time m x) :
    m.waiting ≠ [] := by
  obtain ⟨r, todo, id, rest, failure, hb, hd⟩ := h.beats time
  rw [eq_of_beats hm hb hend (not_beat_of_raised hd)]
  exact List.cons_ne_nil _ _

end

end Front

namespace NodeLog

/-- An entry stays as it is, or it was running and is cut off as failed. -/
def Cut (e e' : NodeLog) : Prop :=
  e' = e ∨ e.status = .running ∧
    ∃ error ended, e' = { e with status := .failed, error := some error, endTime := some ended }

section
variable {e e' e'' : NodeLog}

theorem Cut.refl (e : NodeLog) : e.Cut e :=
  Or.inl rfl

theorem Cut.eq (h : e.Cut e') (hne : e.status ≠ .running) : e' = e :=
  h.resolve_right fun hc => hne hc.1

theorem Cut.nodeId (h : e.Cut e') : e'.nodeId = e.nodeId := by
  rcases h with rfl | ⟨-, error, ended, rfl⟩ <;> rfl

theorem Cut.trans (h : e.Cut e') (h' : e'.Cut e'') : e.Cut e'' := by
  rcases h with rfl | ⟨hrun, error, ended, rfl⟩
  · exact h'
  · exact Or.inr ⟨hrun, error, ended, h'.eq nofun⟩

theorem cut_interrupted (time : Moment) (stop : Option Stop) (e : NodeLog) : e.Cut (e.interrupted time stop) := by
  unfold interrupted
  split_ifs with hrun
  · cases hend : e.endTime with
    | none => exact Or.inr ⟨hrun, _, time, rfl⟩
    | some ended => exact Or.inr ⟨hrun, _, ended, rfl⟩
  · exact .refl e

end

end NodeLog

namespace Run

/-- A step in which deciding a node raises. -/
inductive Raising (engine : Engine) : Run → Run → Prop
  | launch {r : Run} (now : Nat) (hb : r.Unbegun) (h : (firstFront r).Raises) :
    Raising engine r (r.launch engine now)
  | gather {r : Run} (now : Nat) (hu : r.isFinished = false) (hf : r.tasks.any Task.isFinished = true)
    (h : r.batchFront.Raises) : Raising engine r ((r.handleBatch (engine.moment now)).proceed engine now)

/-- What has happened to a run: whether a request to cancel reached it while it was active, and whether
deciding a node raised. -/
inductive Life (engine : Engine) (r₀ : Run) : Bool → Bool → Run → Prop
  | start : Life engine r₀ false false r₀
  | step {cancelled raised : Bool} {r r' : Run} (h : Life engine r₀ cancelled raised r) (hs : Step engine r r')
    (hr : ¬ Raising engine r r') : Life engine r₀ cancelled raised r'
  | raise {cancelled raised : Bool} {r r' : Run} (h : Life engine r₀ cancelled raised r)
    (hr : Raising engine r r') : Life engine r₀ cancelled true r'
  | cancel {cancelled raised : Bool} {r : Run} (h : Life engine r₀ cancelled raised r) (time : Moment) :
    Life engine r₀ (cancelled || !r.isFinished) raised (r.cancel time)

section
variable {engine : Engine} {w : Workflow} {r r' m q : Run} {f : Front} {time : Moment}

theorem Raising.step (h : Raising engine r r') : Step engine r r' := by
  cases h with
  | launch now hb h => exact Step.launch now hb
  | gather now hu hf h => exact Step.gather now hu hf

theorem BatchEnd.over_of_raises {now : Nat} (hf : Ready engine w f) (h : BatchEnd (engine.moment now) f q)
    (hr : f.Raises) :
    ∃ m, Over f (engine.moment now) m ∧ q.proceed engine now = m.complete (engine.moment now) := by
  cases h with
  | @calm q order hb ho => exact absurd rfl (hr.eq hb (Front.not_beat_front q))
  | @halted m reason hb hs order =>
    refine ⟨_, Over.halted hb hs order, ?_⟩
    have hstop := Front.halt_stop (engine.moment now) reason (hf.good.beats hb).live
    unfold proceed
    rw [if_pos (by simp [stopped, hstop])]

/-! What is added to a log without starting anything -/

def Skips (r r' : Run) : Prop :=
  ∃ (g : NodeLog → NodeLog) (ids : List String), (∀ e ∈ r.log.nodeLogs, e.Cut (g e)) ∧
    r'.log.nodeLogs = r.log.nodeLogs.map g ++ ids.map skippedEntry

theorem Skips.trans (h : Skips r q) (h' : Skips q r') : Skips r r' := by
  obtain ⟨g, ids, hcut, hlog⟩ := h
  obtain ⟨g', ids', hcut', hlog'⟩ := h'
  refine ⟨g' ∘ g, ids ++ ids', fun e he => (hcut e he).trans (hcut' (g e) ?_), ?_⟩
  · rw [hlog]
    exact List.mem_append_left _ (List.mem_map_of_mem he)
  · have hskip : (ids.map skippedEntry).map g' = ids.map skippedEntry := by
      rw [List.map_map]
      refine List.map_congr_left fun id hid => (hcut' _ ?_).eq nofun
      rw [hlog]
      exact List.mem_append_right _ (List.mem_map_of_mem hid)
    rw [hlog', hlog, List.map_append, hskip, List.map_map, List.map_append, List.append_assoc]

/-- What has ended neither as failed nor as skipped was there before. -/
theorem Skips.mem_of_ne (h : Skips r r') {e : NodeLog} (he : e ∈ r'.log.nodeLogs) (hf : e.status ≠ .failed)
    (hs : e.status ≠ .skipped) : e ∈ r.log.nodeLogs := by
  obtain ⟨g, ids, hcut, hlog⟩ := h
  rw [hlog] at he
  rcases List.mem_append.1 he with he | he
  · obtain ⟨e₀, he₀, rfl⟩ := List.mem_map.1 he
    rcases hcut e₀ he₀ with heq | ⟨-, error, ended, heq⟩
    · rwa [heq]
    · rw [heq] at hf
      exact absurd rfl hf
  · obtain ⟨id, -, rfl⟩ := List.mem_map.1 he
    exact absurd rfl hs

theorem Skips.unstarted (h : Skips r r') : ∀ e ∈ r'.log.nodeLogs, e.nodeId ∉ r.entryIds → e.status = .skipped := by
  obtain ⟨g, ids, hcut, hlog⟩ := h
  intro e he hnew
  rw [hlog] at he
  rcases List.mem_append.1 he with he | he
  · obtain ⟨e₀, he₀, rfl⟩ := List.mem_map.1 he
    rw [(hcut e₀ he₀).nodeId] at hnew
    exact absurd (List.mem_map_of_mem he₀) hnew
  · obtain ⟨id, -, rfl⟩ := List.mem_map.1 he
    rfl

theorem Handled.skips {todo : List Task} (h : Handled time todo r r') : Skips r r' := by
  obtain ⟨cut, ids, -, hl⟩ := h.log
  refine ⟨cutEntry time r.stop cut, ids, fun e _ => ?_, by rw [hl]⟩
  unfold cutEntry
  split_ifs
  · exact NodeLog.cut_interrupted time r.stop e
  · exact .refl e

theorem Over.skips (hf : Ready engine w f) (h : Over f time m) : Skips f.run m := by
  cases h with
  | done hc ht hr =>
    obtain @⟨q, _, order, nodes, hb, -, hs, hg⟩ := hc
    have hnil : nodes = [] := by
      have := hs.tasks
      rw [ht, eq_comm, List.append_eq_nil_iff, List.map_eq_nil_iff] at this
      exact this.2
    have hlog : m.log.nodeLogs = q.log.nodeLogs := by
      rw [hs.log, hnil]
      exact List.append_nil _
    obtain ⟨g, ids, hcut, hq⟩ := (Front.handled_of_beats hb).skips
    exact ⟨g, ids, hcut, hlog.trans hq⟩
  | @halted m reason hb hs order =>
    have hm : Skips f.run m.run := (Front.handled_of_beats hb).skips
    have hhalt : Skips m.run (m.halt time reason) := (Front.halt_handled time reason (hf.good.beats hb).live).skips
    exact hm.trans hhalt

theorem Closable.skips (h : Closable w m) : Skips m (m.complete time) := by
  refine ⟨m.closed time, m.unentered, fun e he => ?_,
    (complete_spec time h.sound.wellFormed h.sound.tasks_nodup h.unfinished).1⟩
  rcases h.closed_eq time he with ⟨-, heq⟩ | ⟨stop, ended, -, hrun, -, heq⟩
  · exact Or.inl heq
  · exact Or.inr ⟨hrun, _, ended, heq⟩

theorem Ready.skips (hf : Ready engine w f) (h : Over f time m) : Skips f.run (m.complete time) :=
  (h.skips hf).trans (hf.closable h).skips

/-! Until it has finished -/

def Underway (engine : Engine) (r₀ r : Run) : Prop :=
  r = r₀ ∨ Active engine r₀.workflow r

variable {r₀ : Run}

theorem Active.step_skips (hlimit : 0 < engine.limit) (h : Active engine w r) (hs : Step engine r r') :
    Active engine w r' ∨ r'.isFinished = true ∧ Skips r r' := by
  rcases h.step hlimit hs with ⟨ha, -⟩ | ⟨now, m, hm, rfl⟩
  · exact Or.inl ha
  · exact Or.inr ⟨(h.ready_batch.closable hm).covers.finished, h.ready_batch.skips hm⟩

theorem Unbegun.step_skips (hlimit : 0 < engine.limit) (h : r.Unbegun) (hs : Step engine r r') :
    Active engine r.workflow r' ∨ r'.isFinished = true ∧ Skips r r' := by
  obtain ⟨now, rfl⟩ := h.step hs
  have hready : Ready engine r.workflow (firstFront r) := h.ready_firstFront
  rcases h.launch now hlimit with ⟨ha, -⟩ | ⟨m, hm, heq⟩
  · exact Or.inl ha
  · rw [heq]
    exact Or.inr ⟨(hready.closable hm).covers.finished, hready.skips hm⟩

theorem Underway.step_skips (hlimit : 0 < engine.limit) (h₀ : r₀.Unbegun) (h : Underway engine r₀ r)
    (hs : Step engine r r') : Active engine r₀.workflow r' ∨ r'.isFinished = true ∧ Skips r r' := by
  rcases h with rfl | ha
  · exact h₀.step_skips hlimit hs
  · exact ha.step_skips hlimit hs

/-- A step of an active run in which deciding raises is the last one. -/
theorem Active.finished_of_raising (h : Active engine w r) (hr : Raising engine r r') : r'.isFinished = true := by
  cases hr with
  | launch now hb _ => exact absurd hb.tasks h.tasks
  | gather now hu hf hraises =>
    obtain ⟨m, hm, heq⟩ := (handleBatch_ends _ h.good h.stop).over_of_raises h.ready_batch hraises
    rw [heq]
    exact (h.ready_batch.closable hm).covers.finished

theorem Unbegun.finished_of_raising (h : r.Unbegun) (hr : Raising engine r r') : r'.isFinished = true := by
  have hready : Ready engine r.workflow (firstFront r) := h.ready_firstFront
  cases hr with
  | launch now hb hraises =>
    have hend : BatchEnd (engine.moment now) (firstFront r) (r.admitAll r.graph.roots) :=
      BatchEnd.of_yields (Front.admitAll_yields h.good h.stop)
    obtain ⟨m, hm, heq⟩ := hend.over_of_raises hready hraises
    rw [Run.launch, heq]
    exact (hready.closable hm).covers.finished
  | gather now hu hf hraises =>
    rw [h.tasks] at hf
    cases hf

theorem Underway.finished_of_raising (h₀ : r₀.Unbegun) (h : Underway engine r₀ r) (hr : Raising engine r r') :
    r'.isFinished = true := by
  rcases h with rfl | ha
  · exact h₀.finished_of_raising hr
  · exact ha.finished_of_raising hr

theorem cancel_eq_stopWith (time : Moment) (h : r.isFinished = true) :
    r.cancel time = r.stopWith .cancelled cancelReason := by
  have hf : (r.stopWith .cancelled cancelReason).isFinished = true := by
    unfold stopWith
    split <;> exact h
  rw [cancel, halt, complete, if_pos hf]

theorem cancel_of_finished (time : Moment) (h : r.isFinished = true) : (r.cancel time).log = r.log := by
  rw [cancel_eq_stopWith time h]
  unfold stopWith
  split <;> rfl

theorem Underway.cancel_finished (time : Moment) (h₀ : r₀.Unbegun) (h : Underway engine r₀ r) :
    (r.cancel time).isFinished = true := by
  rcases h with rfl | ha
  · exact h₀.cancel_covers.finished
  · exact ha.cancel_covers.finished

/-- At every moment of its life a run that has not finished is under way. -/
theorem Life.underway {cancelled raised : Bool} (hlimit : 0 < engine.limit) (h₀ : r₀.Unbegun)
    (h : Life engine r₀ cancelled raised r) (hu : r.isFinished = false) : Underway engine r₀ r := by
  induction h with
  | start => exact Or.inl rfl
  | @step _ _ r r' _ hs hr ih =>
    refine Or.inr (((ih hs.unfinished).step_skips hlimit h₀ hs).resolve_right fun hf => ?_)
    exact Bool.false_ne_true (hu.symm.trans hf.1)
  | @raise _ _ r r' _ hr ih =>
    have hf := (ih hr.step.unfinished).finished_of_raising h₀ hr
    exact absurd (hu.symm.trans hf) Bool.false_ne_true
  | @cancel _ _ r _ time ih =>
    have hf : (r.cancel time).isFinished = true := by
      cases hr : r.isFinished with
      | true => rwa [Run.isFinished, cancel_of_finished time hr]
      | false => exact (ih hr).cancel_finished time h₀
    exact absurd (hu.symm.trans hf) Bool.false_ne_true

end

end Run

end Flowgraph
