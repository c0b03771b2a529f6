import Flowgraph.Proofs.Run.Pace
import Flowgraph.Proofs.Run.ShiftedCourse
import Flowgraph.Proofs.Run.Life
import Flowgraph.Proofs.Session.Projection

/-! Runs of one session do not disturb each other. What the log of a run shows in the end depends on when the
run was started and when it was cancelled, and on nothing that the session did besides; and from its start on
it shows what it would show if it had been alone. The waits between attempts count with the rest: the jitter of
an engine is the same for all of them. -/

namespace Flowgraph

open Session

namespace Run

/-- Cancel a run at instants, each after everything else that happens by it. -/
def cancelledAt (engine : Engine) : List Nat → Run → Run
  | [], r => r
  | now :: rest, r => cancelledAt engine rest ((r.advance engine (some now)).cancel (engine.moment now))

theorem cancelledAt_later (d : Nat) (r : Run) (engine : Engine) (instants : List Nat) :
    cancelledAt engine (instants.map (· + d)) (r.later d) = (cancelledAt engine instants r).later d := by
  induction instants generalizing r with
  | nil => rfl
  | cons now rest ih =>
    have hadvance : (r.later d).advance engine (some (now + d)) = (r.advance engine (some now)).later d :=
      advance_later d r engine (some now)
    rw [List.map_cons, cancelledAt, cancelledAt, hadvance, Engine.moment_add, cancel_later, ih]

section
variable {engine : Engine} {r : Run}

theorem Paced.finished_cancel (h : Paced engine r) (time : Moment) : (r.cancel time).isFinished = true := by
  cases h with
  | calm hc => exact hc.active.cancel_covers.finished
  | finished hf =>
    rw [Run.isFinished, cancel_of_finished time hf]
    exact hf

theorem Paced.cancelledAt (hlimit : 0 < engine.limit) (h : Paced engine r) (instants : List Nat) :
    Paced engine (Run.cancelledAt engine instants r) := by
  induction instants generalizing r with
  | nil => exact h
  | cons now rest ih => exact ih (.finished ((h.advance hlimit (some now)).finished_cancel _))

theorem Paced.advance_max (hlimit : 0 < engine.limit) (h : Paced engine r) (now at_ : Nat) :
    (r.advance engine (some now)).advance engine (some at_) = r.advance engine (some (max now at_)) := by
  rcases Nat.le_total at_ now with hle | hle
  · rw [(h.settled_advance hlimit now).advance hle, Nat.max_eq_left hle]
  · rw [Nat.max_eq_right hle]
    refine h.advance_advance hlimit fun due hdue => ?_
    simp only [Option.all_some, decide_eq_true_eq] at hdue ⊢
    omega

theorem Paced.advance_none (hlimit : 0 < engine.limit) (h : Paced engine r) (now : Nat) :
    (r.advance engine (some now)).advance engine none = r.advance engine none :=
  h.advance_advance hlimit fun _ _ => rfl

end

end Run

def Engine.logOf (engine : Engine) (now : Nat) (id : String) (v : Value) (inputs : Fields) (cancels : List Nat) :
    ExecutionLog :=
  match prepareWorkflow v false with
  | .ok w =>
    let r := (Run.start w inputs [] id (engine.moment now)).begin engine now
    ((r.cancelledAt engine cancels).advance engine none).log
  | .error problems => refusal id (claimedId v) problems (engine.moment now)

theorem Engine.logOf_later (engine : Engine) (now d : Nat) (id : String) (v : Value) (inputs : Fields)
    (cancels : List Nat) : engine.logOf (now + d) id v inputs (cancels.map (· + d)) =
      (engine.logOf now id v inputs cancels).later d := by
  unfold Engine.logOf
  rw [Engine.moment_add]
  cases prepareWorkflow v false with
  | error problems => exact refusal_later d id _ problems _
  | ok w =>
    dsimp only
    rw [Run.start_later, Run.begin_later, Run.cancelledAt_later]
    exact congrArg Run.log (Run.advance_later d _ engine none)

namespace Session

/-- When a script cancels an id, counted from an instant. -/
def cancelOffsets (id : String) (origin : Nat) : Nat → List (Nat × Event) → List Nat
  | _, [] => []
  | now, (at_, .cancel other) :: rest =>
    if other = id then (max now at_ - origin) :: cancelOffsets id origin (max now at_) rest
    else cancelOffsets id origin (max now at_) rest
  | now, (at_, _) :: rest => cancelOffsets id origin (max now at_) rest

/-- A single run and its cancellations. -/
def solo (id : String) (v : Value) (inputs : Fields) (cancels : List Nat) : List (Nat × Event) :=
  (0, .start id v inputs) :: cancels.map fun now => (now, .cancel id)

/-- The log that is left of the last run with an id when a script has been played and all runs have been left
to themselves. -/
def outcome (engine : Engine) (script : List (Nat × Event)) (id : String) : Option ExecutionLog :=
  ((((make engine).play script).1.advance none).latest.get? id).bind Member.log?

theorem cancelOffsets_add (id : String) (origin : Nat) {now : Nat} (h : origin ≤ now) (script : List (Nat × Event)) :
    (cancelOffsets id origin now script).map (· + origin) = cancelOffsets id 0 now script := by
  induction script generalizing now with
  | nil => rfl
  | cons first rest ih =>
    obtain ⟨at_, e⟩ := first
    have hle : origin ≤ max now at_ := by omega
    cases e with
    | cancel other =>
      simp only [cancelOffsets]
      split_ifs
      · rw [List.map_cons, ih hle, Nat.sub_add_cancel hle, Nat.sub_zero]
      · exact ih hle
    | _ => exact ih hle

theorem cancelOffsets_solo (id : String) {origin now early : Nat} (h : early ≤ now - origin)
    (script : List (Nat × Event)) :
    cancelOffsets id 0 early ((cancelOffsets id origin now script).map fun t => (t, .cancel id)) =
      cancelOffsets id origin now script := by
  induction script generalizing now early with
  | nil => rfl
  | cons first rest ih =>
    obtain ⟨at_, e⟩ := first
    have hle : early ≤ max now at_ - origin := by omega
    cases e with
    | cancel other =>
      simp only [cancelOffsets]
      split_ifs
      · simp only [List.map_cons, cancelOffsets, if_true, Nat.max_eq_right hle, Nat.sub_zero]
        rw [ih (Nat.le_refl _)]
      · exact ih hle
    | _ => exact ih hle

namespace Member

theorem follow_of_not_running {engine : Engine} {m : Member} (h : ¬ m.isRunning = true) (now : Nat)
    (script : List (Nat × Event)) : m.follow engine now script = m := by
  induction script generalizing now with
  | nil => rfl
  | cons first rest ih =>
    obtain ⟨at_, e⟩ := first
    have heffect : e.effect engine (max now at_) m = m := by
      cases e with
      | cancel other =>
        simp only [Event.effect, onId, onRun_of_not_running h, ite_self]
      | _ => rfl
    rw [follow, onRun_of_not_running h, heffect]
    exact ih _

theorem onRun_cancel (id : String) (r : Run) (time : Moment) :
    (ofRun id r).onRun (Run.cancel time) = ofRun id (r.cancel time) := by
  refine onRun_ofRun (fun h => ?_) id
  have hlog := Run.cancel_of_finished time h
  refine ⟨?_, hlog⟩
  rw [Run.isFinished, hlog]
  exact h

theorem onRun_advance (engine : Engine) (id : String) (r : Run) (horizon : Option Nat) :
    (ofRun id r).onRun (Run.advance engine horizon) = ofRun id (r.advance engine horizon) := by
  refine onRun_ofRun (fun h => ?_) id
  rw [Run.advance_of_finished horizon h]
  exact ⟨h, rfl⟩

/-- Of all that a script does, a run that is going on takes part in its own cancellations only. -/
theorem follow_ofRun {engine : Engine} (hlimit : 0 < engine.limit) (id : String) (now : Nat)
    (script : List (Nat × Event)) {r : Run} (h : r.Paced engine) :
    (ofRun id (r.advance engine (some now))).follow engine now script =
      ofRun id ((r.cancelledAt engine (cancelOffsets id 0 now script)).advance engine (some (clock now script))) := by
  induction script generalizing now r with
  | nil => rfl
  | cons first rest ih =>
    obtain ⟨at_, e⟩ := first
    rw [follow, onRun_advance, h.advance_max hlimit]
    cases e with
    | cancel other =>
      simp only [Event.effect, onId, ofRun_id, cancelOffsets]
      by_cases hid : other = id
      · have hf := (h.advance hlimit (some (max now at_))).finished_cancel (engine.moment (max now at_))
        have hrest := ih (max now at_) (.finished hf)
        rw [Run.advance_of_finished (some (max now at_)) hf] at hrest
        rw [if_pos hid.symm, if_pos hid, onRun_cancel]
        exact hrest
      · rw [if_neg (Ne.symm hid), if_neg hid]
        exact ih _ h
    | _ => exact ih _ h

/-- What becomes of a submitted workflow is its own affair. -/
theorem log?_follow_submitted {engine : Engine} (hlimit : 0 < engine.limit) (now : Nat) (id : String) (v : Value)
    (inputs : Fields) (script : List (Nat × Event)) :
    (((submitted engine now id v inputs).follow engine now script).onRun (Run.advance engine none)).log? =
      some (engine.logOf now id v inputs (cancelOffsets id 0 now script)) := by
  unfold submitted Engine.logOf
  cases prepareWorkflow v false with
  | error problems =>
    have hended : ¬ (⟨id, .ended (refusal id (claimedId v) problems (engine.moment now))⟩ : Member).isRunning = true :=
      Bool.false_ne_true
    dsimp only
    rw [follow_of_not_running hended, onRun_of_not_running hended]
    rfl
  | ok w =>
    obtain ⟨hpaced, hsettled⟩ := (Run.unbegun_start w inputs [] id (engine.moment now)).begin_paced now hlimit
    have hstart : Run.advance engine (some now) ((Run.start w inputs [] id (engine.moment now)).begin engine now) =
        (Run.start w inputs [] id (engine.moment now)).begin engine now := hsettled.advance (Nat.le_refl now)
    have hcancelled := hpaced.cancelledAt hlimit (cancelOffsets id 0 now script)
    dsimp only
    rw [← hstart, follow_ofRun hlimit id now script hpaced, onRun_advance, log?_ofRun,
      hcancelled.advance_none hlimit, hstart]

end Member

section
variable {engine : Engine} {before after : List (Nat × Event)} {at_ : Nat} {id : String} {v : Value}
  {inputs : Fields}

theorem startIds_append (script script' : List (Nat × Event)) :
    startIds (script ++ script') = startIds script ++ startIds script' :=
  List.flatMap_append

/-- A session just after it has started a run. -/
structure Begun (engine : Engine) (before : List (Nat × Event)) (at_ : Nat) (id : String) (v : Value)
    (inputs : Fields) (s : Session) : Prop where
  tidy : s.Tidy
  engine_eq : s.engine = engine
  now : s.now = max (clock 0 before) at_
  ids : s.ids = startIds before ++ [id]
  member? : s.member? id = some (.submitted engine (max (clock 0 before) at_) id v inputs)

theorem begun_start (hplain : ∀ e ∈ before, e.2.isPlain = true) (hids : (startIds before).Nodup)
    (hnew : id ∉ startIds before) (v : Value) (inputs : Fields) :
    Begun engine before at_ id v inputs
      ((((make engine).play before).1.advance (some at_)).submit id v inputs [] false) := by
  have hplays : Plays (make engine) before ((make engine).play before).1 :=
    (tidy_make engine).play hplain (by simpa [Session.ids, make] using hids)
  set s := ((make engine).play before).1.advance (some at_) with hs
  have htidy : s.Tidy := hplays.tidy.advance _
  have hsids : s.ids = startIds before := (advance_ids _ _).trans hplays.ids
  have hnow : s.now = max (clock 0 before) at_ := by
    rw [hs, advance_now, hplays.now]
    rfl
  have hengine : s.engine = engine := hplays.engine
  have hid := Member.submitted_id s.engine s.now id v inputs
  have hstart := htidy.performs_start (hsids ▸ hnew) v inputs
  have hself := (htidy.joins_submit (hsids ▸ hnew) v inputs).member?_self (by rw [hid, hsids]; exact hnew)
  rw [hid, hengine, hnow] at hself
  exact ⟨hstart.tidy, hstart.engine.trans hengine, hstart.now.trans hnow, by rw [hstart.ids, hsids]; rfl, hself⟩

/-- The outcome of a run is decided by its start and its cancellations. -/
theorem outcome_eq (hlimit : 0 < engine.limit)
    (hplain : ∀ e ∈ before ++ (at_, .start id v inputs) :: after, e.2.isPlain = true)
    (hids : (startIds (before ++ (at_, .start id v inputs) :: after)).Nodup) :
    outcome engine (before ++ (at_, .start id v inputs) :: after) id =
      some (engine.logOf (max (clock 0 before) at_) id v inputs
        (cancelOffsets id 0 (max (clock 0 before) at_) after)) := by
  have hids' : (startIds before ++ (id :: startIds after)).Nodup := by
    rwa [startIds_append] at hids
  obtain ⟨hbefore, hafter, hdisjoint⟩ := List.nodup_append.1 hids'
  have hnew : id ∉ startIds before := fun h => hdisjoint id h id List.mem_cons_self rfl
  have hbegun : Begun engine before at_ id v inputs _ :=
    begun_start (fun e he => hplain e (List.mem_append_left _ he)) hbefore hnew v inputs
  set s := (((make engine).play before).1.advance (some at_)).submit id v inputs [] false
  have hlate : Plays s after (s.play after).1 :=
    hbegun.tidy.play (fun e he => hplain e (List.mem_append_right _ (List.mem_cons_of_mem _ he)))
      (by rw [hbegun.ids, List.append_assoc]; exact hids')
  have hplay : ((make engine).play (before ++ (at_, .start id v inputs) :: after)).1 = (s.play after).1 :=
    play_append _ _ _
  have hnodup : ((s.play after).1.advance none).ids.Nodup := (hlate.tidy.advance none).nodup
  unfold outcome
  rw [hplay, latest_get? hnodup, advance_member?, hlate.member? id (List.nodup_cons.1 hafter).1, hbegun.member?,
    hlate.engine, hbegun.engine_eq, hbegun.now]
  exact Member.log?_follow_submitted hlimit _ id v inputs after

theorem outcome_solo (hlimit : 0 < engine.limit) (id : String) (v : Value) (inputs : Fields) {cancels : List Nat}
    (hcancels : cancelOffsets id 0 0 (cancels.map fun now => (now, .cancel id)) = cancels) :
    outcome engine (solo id v inputs cancels) id = some (engine.logOf 0 id v inputs cancels) := by
  have hplain : ∀ e ∈ [] ++ solo id v inputs cancels, e.2.isPlain = true := by
    intro e he
    rcases List.mem_cons.1 he with rfl | he
    · rfl
    · obtain ⟨now, -, rfl⟩ := List.mem_map.1 he
      rfl
  have hids : (startIds ([] ++ solo id v inputs cancels)).Nodup := by
    have hnone : startIds (cancels.map fun now => (now, Event.cancel id)) = [] := by
      simp [startIds, Event.started]
    rw [List.nil_append, solo, ← List.singleton_append, startIds_append, hnone]
    exact List.nodup_singleton id
  have heq := outcome_eq hlimit hplain hids
  simp only [clock, List.foldl_nil, Nat.max_self, hcancels] at heq
  exact heq

/-- In a session of runs with distinct ids, started, cancelled and looked at in any order, every run leaves the
log that it leaves when it is alone and cancelled as long after its start, with all times put off by the
instant of its start. -/
theorem outcome_isolated (hlimit : 0 < engine.limit)
    (hplain : ∀ e ∈ before ++ (at_, .start id v inputs) :: after, e.2.isPlain = true)
    (hids : (startIds (before ++ (at_, .start id v inputs) :: after)).Nodup) :
    ∃ log,
      outcome engine
          (solo id v inputs (cancelOffsets id (max (clock 0 before) at_) (max (clock 0 before) at_) after)) id =
        some log ∧
      outcome engine (before ++ (at_, .start id v inputs) :: after) id =
        some (log.later (max (clock 0 before) at_)) := by
  set origin := max (clock 0 before) at_ with horigin
  set cancels := cancelOffsets id origin origin after with hcancels
  have hlater := engine.logOf_later 0 origin id v inputs cancels
  rw [Nat.zero_add, hcancels, cancelOffsets_add id origin (Nat.le_refl _) after, ← hcancels] at hlater
  refine ⟨engine.logOf 0 id v inputs cancels, ?_, ?_⟩
  · exact outcome_solo hlimit id v inputs (cancelOffsets_solo id (Nat.zero_le _) after)
  · rw [outcome_eq hlimit hplain hids, ← horigin, hlater]

end

def pausing : Value :=
  let node (id type provider operation : String) (inputs : Fields) : Value :=
    .object [("id", .text id), ("type", .text type), ("provider", .text provider), ("operation", .text operation),
      ("inputs", .object inputs)]
  .object [("id", .text "pausing"), ("name", .text "Pausing"), ("version", .text "1"),
    ("nodes", .list [node "in" "trigger" "trigger" "manual" [],
      node "pause" "action" "core" "wait" [("seconds", .int 10)]]),
    ("edges", .list [.object [("id", .text "e"), ("source", .text "in"), ("target", .text "pause")]])]

/-- Two runs that overlap; the one that started at five seconds is cancelled after three more. -/
theorem outcome_isolated_pausing :
    let before := [(2000000, Event.start "b" pausing [])]
    let after := [(6000000, Event.cancel "b"), (7000000, Event.active none), (8000000, Event.cancel "a")]
    let script := before ++ (5000000, Event.start "a" pausing []) :: after
    (0 < Run.plainEngine.limit ∧ (∀ e ∈ script, e.2.isPlain = true) ∧ (startIds script).Nodup) ∧
      ∃ log, outcome Run.plainEngine (solo "a" pausing [] [3000000]) "a" = some log ∧
        outcome Run.plainEngine script "a" = some (log.later 5000000) := by
  intro before after script
  have hlimit : 0 < Run.plainEngine.limit := by decide
  have hplain : ∀ e ∈ script, e.2.isPlain = true := by simp [script, before, after, Event.isPlain]
  have hids : (startIds script).Nodup := by simp [script, before, after, startIds, Event.started]
  have horigin : max (clock 0 before) 5000000 = 5000000 := by simp [before, clock]
  have hoffsets : cancelOffsets "a" 5000000 5000000 after = [3000000] := by simp [after, cancelOffsets]
  have hisolated := outcome_isolated hlimit hplain hids
  rw [horigin, hoffsets] at hisolated
  exact ⟨⟨hlimit, hplain, hids⟩, hisolated⟩

end Session

end Flowgraph
