import Flowgraph.Proofs.Session.Members

/-! What a script does to one member of a session. Carrying out an event works on every member by itself, so
a whole script shows on a member as the same steps taken on that member alone. -/

namespace Flowgraph

namespace Session

namespace Event

def isPlain : Event → Bool
  | .start .. | .cancel _ | .active _ => true
  | .kill _ | .shutdown => false

def started : Event → List String
  | .start id _ _ => [id]
  | _ => []

/-- What an event does to a member that was there before it. -/
def effect (engine : Engine) (now : Nat) : Event → Member → Member
  | .cancel id => Member.onId id (Member.onRun (Run.cancel (engine.moment now)))
  | _ => fun m => m

theorem tame_effect (engine : Engine) (now : Nat) (e : Event) : Member.Tame (e.effect engine now) := by
  cases e with
  | cancel id => exact (Member.tame_onRun _).onId id
  | _ => exact ⟨fun _ => rfl, fun _ h => h⟩

end Event

def startIds (script : List (Nat × Event)) : List String :=
  script.flatMap fun e => e.2.started

/-- The instant of the last event of a script; time does not go back for an earlier one. -/
def clock (now : Nat) (script : List (Nat × Event)) : Nat :=
  script.foldl (fun now e => max now e.1) now

def Member.follow (engine : Engine) : Nat → List (Nat × Event) → Member → Member
  | _, [], m => m
  | now, (at_, e) :: rest, m =>
    follow engine (max now at_) rest (e.effect engine (max now at_) (m.onRun (Run.advance engine (some at_))))

/-- What is left of a session when an event has been carried out. -/
structure Performs (s : Session) (e : Event) (s' : Session) : Prop where
  tidy : s'.Tidy
  engine : s'.engine = s.engine
  now : s'.now = s.now
  ids : s'.ids = s.ids ++ e.started
  member? : ∀ id, id ∉ e.started → s'.member? id = (s.member? id).map (e.effect s.engine s.now)

/-- What is left of a session when a script has been played. -/
structure Plays (s : Session) (script : List (Nat × Event)) (s' : Session) : Prop where
  tidy : s'.Tidy
  engine : s'.engine = s.engine
  now : s'.now = clock s.now script
  ids : s'.ids = s.ids ++ startIds script
  member? : ∀ id, id ∉ startIds script → s'.member? id = (s.member? id).map (Member.follow s.engine s.now script)

section
variable {s : Session}

theorem Tidy.advance (h : s.Tidy) (horizon : Option Nat) : (s.advance horizon).Tidy :=
  ⟨(h.change (Member.tame_onRun _)).nodup, (h.change (Member.tame_onRun _)).active⟩

theorem advance_ids (s : Session) (horizon : Option Nat) : (s.advance horizon).ids = s.ids :=
  change_ids (s := s) (Member.tame_onRun _)

theorem advance_member? (s : Session) (horizon : Option Nat) (id : String) :
    (s.advance horizon).member? id = (s.member? id).map (Member.onRun (Run.advance s.engine horizon)) :=
  change_member? (s := s) (Member.tame_onRun _) id

theorem advance_now (s : Session) (at_ : Nat) : (s.advance (some at_)).now = max s.now at_ := rfl

theorem submit_engine_now (s : Session) (id : String) (v : Value) (inputs : Fields) :
    (s.submit id v inputs [] false).engine = s.engine ∧ (s.submit id v inputs [] false).now = s.now := by
  unfold submit
  cases prepareWorkflow v false <;> exact ⟨rfl, rfl⟩

theorem Tidy.performs_start (h : s.Tidy) {id : String} (hid : id ∉ s.ids) (v : Value) (inputs : Fields) :
    Performs s (.start id v inputs) (s.submit id v inputs [] false) := by
  have hj := h.joins_submit hid v inputs
  have hm := Member.submitted_id s.engine s.now id v inputs
  obtain ⟨hengine, hnow⟩ := submit_engine_now s id v inputs
  refine ⟨h.joins hj (by rwa [hm]), hengine, hnow, by rw [hj.ids, hm]; rfl, fun x hx => ?_⟩
  have hne : x ≠ id := by simpa [Event.started] using hx
  rw [hj.member?_ne (hm.symm ▸ hne)]
  exact Option.map_id'.symm

theorem Tidy.performs_change (h : s.Tidy) {e : Event} (he : e.started = []) :
    Performs s e (s.change (e.effect s.engine s.now)) where
  tidy := h.change (e.tame_effect _ _)
  engine := rfl
  now := rfl
  ids := by rw [change_ids (e.tame_effect _ _), he, List.append_nil]
  member? id _ := change_member? (e.tame_effect _ _) id

/-- Carrying out an event starts a run or changes the members that are there, each by itself. -/
theorem Tidy.perform (h : s.Tidy) {e : Event} (hplain : e.isPlain = true) (hfresh : ∀ id ∈ e.started, id ∉ s.ids) :
    Performs s e (s.perform e).1 := by
  cases e with
  | start id v inputs => exact h.performs_start (hfresh id (List.mem_singleton_self id)) v inputs
  | cancel id =>
    have hcancel : (s.perform (.cancel id)).1 = s.change ((Event.cancel id).effect s.engine s.now) := h.cancel_eq id
    rw [hcancel]
    exact h.performs_change rfl
  | active id =>
    have hself : s = s.change ((Event.active id).effect s.engine s.now) := by
      have hmap : s.members.map ((Event.active id).effect s.engine s.now) = s.members := List.map_id' _
      rw [Session.change, hmap, withMembers_self]
    have hactive := h.performs_change (e := .active id) rfl
    rw [← hself] at hactive
    exact hactive
  | kill id => cases hplain
  | shutdown => cases hplain

theorem Tidy.play {script : List (Nat × Event)} (h : s.Tidy) (hplain : ∀ e ∈ script, e.2.isPlain = true)
    (hids : (s.ids ++ startIds script).Nodup) : Plays s script (s.play script).1 := by
  induction script generalizing s with
  | nil =>
    refine ⟨h, rfl, rfl, (List.append_nil _).symm, fun id _ => ?_⟩
    exact Option.map_id'.symm
  | cons first rest ih =>
    obtain ⟨at_, e⟩ := first
    have hids' : (s.ids ++ e.started ++ startIds rest).Nodup := by
      rwa [List.append_assoc]
    have hfresh : ∀ id ∈ e.started, id ∉ (s.advance (some at_)).ids := by
      rw [advance_ids]
      exact fun id hid hmem => List.disjoint_of_nodup_append (List.Nodup.of_append_left hids') hmem hid
    have hp := (h.advance (some at_)).perform (hplain _ List.mem_cons_self) hfresh
    have hrest := ih hp.tidy (fun e' he' => hplain e' (List.mem_cons_of_mem _ he'))
      (by rwa [hp.ids, advance_ids])
    refine ⟨hrest.tidy, hrest.engine.trans hp.engine, ?_, ?_, fun id hid => ?_⟩
    · exact hrest.now.trans (by rw [hp.now]; rfl)
    · exact hrest.ids.trans (by rw [hp.ids, advance_ids, List.append_assoc]; rfl)
    · obtain ⟨hstarted, hlater⟩ : id ∉ e.started ∧ id ∉ startIds rest := by
        simpa [startIds] using hid
      refine (hrest.member? id hlater).trans ?_
      rw [hp.member? id hstarted, advance_member?, hp.engine, hp.now, advance_now, Option.map_map, Option.map_map]
      rfl

theorem play_append (s : Session) (script script' : List (Nat × Event)) :
    (s.play (script ++ script')).1 = ((s.play script).1.play script').1 := by
  induction script generalizing s with
  | nil => rfl
  | cons first rest ih => exact ih _

end

end Session

end Flowgraph
