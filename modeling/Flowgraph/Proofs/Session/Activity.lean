import Flowgraph.Proofs.Session.Isolation

/-! Activity under ids that are chosen freely. The table of active ids knows one run for an id: the one that
was started last. It forgets the id as soon as any run with it ends, so that an id can be inactive while a run
with it goes on, but never the other way round. -/

namespace Flowgraph

namespace Session

/-- What is done to a session from outside. -/
inductive Operation where
  | launch (id : String) (w : Workflow) (inputs secrets : Fields)
  | submit (id : String) (v : Value) (inputs secrets : Fields) (validated : Bool)
  | cancel (id : String)
  | kill (id : String)
  | shutdown
  | advance (horizon : Option Nat)

namespace Operation

def apply (s : Session) : Operation → Session
  | launch id w inputs secrets => s.launch id w inputs secrets
  | submit id v inputs secrets validated => s.submit id v inputs secrets validated
  | cancel id => (s.cancel id).1
  | kill id => (s.kill id).1
  | shutdown => s.shutdown
  | advance horizon => s.advance horizon

def started : Operation → List String
  | launch id .. | submit id .. => [id]
  | _ => []

end Operation

def after (s : Session) (operations : List Operation) : Session :=
  operations.foldl Operation.apply s

/-- Some run that was started with the id has not finished. -/
def IsGoing (s : Session) (id : String) : Prop :=
  ∃ (i : Nat) (m : Member), s.members[i]? = some m ∧ m.id = id ∧ m.isRunning = true

/-- Some run with the id is going on in a session and has ended in a later one. -/
def Ends (id : String) (s s' : Session) : Prop :=
  ∃ (i : Nat) (m m' : Member),
    s.members[i]? = some m ∧ s'.members[i]? = some m' ∧ m.id = id ∧ m.isRunning = true ∧ m'.isRunning = false

/-- A session becomes another one without a new run with the id: the table forgets the id if a run with it ends,
and nothing else changes what it knows of the id. -/
structure Proceeds (id : String) (s s' : Session) : Prop where
  kept : ∀ (i : Nat) (m : Member), s.members[i]? = some m →
    ∃ m', s'.members[i]? = some m' ∧ m'.id = m.id ∧ (m'.isRunning = true → m.isRunning = true)
  known : ∀ (i : Nat) (m' : Member), s'.members[i]? = some m' → m'.id = id → m'.isRunning = true →
    ∃ m, s.members[i]? = some m
  erased : Ends id s s' → s'.active.get? id = none
  standing : ¬ Ends id s s' → s'.active.get? id = s.active.get? id

/-- A run with the id joins a session as the last one. -/
structure Enters (id : String) (s s' : Session) (m : Member) : Prop where
  members : s'.members = s.members ++ [m]
  id_eq : m.id = id
  active : s'.active.get? id = if m.isRunning = true then some s.members.length else none

section
variable {id : String} {s s' s'' : Session}

theorem not_ends_self : ¬ Ends id s s := by
  rintro ⟨i, m, m', hm, hm', -, hrunning, hended⟩
  cases hm.symm.trans hm'
  exact Bool.false_ne_true (hended.symm.trans hrunning)

theorem Proceeds.refl (id : String) (s : Session) : Proceeds id s s where
  kept _ m hm := ⟨m, hm, rfl, fun h => h⟩
  known _ m hm _ _ := ⟨m, hm⟩
  erased h := absurd h not_ends_self
  standing _ := rfl

/-- Runs that are going on at last were there at first, and were going on all the time. -/
theorem Proceeds.back (h : Proceeds id s s') {i : Nat} {m' : Member} (hm' : s'.members[i]? = some m')
    (hid : m'.id = id) (hrunning : m'.isRunning = true) :
    ∃ m, s.members[i]? = some m ∧ m.id = id ∧ m.isRunning = true := by
  obtain ⟨m, hm⟩ := h.known i m' hm' hid hrunning
  obtain ⟨n, hn, hsame, hback⟩ := h.kept i m hm
  cases hm'.symm.trans hn
  exact ⟨m, hm, hsame.symm.trans hid, hback hrunning⟩

theorem Proceeds.ends_trans_iff (h : Proceeds id s s') (h' : Proceeds id s' s'') :
    Ends id s s'' ↔ Ends id s s' ∨ Ends id s' s'' := by
  constructor
  · rintro ⟨i, m, m'', hm, hm'', hid, hrunning, hended⟩
    obtain ⟨m', hm', hsame, -⟩ := h.kept i m hm
    by_cases hr : m'.isRunning = true
    · exact Or.inr ⟨i, m', m'', hm', hm'', hsame.trans hid, hr, hended⟩
    · exact Or.inl ⟨i, m, m', hm, hm', hid, hrunning, Bool.eq_false_iff.2 hr⟩
  · rintro (⟨i, m, m', hm, hm', hid, hrunning, hended⟩ | ⟨i, m', m'', hm', hm'', hid, hrunning, hended⟩)
    · obtain ⟨m'', hm'', -, hback⟩ := h'.kept i m' hm'
      refine ⟨i, m, m'', hm, hm'', hid, hrunning, Bool.eq_false_iff.2 fun hr => ?_⟩
      exact Bool.false_ne_true (hended.symm.trans (hback hr))
    · obtain ⟨m, hm, hmid, hr⟩ := h.back hm' hid hrunning
      exact ⟨i, m, m'', hm, hm'', hmid, hr, hended⟩

theorem Proceeds.trans (h : Proceeds id s s') (h' : Proceeds id s' s'') : Proceeds id s s'' where
  kept i m hm := by
    obtain ⟨m', hm', hid, hback⟩ := h.kept i m hm
    obtain ⟨m'', hm'', hid', hback'⟩ := h'.kept i m' hm'
    exact ⟨m'', hm'', hid'.trans hid, fun hr => hback (hback' hr)⟩
  known i m'' hm'' hid hr := by
    obtain ⟨m', hm', hid', hr'⟩ := h'.back hm'' hid hr
    exact h.known i m' hm' hid' hr'
  erased hends := by
    by_cases hlate : Ends id s' s''
    · exact h'.erased hlate
    · rw [h'.standing hlate]
      exact h.erased (((h.ends_trans_iff h').1 hends).resolve_right hlate)
  standing hends := by
    rw [h.ends_trans_iff h', not_or] at hends
    rw [h'.standing hends.2, h.standing hends.1]

/-! Operations -/

/-- Runs go on and end, each in its place. -/
theorem proceeds_withMembers {members : List Member} (hlength : members.length = s.members.length)
    (h : ∀ (i : Nat) (m m' : Member), s.members[i]? = some m → members[i]? = some m' →
      m'.id = m.id ∧ (m'.isRunning = true → m.isRunning = true)) : Proceeds id s (s.withMembers members) := by
  have hends : Ends id s (s.withMembers members) ↔ id ∈ s.endedIds members := by
    simp only [endedIds, List.mem_map, List.mem_filter, Bool.and_eq_true, Bool.not_eq_true', Prod.exists]
    constructor
    · rintro ⟨i, m, m', hm, hm', hid, hrunning, hended⟩
      have hpair : (s.members.zip members)[i]? = some (m, m') := List.getElem?_zip_eq_some.2 ⟨hm, hm'⟩
      exact ⟨m, m', ⟨List.mem_of_getElem? hpair, hrunning, hended⟩, hid⟩
    · rintro ⟨m, m', ⟨hmem, hrunning, hended⟩, hid⟩
      obtain ⟨i, hi⟩ := List.getElem?_of_mem hmem
      obtain ⟨hm, hm'⟩ := List.getElem?_zip_eq_some.1 hi
      exact ⟨i, m, m', hm, hm', hid, hrunning, hended⟩
  refine ⟨fun i m hm => ?_, fun i m' hm' _ _ => ?_, fun he => ?_, fun he => ?_⟩
  · have hi : i < members.length := hlength ▸ (List.getElem?_eq_some_iff.1 hm).1
    exact ⟨members[i], List.getElem?_eq_getElem hi, h i m _ hm (List.getElem?_eq_getElem hi)⟩
  · have hi : i < s.members.length := hlength ▸ (List.getElem?_eq_some_iff.1 hm').1
    exact ⟨s.members[i], List.getElem?_eq_getElem hi⟩
  · rw [withMembers_active, if_pos (hends.1 he)]
  · rw [withMembers_active, if_neg (hends.not.1 he)]

theorem proceeds_change {f : Member → Member} (hf : Member.Tame f) : Proceeds id s (s.change f) := by
  refine proceeds_withMembers (List.length_map f) fun i m m' hm hm' => ?_
  rw [List.getElem?_map, hm] at hm'
  obtain rfl := Option.some.inj hm'
  exact ⟨hf.id_eq m, hf.running m⟩

theorem proceeds_onMember (index : Nat) {f : Member → Member} (hf : Member.Tame f) :
    Proceeds id s (s.onMember index f) := by
  refine proceeds_withMembers (List.length_modify f s.members index) fun i m m' hm hm' => ?_
  rw [List.getElem?_modify, hm] at hm'
  obtain rfl := Option.some.inj hm'
  dsimp only
  split_ifs
  · exact ⟨hf.id_eq m, hf.running m⟩
  · exact ⟨rfl, fun h => h⟩

theorem proceeds_advance (horizon : Option Nat) : Proceeds id s (s.advance horizon) :=
  have h : Proceeds id s (s.change _) := proceeds_change (Member.tame_onRun (Run.advance s.engine horizon))
  ⟨h.kept, h.known, h.erased, h.standing⟩

theorem proceeds_cancel (other : String) : Proceeds id s (s.cancel other).1 := by
  unfold cancel
  split
  · exact Proceeds.refl id s
  · exact proceeds_onMember _ (Member.tame_onRun _)

theorem proceeds_kill (other : String) : Proceeds id s (s.kill other).1 := by
  unfold kill
  split
  · exact Proceeds.refl id s
  · split_ifs
    · exact proceeds_onMember _ ⟨fun _ => rfl, fun _ h => absurd h Bool.false_ne_true⟩
    · exact Proceeds.refl id s

theorem proceeds_shutdown : Proceeds id s s.shutdown := by
  unfold shutdown
  generalize s.active.keys = ids
  induction ids generalizing s with
  | nil => exact Proceeds.refl id s
  | cons other rest ih => exact (proceeds_cancel other).trans ih

/-- A member joins that is no run with the id. -/
theorem proceeds_append {m : Member} (hmembers : s'.members = s.members ++ [m])
    (hm : m.id = id → m.isRunning = false) (hactive : s'.active.get? id = s.active.get? id) : Proceeds id s s' where
  kept i m₁ hm₁ := by
    have hi : i < s.members.length := (List.getElem?_eq_some_iff.1 hm₁).1
    exact ⟨m₁, by rw [hmembers, List.getElem?_append_left hi, hm₁], rfl, fun h => h⟩
  known i m' hm' hid hr := by
    by_contra hnone
    have hi : s.members.length ≤ i := List.getElem?_eq_none_iff.1 (Option.eq_none_iff_forall_ne_some.2 fun m₁ hm₁ =>
      hnone ⟨m₁, hm₁⟩)
    rw [hmembers, List.getElem?_append_right hi, List.getElem?_singleton] at hm'
    split_ifs at hm'
    obtain rfl := Option.some.inj hm'
    exact Bool.false_ne_true ((hm hid).symm.trans hr)
  erased := by
    rintro ⟨i, m₁, m', hm₁, hm', -, hr, hended⟩
    have hi : i < s.members.length := (List.getElem?_eq_some_iff.1 hm₁).1
    rw [hmembers, List.getElem?_append_left hi, hm₁] at hm'
    obtain rfl := Option.some.inj hm'
    exact absurd (hended.symm.trans hr) Bool.false_ne_true
  standing _ := hactive

theorem proceeds_refuse (other workflowId : String) (problems : List String) :
    Proceeds id s (s.refuse other workflowId problems) :=
  proceeds_append rfl (fun _ => rfl) rfl

/-- A run that starts enters the table in the place of any other run with its id. -/
theorem enters_start (id : String) (w : Workflow) (inputs secrets : Fields) :
    ∃ m, Enters id s (s.start id w inputs secrets) m := by
  refine ⟨_, rfl, Member.ofRun_id _ _, ?_⟩
  unfold start
  dsimp only
  rw [apply_ite (fun t : Table Nat => t.get? id), Table.get?_set_self, Table.get?_erase_self]

theorem proceeds_start {other : String} (hne : id ≠ other) (w : Workflow) (inputs secrets : Fields) :
    Proceeds id s (s.start other w inputs secrets) := by
  refine proceeds_append rfl (fun hid => absurd (hid.symm.trans (Member.ofRun_id _ _)) hne) ?_
  unfold start
  dsimp only
  rw [apply_ite (fun t : Table Nat => t.get? id), Table.get?_set_ne _ _ hne, Table.get?_erase_ne _ hne, ite_self]

/-- An operation starts a run with the id, or none. -/
theorem Operation.apply_cases (id : String) (s : Session) (o : Operation) :
    Proceeds id s (o.apply s) ∨ id ∈ o.started ∧ ∃ m, Enters id s (o.apply s) m := by
  have hstart : ∀ other w inputs secrets, Proceeds id s (s.start other w inputs secrets) ∨
      id ∈ [other] ∧ ∃ m, Enters id s (s.start other w inputs secrets) m := by
    intro other w inputs secrets
    by_cases hid : id = other
    · subst hid
      exact Or.inr ⟨List.mem_singleton_self id, enters_start id w inputs secrets⟩
    · exact Or.inl (proceeds_start hid w inputs secrets)
  cases o with
  | launch other w inputs secrets =>
    rw [show (Operation.launch other w inputs secrets).apply s = s.launch other w inputs secrets from rfl,
      Session.launch]
    split_ifs
    · exact hstart other w inputs secrets
    · exact Or.inl (proceeds_refuse other _ _)
  | submit other v inputs secrets validated =>
    rw [show (Operation.submit other v inputs secrets validated).apply s =
      s.submit other v inputs secrets validated from rfl, Session.submit]
    split
    · exact hstart other _ inputs secrets
    · exact Or.inl (proceeds_refuse other _ _)
  | cancel other => exact Or.inl (proceeds_cancel other)
  | kill other => exact Or.inl (proceeds_kill other)
  | shutdown => exact Or.inl proceeds_shutdown
  | advance horizon => exact Or.inl (proceeds_advance horizon)

theorem proceeds_after {operations : List Operation} (h : ∀ o ∈ operations, id ∉ o.started) :
    Proceeds id s (s.after operations) := by
  induction operations generalizing s with
  | nil => exact Proceeds.refl id s
  | cons o rest ih =>
    rw [List.forall_mem_cons] at h
    exact ((o.apply_cases id s).resolve_right fun hstart => h.1 hstart.1).trans (ih h.2)

theorem after_append (s : Session) (before rest : List Operation) :
    s.after (before ++ rest) = (s.after before).after rest :=
  List.foldl_append

/-! Runs that the table knows -/

def Sound (id : String) (s : Session) : Prop :=
  ∀ i, s.active.get? id = some i → ∃ m, s.members[i]? = some m ∧ m.id = id ∧ m.isRunning = true

def Complete (id : String) (s : Session) : Prop :=
  ∀ (i : Nat) (m : Member), s.members[i]? = some m → m.id = id → m.isRunning = true → s.active.get? id = some i

theorem Sound.proceeds (hs : Sound id s) (h : Proceeds id s s') : Sound id s' := by
  intro i hi
  have hends : ¬ Ends id s s' := fun he => by
    rw [h.erased he] at hi
    cases hi
  rw [h.standing hends] at hi
  obtain ⟨m, hm, hid, hr⟩ := hs i hi
  obtain ⟨m', hm', hsame, -⟩ := h.kept i m hm
  refine ⟨m', hm', hsame.trans hid, ?_⟩
  by_contra hstopped
  exact hends ⟨i, m, m', hm, hm', hid, hr, Bool.eq_false_iff.2 hstopped⟩

theorem Sound.enters {m : Member} (h : Enters id s s' m) : Sound id s' := by
  intro i hi
  rw [h.active] at hi
  split_ifs at hi with hr
  obtain rfl := Option.some.inj hi
  exact ⟨m, by rw [h.members, List.getElem?_concat_length], h.id_eq, hr⟩

theorem Complete.proceeds (hc : Complete id s) (h : Proceeds id s s') : Complete id s' := by
  intro i m' hm' hid hr
  obtain ⟨m, hm, hmid, hmr⟩ := h.back hm' hid hr
  have hi := hc i m hm hmid hmr
  rw [h.standing, hi]
  -- a run with the id that ended would be the one that the table knows, and that one is still going on
  rintro ⟨j, n, n', hn, hn', hnid, hnr, hended⟩
  obtain rfl : i = j := Option.some.inj (hi.symm.trans (hc j n hn hnid hnr))
  cases hm'.symm.trans hn'
  exact Bool.false_ne_true (hended.symm.trans hr)

theorem Complete.enters {m : Member} (h : Enters id s s' m) (hfree : ¬ s.IsGoing id) : Complete id s' := by
  intro i n hn hid hr
  rw [h.members] at hn
  rcases Nat.lt_or_ge i s.members.length with hlt | hge
  · rw [List.getElem?_append_left hlt] at hn
    exact absurd ⟨i, n, hn, hid, hr⟩ hfree
  · rw [List.getElem?_append_right hge, List.getElem?_singleton] at hn
    split_ifs at hn with hi
    obtain rfl := Option.some.inj hn
    rw [h.active, if_pos hr]
    congr 1
    omega

theorem sound_after (engine : Engine) (operations : List Operation) (id : String) :
    Sound id ((make engine).after operations) := by
  induction operations using List.reverseRecOn with
  | nil => exact fun i hi => by cases hi
  | append_singleton before o ih =>
    rw [after_append]
    rcases o.apply_cases id ((make engine).after before) with h | ⟨-, m, h⟩
    · exact ih.proceeds h
    · exact Sound.enters h

/-- No run is started with the id while another run with it has not finished. -/
def OneByOne (engine : Engine) (operations : List Operation) (id : String) : Prop :=
  ∀ before o rest, operations = before ++ o :: rest → id ∈ o.started → ¬ ((make engine).after before).IsGoing id

theorem complete_after {engine : Engine} {operations : List Operation} (h : OneByOne engine operations id) :
    Complete id ((make engine).after operations) := by
  induction operations using List.reverseRecOn with
  | nil => exact fun i m hm => by cases hm
  | append_singleton before o ih =>
    have hbefore : OneByOne engine before id := by
      rintro first o' rest rfl
      exact h first o' (rest ++ [o]) (by simp)
    rw [after_append]
    rcases o.apply_cases id ((make engine).after before) with hp | ⟨hid, m, he⟩
    · exact (ih hbefore).proceeds hp
    · exact Complete.enters he (h before o [] rfl hid)

theorem isActive_iff : s.isActive id = true ↔ ∃ i, s.active.get? id = some i :=
  Option.isSome_iff_exists

theorem cancel_answer (s : Session) (id : String) : (s.cancel id).2 = s.isActive id := by
  unfold cancel isActive Table.contains
  cases s.active.get? id <;> rfl

end

/-- Whatever is done to a session, cancelling an id answers whether the id is active, and an active id is one of
a run that has not finished. The converse holds of ids that are given to one run after the other. In general an
id that is active stays so until any run ends that has it, and does not become active by anything but a start. -/
theorem isActive_after (engine : Engine) (operations : List Operation) (id : String) :
    let s := (make engine).after operations
    (s.cancel id).2 = s.isActive id ∧
      (s.isActive id = true → s.IsGoing id) ∧
      (OneByOne engine operations id → (s.isActive id = true ↔ s.IsGoing id)) ∧
      ∀ before rest, operations = before ++ rest → (∀ o ∈ rest, id ∉ o.started) →
        (s.isActive id = true ↔
          ((make engine).after before).isActive id = true ∧ ¬ Ends id ((make engine).after before) s) := by
  intro s
  have hsound : s.isActive id = true → s.IsGoing id := fun h => by
    obtain ⟨i, hi⟩ := isActive_iff.1 h
    exact ⟨i, sound_after engine operations id i hi⟩
  refine ⟨cancel_answer s id, hsound, fun h => ⟨hsound, ?_⟩, ?_⟩
  · rintro ⟨i, m, hm, hid, hr⟩
    exact isActive_iff.2 ⟨i, complete_after h i m hm hid hr⟩
  · rintro before rest rfl hrest
    have hp : Proceeds id ((make engine).after before) s := by
      have := proceeds_after (s := (make engine).after before) hrest
      rwa [← after_append] at this
    rw [isActive_iff, isActive_iff]
    by_cases he : Ends id ((make engine).after before) s
    · rw [hp.erased he]
      simp [he]
    · rw [hp.standing he]
      simp [he]

def slowEngine : Engine :=
  { Run.plainEngine with
    registry :=
      { capabilities := [{ provider := "trigger", operation := "manual",
                           executor := some ⟨true, fun _ => .after (.int 10) fun s => (s, .ok .null)⟩ }] } }

def loneTrigger : Workflow where
  id := "lone"
  name := "Lone trigger"
  version := "1"
  nodes := [{ id := "in", type := .trigger, provider := "trigger", operation := "manual" }]

theorem loneTrigger_going :
    ((Run.start loneTrigger [] [] "r" (slowEngine.moment 0)).begin slowEngine 0).isFinished = false := by
  rw [Run.begin, Run.launch_of_sorted (by decide +kernel)]
  decide +kernel

/-- Of two runs with one id the second is cancelled; the first goes on, but the id is no longer active. -/
theorem isActive_of_two :
    let s := (make slowEngine).after
      [.launch "r" loneTrigger [] [], .launch "r" loneTrigger [] [], .cancel "r"]
    s.IsGoing "r" ∧ s.isActive "r" = false ∧ (s.cancel "r").2 = false := by
  set r := (Run.start loneTrigger [] [] "r" (slowEngine.moment 0)).begin slowEngine 0 with hr
  let m : Member := ⟨"r", .running r⟩
  let two : Session := { engine := slowEngine, now := 0, members := [m, m], active := [("r", 1)] }
  have hlaunch : ∀ s : Session, s.engine = slowEngine → s.now = 0 → s.launch "r" loneTrigger [] [] =
      { s with members := s.members ++ [m], active := s.active.set "r" s.members.length } := by
    intro s hengine hnow
    have hm : Member.close ⟨"r", .running r⟩ = m := Member.ofRun_of_unfinished "r" (by simp [hr, loneTrigger_going])
    rw [launch, if_pos (by decide +kernel), start, time, hengine, hnow, ← hr, hm]
    rfl
  have htwo : (make slowEngine).after [.launch "r" loneTrigger [] [], .launch "r" loneTrigger [] []] = two := by
    change ((make slowEngine).launch "r" loneTrigger [] []).launch "r" loneTrigger [] [] = two
    rw [hlaunch _ rfl rfl, hlaunch _ rfl rfl]
    rfl
  have hfinished : (r.cancel (slowEngine.moment 0)).isFinished = true :=
    ((Run.unbegun_start loneTrigger [] [] "r" _).begin_paced 0 (by decide)).1.finished_cancel _
  have hends : Ends "r" two (two.cancel "r").1 :=
    ⟨1, m, m.onRun (Run.cancel (slowEngine.moment 0)), rfl, rfl, rfl, rfl,
      congrArg Member.isRunning (Member.ofRun_of_finished "r" hfinished)⟩
  have hinactive : (two.cancel "r").1.active.get? "r" = none := (proceeds_cancel "r").erased hends
  rw [show [Operation.launch "r" loneTrigger [] [], .launch "r" loneTrigger [] [], .cancel "r"] =
    [.launch "r" loneTrigger [] [], .launch "r" loneTrigger [] []] ++ [.cancel "r"] from rfl, after_append, htwo]
  refine ⟨⟨0, m, rfl, rfl, rfl⟩, ?_, ?_⟩
  · exact congrArg Option.isSome hinactive
  · exact (cancel_answer _ _).trans (congrArg Option.isSome hinactive)

end Session

end Flowgraph
