import Flowgraph.Proofs.Table
import Flowgraph.Session

/-! The members of a session. Members keep their ids and a run that has ended stays ended, so as long as ids
are distinct the table of active ids says where the runs stand that are going on, and whatever is done to a
session falls apart into what is done to each member. -/

namespace Flowgraph

namespace Session

namespace Member

/-- Changes that rename no member and bring none back. -/
structure Tame (f : Member → Member) : Prop where
  id_eq : ∀ m, (f m).id = m.id
  running : ∀ m, (f m).isRunning = true → m.isRunning = true

def ofRun (id : String) (r : Run) : Member :=
  close ⟨id, .running r⟩

def onId (id : String) (f : Member → Member) (m : Member) : Member :=
  if m.id = id then f m else m

@[simp] theorem close_id (m : Member) : m.close.id = m.id := by
  unfold close
  cases m.course with
  | running run =>
    dsimp only
    split_ifs <;> rfl
  | _ => rfl

theorem ofRun_id (id : String) (r : Run) : (ofRun id r).id = id :=
  close_id _

theorem ofRun_of_finished (id : String) {r : Run} (h : r.isFinished = true) : ofRun id r = ⟨id, .ended r.log⟩ := by
  unfold ofRun close
  exact if_pos h

theorem ofRun_of_unfinished (id : String) {r : Run} (h : ¬ r.isFinished = true) : ofRun id r = ⟨id, .running r⟩ := by
  unfold ofRun close
  exact if_neg h

theorem log?_ofRun (id : String) (r : Run) : (ofRun id r).log? = some r.log := by
  by_cases h : r.isFinished = true
  · rw [ofRun_of_finished id h]
    rfl
  · rw [ofRun_of_unfinished id h]
    rfl

theorem onRun_of_not_running {m : Member} (h : ¬ m.isRunning = true) (f : Run → Run) : m.onRun f = m := by
  unfold isRunning at h
  unfold onRun
  cases hc : m.course with
  | running run => simp [hc] at h
  | _ => rfl

theorem tame_onRun (f : Run → Run) : Tame (onRun f) where
  id_eq m := by
    unfold onRun
    cases m.course with
    | running run => exact close_id _
    | _ => rfl
  running m h := by
    by_contra hm
    rw [onRun_of_not_running hm] at h
    exact hm h

theorem Tame.onId {f : Member → Member} (h : Tame f) (id : String) : Tame (onId id f) where
  id_eq m := by
    unfold Member.onId
    split_ifs
    · exact h.id_eq m
    · rfl
  running m hm := by
    unfold Member.onId at hm
    split_ifs at hm
    · exact h.running m hm
    · exact hm

/-- On a run as a member works what keeps the logs of finished runs. -/
theorem onRun_ofRun {f : Run → Run} {r : Run}
    (h : r.isFinished = true → (f r).isFinished = true ∧ (f r).log = r.log) (id : String) :
    (ofRun id r).onRun f = ofRun id (f r) := by
  by_cases hr : r.isFinished = true
  · obtain ⟨hf, hlog⟩ := h hr
    rw [ofRun_of_finished id hr, ofRun_of_finished id hf, hlog]
    rfl
  · rw [ofRun_of_unfinished id hr]
    rfl

end Member

theorem zip_map_self {α β : Type} (f : α → β) (l : List α) : l.zip (l.map f) = l.map fun a => (a, f a) := by
  simpa using List.zip_map' (f := fun a => a) (g := f) (l := l)

/-! Members by their ids -/

def ids (s : Session) : List String :=
  s.members.map Member.id

def member? (s : Session) (id : String) : Option Member :=
  s.members.find? fun m => m.id = id

/-- Ids are distinct, and the active ones are those of the runs that are going on. -/
structure Tidy (s : Session) : Prop where
  nodup : s.ids.Nodup
  active : ∀ id i, s.active.get? id = some i ↔ ∃ m, s.members[i]? = some m ∧ m.id = id ∧ m.isRunning = true

def change (s : Session) (f : Member → Member) : Session :=
  s.withMembers (s.members.map f)

section
variable {s : Session} {f : Member → Member} {id : String}

theorem tidy_make (engine : Engine) : (make engine).Tidy where
  nodup := List.nodup_nil
  active id i := by simp [make, Table.get?_nil]

theorem eq_of_id_eq (h : s.ids.Nodup) {m m' : Member} (hm : m ∈ s.members) (hm' : m' ∈ s.members)
    (hid : m.id = m'.id) : m = m' :=
  List.inj_on_of_nodup_map h hm hm' hid

theorem latest_get? (h : s.ids.Nodup) (id : String) : s.latest.get? id = s.member? id := by
  have hkeys : (Table.keys (s.members.map fun m => (m.id, m))).Nodup := by
    rw [Table.keys, List.map_map]
    exact h
  have hget : ∀ members : List Member, Table.get? (members.map fun m => (m.id, m)) id =
      members.find? fun m => m.id = id := by
    intro members
    induction members with
    | nil => rfl
    | cons m rest ih =>
      simp only [List.map_cons, Table.get?, ih, List.find?_cons]
      by_cases hid : m.id = id <;> simp [hid]
  unfold latest Table.ofPairs
  rw [Table.get?_merge hkeys, hget, Table.get?_nil, Option.or_none]
  rfl

/-! Changing members -/

theorem change_ids (hf : Member.Tame f) : (s.change f).ids = s.ids := by
  simp only [ids, change, withMembers, List.map_map]
  exact List.map_congr_left fun m _ => hf.id_eq m

theorem change_member? (hf : Member.Tame f) (id : String) : (s.change f).member? id = (s.member? id).map f := by
  simp only [member?, change, withMembers, List.find?_map, Function.comp_def, hf.id_eq]

def endedIds (s : Session) (members : List Member) : List String :=
  ((s.members.zip members).filter fun p => p.1.isRunning && !p.2.isRunning).map fun p => p.1.id

theorem withMembers_active (s : Session) (members : List Member) (id : String) :
    (s.withMembers members).active.get? id = if id ∈ s.endedIds members then none else s.active.get? id := by
  unfold withMembers
  dsimp only
  rw [← List.foldl_map (f := fun p : Member × Member => p.1.id) (g := Table.erase), Table.get?_foldl_erase]
  rfl

/-- The ids that a change ends are no longer active. -/
theorem change_active (f : Member → Member) (id : String) :
    (s.change f).active.get? id =
      if ∃ m ∈ s.members, m.id = id ∧ m.isRunning = true ∧ (f m).isRunning = false then none
      else s.active.get? id := by
  rw [change, withMembers_active, endedIds, zip_map_self]
  refine if_congr ?_ rfl rfl
  simp only [List.mem_map, List.mem_filter, Bool.and_eq_true, Bool.not_eq_true']
  constructor
  · rintro ⟨p, ⟨⟨m, hm, rfl⟩, hrunning, hended⟩, hid⟩
    exact ⟨m, hm, hid, hrunning, hended⟩
  · rintro ⟨m, hm, hid, hrunning, hended⟩
    exact ⟨(m, f m), ⟨⟨m, hm, rfl⟩, hrunning, hended⟩, hid⟩

theorem Tidy.change (h : s.Tidy) (hf : Member.Tame f) : (s.change f).Tidy where
  nodup := by
    rw [change_ids hf]
    exact h.nodup
  active id i := by
    have hmembers : (s.change f).members[i]? = (s.members[i]?).map f := List.getElem?_map
    rw [change_active, hmembers]
    constructor
    · intro hget
      split_ifs at hget with hended
      obtain ⟨m, hm, hid, hrunning⟩ := (h.active id i).1 hget
      refine ⟨f m, by rw [hm]; rfl, (hf.id_eq m).trans hid, ?_⟩
      by_contra hstopped
      exact hended ⟨m, List.mem_of_getElem? hm, hid, hrunning, by simpa using hstopped⟩
    · rintro ⟨fm, hfm, hid, hrunning⟩
      obtain ⟨m, hm, rfl⟩ := Option.map_eq_some_iff.1 hfm
      rw [hf.id_eq] at hid
      rw [if_neg]
      · exact (h.active id i).2 ⟨m, hm, hid, hf.running m hrunning⟩
      · rintro ⟨m', hm', hid', -, hended⟩
        obtain rfl := eq_of_id_eq h.nodup hm' (List.mem_of_getElem? hm) (hid'.trans hid.symm)
        simp [hended] at hrunning

/-- What ends no run leaves the table of active ids as it is. -/
theorem withMembers_self (s : Session) : s.withMembers s.members = s := by
  have hzip : s.members.zip s.members = s.members.map fun m => (m, m) := by
    simpa using zip_map_self (fun m => m) s.members
  have hended : (s.members.zip s.members).filter (fun p => p.1.isRunning && !p.2.isRunning) = [] := by
    rw [List.filter_eq_nil_iff, hzip]
    intro p hp
    obtain ⟨m, -, rfl⟩ := List.mem_map.1 hp
    simp
  unfold withMembers
  rw [hended]
  rfl

/-! Cancelling -/

/-- Without an active run of an id there is none to change. -/
theorem Tidy.map_onId_of_inactive (h : s.Tidy) (hid : s.active.get? id = none) (f : Run → Run) :
    s.members.map (Member.onId id (Member.onRun f)) = s.members := by
  refine (List.map_congr_left fun m hm => ?_).trans (List.map_id _)
  unfold Member.onId
  split_ifs with hm'
  · refine Member.onRun_of_not_running (fun hrunning => ?_) f
    obtain ⟨i, hi⟩ := List.getElem?_of_mem hm
    have hactive := (h.active id i).2 ⟨m, hi, hm', hrunning⟩
    rw [hid] at hactive
    cases hactive
  · rfl

/-- A position among members with distinct ids is as good as an id. -/
theorem modify_eq_map_onId (h : s.ids.Nodup) {i : Nat} {m : Member} (hm : s.members[i]? = some m)
    (f : Member → Member) : s.members.modify i f = s.members.map (Member.onId m.id f) := by
  have hi : i < s.ids.length := by
    rw [ids, List.length_map]
    exact (List.getElem?_eq_some_iff.1 hm).1
  refine List.ext_getElem? fun j => ?_
  rw [List.getElem?_modify, List.getElem?_map]
  cases hm' : s.members[j]? with
  | none => rfl
  | some m' =>
    have hij : i = j ↔ m'.id = m.id := by
      rw [← List.getElem?_inj hi h, ids, List.getElem?_map, List.getElem?_map, hm, hm', Option.map_some,
        Option.map_some, Option.some.injEq, eq_comm]
    simp only [Option.map_eq_map, Option.map_some, Member.onId, hij]

/-- With distinct ids, cancelling an id is cancelling the run that has it. -/
theorem Tidy.cancel_eq (h : s.Tidy) (id : String) :
    (s.cancel id).1 = s.change (Member.onId id (Member.onRun (Run.cancel s.time))) := by
  unfold Session.cancel
  cases hget : s.active.get? id with
  | none =>
    dsimp only
    rw [Session.change, h.map_onId_of_inactive hget, withMembers_self]
  | some i =>
    obtain ⟨m, hm, rfl, -⟩ := (h.active id i).1 hget
    dsimp only
    rw [Session.onMember, modify_eq_map_onId h.nodup hm, Session.change]

end

/-! New members -/

/-- A member joins a session as the last one. -/
structure Joins (s s' : Session) (m : Member) : Prop where
  members : s'.members = s.members ++ [m]
  active : ∀ id, s'.active.get? id =
    if id = m.id ∧ m.isRunning = true then some s.members.length else s.active.get? id

def Member.submitted (engine : Engine) (now : Nat) (id : String) (v : Value) (inputs : Fields) : Member :=
  match prepareWorkflow v false with
  | .ok w => .ofRun id ((Run.start w inputs [] id (engine.moment now)).begin engine now)
  | .error problems => ⟨id, .ended (refusal id (claimedId v) problems (engine.moment now))⟩

theorem Member.submitted_id (engine : Engine) (now : Nat) (id : String) (v : Value) (inputs : Fields) :
    (Member.submitted engine now id v inputs).id = id := by
  unfold Member.submitted
  cases prepareWorkflow v false with
  | ok w => exact Member.ofRun_id _ _
  | error problems => rfl

section
variable {s s' : Session} {m : Member} {id : String}

theorem Joins.ids (h : Joins s s' m) : s'.ids = s.ids ++ [m.id] := by
  rw [Session.ids, h.members, List.map_append]
  rfl

theorem Joins.member?_self (h : Joins s s' m) (hid : m.id ∉ s.ids) : s'.member? m.id = some m := by
  have hnone : s.members.find? (fun m' => decide (m'.id = m.id)) = none := by
    rw [List.find?_eq_none]
    intro m' hm'
    have hne : m'.id ≠ m.id := fun hsame => hid (hsame ▸ List.mem_map_of_mem hm')
    simpa using hne
  rw [Session.member?, h.members, List.find?_append, hnone]
  simp

theorem Joins.member?_ne (h : Joins s s' m) (hid : id ≠ m.id) : s'.member? id = s.member? id := by
  rw [Session.member?, h.members, List.find?_append]
  simp [Ne.symm hid, Session.member?]

theorem Tidy.joins (h : s.Tidy) (hj : Joins s s' m) (hid : m.id ∉ s.ids) : s'.Tidy where
  nodup := by
    rw [hj.ids, List.nodup_append]
    refine ⟨h.nodup, List.nodup_singleton _, ?_⟩
    rintro a ha b hb rfl
    exact hid (List.mem_singleton.1 hb ▸ ha)
  active id i := by
    rw [hj.active, hj.members]
    constructor
    · intro hget
      split_ifs at hget with hnew
      · obtain rfl := Option.some.inj hget
        exact ⟨m, List.getElem?_concat_length, hnew.1.symm, hnew.2⟩
      · obtain ⟨m', hm', hid', hrunning⟩ := (h.active id i).1 hget
        exact ⟨m', List.getElem?_append_left (List.getElem?_eq_some_iff.1 hm').1 ▸ hm', hid', hrunning⟩
    · rintro ⟨m', hm', rfl, hrunning⟩
      rcases Nat.lt_or_ge i s.members.length with hlt | hge
      · rw [List.getElem?_append_left hlt] at hm'
        have hne : m'.id ≠ m.id := fun hsame => hid (hsame ▸ List.mem_map_of_mem (List.mem_of_getElem? hm'))
        rw [if_neg fun hnew => hne hnew.1]
        exact (h.active m'.id i).2 ⟨m', hm', rfl, hrunning⟩
      · rw [List.getElem?_append_right hge, List.getElem?_singleton] at hm'
        split_ifs at hm' with hi
        obtain rfl := Option.some.inj hm'
        rw [if_pos ⟨rfl, hrunning⟩]
        congr 1
        omega

theorem Tidy.get?_active_of_notMem (h : s.Tidy) (hid : id ∉ s.ids) : s.active.get? id = none := by
  by_contra hsome
  obtain ⟨i, hi⟩ := Option.ne_none_iff_exists'.1 hsome
  obtain ⟨m, hm, rfl, -⟩ := (h.active id i).1 hi
  exact hid (List.mem_map_of_mem (List.mem_of_getElem? hm))

theorem Tidy.joins_submit (h : s.Tidy) (hid : id ∉ s.ids) (v : Value) (inputs : Fields) :
    Joins s (s.submit id v inputs [] false) (.submitted s.engine s.now id v inputs) := by
  have hget := h.get?_active_of_notMem hid
  unfold submit Member.submitted
  cases prepareWorkflow v false with
  | error problems => exact ⟨rfl, fun x => by simp [Member.isRunning, refuse]⟩
  | ok w =>
    refine ⟨rfl, fun x => ?_⟩
    have hactive : (s.start id w inputs []).active.get? x =
        if (Member.ofRun id ((Run.start w inputs [] id s.time).begin s.engine s.now)).isRunning = true
        then (s.active.set id s.members.length).get? x else (s.active.erase id).get? x :=
      apply_ite (fun t : Table Nat => t.get? x) _ _ _
    change (s.start id w inputs []).active.get? x = _
    rw [hactive, Member.ofRun_id, Table.get?_set]
    by_cases hx : x = id
    · subst hx
      rw [hget, Table.get?_erase_self]
      simp [time]
    · rw [Table.get?_erase_ne _ hx]
      simp [hx]

end

end Session

end Flowgraph
