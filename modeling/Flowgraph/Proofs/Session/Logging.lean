import Flowgraph.Proofs.Run.Identity
import Flowgraph.Proofs.Session.Members

/-! The logs of the members of a session. A member that is launched has a log under the id of its launch,
and as long as nobody gives up on it, it keeps one under that id however far the session goes on. -/

namespace Flowgraph

namespace Session

namespace Member

def LoggedAs (id : String) (m : Member) : Prop :=
  ∃ log, m.log? = some log ∧ log.executionId = id

theorem loggedAs_ofRun {id : String} {r : Run} (h : r.LoggedAs id) (name : String) : (ofRun name r).LoggedAs id :=
  ⟨r.log, log?_ofRun name r, h⟩

theorem LoggedAs.onRun {id : String} {m : Member} {f : Run → Run} (h : m.LoggedAs id)
    (hf : ∀ r : Run, r.LoggedAs id → (f r).LoggedAs id) : (m.onRun f).LoggedAs id := by
  obtain ⟨name, course⟩ := m
  cases course with
  | running r =>
    obtain ⟨log, hlog, hid⟩ := h
    obtain rfl := Option.some.inj hlog
    exact loggedAs_ofRun (hf r hid) name
  | ended log => exact h
  | killed => exact h

end Member

section
variable {s : Session} {id : String} {i : Nat}

theorem launch_members (s : Session) (id : String) (w : Workflow) (inputs secrets : Fields) :
    ∃ m, (s.launch id w inputs secrets).members = s.members ++ [m] ∧ m.LoggedAs id := by
  unfold launch
  split_ifs
  · exact ⟨_, rfl, Member.loggedAs_ofRun (Run.loggedAs_start w inputs secrets id s.time).begin id⟩
  · exact ⟨_, rfl, _, rfl, rfl⟩

theorem launch_getElem? (s : Session) (id : String) (w : Workflow) (inputs secrets : Fields) :
    ∃ m, (s.launch id w inputs secrets).members[s.members.length]? = some m ∧ m.LoggedAs id := by
  obtain ⟨m, hmembers, hm⟩ := launch_members s id w inputs secrets
  exact ⟨m, by rw [hmembers, List.getElem?_concat_length], hm⟩

theorem advance_getElem? (h : ∃ m, s.members[i]? = some m ∧ m.LoggedAs id) (horizon : Option Nat) :
    ∃ m, (s.advance horizon).members[i]? = some m ∧ m.LoggedAs id := by
  obtain ⟨m, hm, hlogged⟩ := h
  have hmembers : (s.advance horizon).members = s.members.map (Member.onRun (Run.advance s.engine horizon)) := rfl
  exact ⟨_, by rw [hmembers, List.getElem?_map, hm]; rfl, hlogged.onRun fun r hr => hr.advance horizon⟩

end

end Session

end Flowgraph
