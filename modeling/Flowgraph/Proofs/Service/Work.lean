import Flowgraph.Proofs.Outcome
import Flowgraph.Service
import Mathlib.Tactic

/-! What a step of the work on a request does to the service. Most steps look things up, check them or take
ids: they spare the service, whatever comes of them. The others are followed by steps that cannot go wrong, so
they have spared it when a bad end is reached. -/

namespace Flowgraph

namespace Service

/-- The services differ in nothing but the count of the ids that have been given out. -/
def Spares (s s' : Service) : Prop :=
  ∃ count, s' = { s with count }

theorem Spares.refl (s : Service) : s.Spares s :=
  ⟨s.count, rfl⟩

theorem Spares.trans {a b c : Service} (h : a.Spares b) (h' : b.Spares c) : a.Spares c := by
  obtain ⟨n, rfl⟩ := h
  obtain ⟨m, rfl⟩ := h'
  exact ⟨m, rfl⟩

/-- A relation that a service stands in to what becomes of it when it is spared, and that goes on from one
step to the next. -/
class Lasting (R : Service → Service → Prop) : Prop where
  of_spares {s s' : Service} : s.Spares s' → R s s'
  trans {a b c : Service} : R a b → R b c → R a c

instance : Lasting Spares where
  of_spares h := h
  trans := Spares.trans

/-- What becomes of a service stands in a relation to it, whatever comes of the step. -/
def Keeps {α : Type} (R : Service → Service → Prop) (x : StateM Service α) : Prop :=
  ∀ s, R s (x.run s).2

/-- When the step comes to a bad end, the service has been spared. -/
def SparesIf {α : Type} (bad : α → Prop) (x : StateM Service α) : Prop :=
  ∀ s, bad (x.run s).1 → s.Spares (x.run s).2

section
variable {α β : Type} {R : Service → Service → Prop} [Lasting R]

/-! One step after the other -/

theorem run_step (x : StateM Service α) (f : α → StateM Service β) (s : Service) :
    (x >>= f).run s = (f (x.run s).1).run (x.run s).2 := rfl

theorem run_get_step (f : Service → StateM Service β) (s : Service) : (get >>= f).run s = (f s).run s := rfl

theorem keeps_pure (a : α) : Keeps R (pure a) :=
  fun s => Lasting.of_spares (.refl s)

theorem Keeps.bind {x : StateM Service α} {f : α → StateM Service β} (hx : Keeps R x) (hf : ∀ a, Keeps R (f a)) :
    Keeps R (x >>= f) :=
  fun s => Lasting.trans (hx s) (hf _ _)

/-- After a failure there is no further step. -/
theorem Keeps.then {x : Work α} {f : α → Work β} (hx : Keeps R x.run) (hf : ∀ a, Keeps R (f a).run) :
    Keeps R (x >>= f).run := by
  rw [ExceptT.run_bind]
  refine hx.bind fun r => ?_
  cases r with
  | ok a => exact hf a
  | error e => exact keeps_pure _

theorem Keeps.sparesIf {x : StateM Service α} (hx : Keeps Spares x) (bad : α → Prop) : SparesIf bad x :=
  fun s _ => hx s

theorem SparesIf.bind {bad : β → Prop} {x : StateM Service α} {f : α → StateM Service β} (hx : Keeps Spares x)
    (hf : ∀ a, SparesIf bad (f a)) : SparesIf bad (x >>= f) :=
  fun s h => (hx s).trans (hf _ _ h)

theorem SparesIf.then {bad : Except Mishap β → Prop} {x : Work α} {f : α → Work β} (hx : Keeps Spares x.run)
    (hf : ∀ a, SparesIf bad (f a).run) : SparesIf bad (x >>= f).run := by
  rw [ExceptT.run_bind]
  refine SparesIf.bind hx fun r => ?_
  cases r with
  | ok a => exact hf a
  | error e => exact (keeps_pure _).sparesIf bad

/-! Steps that spare the service -/

theorem run_get (s : Service) : (get : Work Service).run.run s = (.ok s, s) := rfl

theorem run_numbered (x : Numbered α) (s : Service) :
    (numbered x).run.run s = ((x.run s.count).1, { s with count := (x.run s.count).2 }) := rfl

theorem keeps_get : Keeps R (get : StateM Service Service) :=
  fun s => Lasting.of_spares (.refl s)

theorem keeps_run_get : Keeps R (get : Work Service).run :=
  fun s => Lasting.of_spares (.refl s)

theorem keeps_run_pure (a : α) : Keeps R (pure a : Work α).run :=
  fun s => Lasting.of_spares (.refl s)

theorem keeps_orFail (r : Except Mishap α) : Keeps R (orFail r).run :=
  fun s => Lasting.of_spares (.refl s)

theorem keeps_orFault (r : Except Fault α) : Keeps R (orFault r).run := by
  cases r <;> exact fun s => Lasting.of_spares (.refl s)

theorem keeps_numbered (x : Numbered α) : Keeps R (numbered x).run :=
  fun _ => Lasting.of_spares ⟨_, rfl⟩

theorem keeps_consult (f : Store → Except Fault α) : Keeps R (consult f).run :=
  keeps_run_get.then fun s => keeps_orFault (f s.store)

theorem keeps_storedWorkflow (id : String) : Keeps R (storedWorkflow id).run :=
  keeps_run_get.then fun s => keeps_orFail (s.store.workflow id)

/-! Steps that change the store -/

theorem run_change (f : Store → Moment → Except Fault (Store × α)) (s : Service) :
    (change f).run.run s =
      match f s.store s.now with
      | .ok (store, a) => (.ok a, { s with store })
      | .error fault => (.error (.fault fault), s) := by
  unfold change
  rw [run_run_bind, run_get]
  dsimp only
  rw [run_run_bind]
  cases f s.store s.now <;> rfl

theorem run_change_eq_ok {f : Store → Moment → Except Fault (Store × α)} {a : α} {s s' : Service}
    (h : (change f).run.run s = (.ok a, s')) : ∃ store, f s.store s.now = .ok (store, a) ∧ s' = { s with store } := by
  rw [run_change] at h
  split at h
  · next store b heq =>
    obtain ⟨hb, rfl⟩ := Prod.mk.inj h
    exact ⟨store, Except.ok.inj hb ▸ heq, rfl⟩
  · cases h

theorem keeps_change {f : Store → Moment → Except Fault (Store × α)}
    (hf : ∀ (s : Service) store a, f s.store s.now = .ok (store, a) → R s { s with store }) :
    Keeps R (change f).run := by
  intro s
  rw [run_change]
  cases h : f s.store s.now with
  | error fault => exact Lasting.of_spares (.refl s)
  | ok p => exact hf s p.1 p.2 h

/-- A change that fails is not made, and behind one that is made nothing goes wrong. -/
theorem sparesIf_change_then {bad : Except Mishap β → Prop} {f : Store → Moment → Except Fault (Store × α)}
    {k : α → Work β} (hk : ∀ a s, ¬ bad ((k a).run.run s).1) : SparesIf bad (change f >>= k).run := by
  intro s hbad
  rw [run_run_bind, run_change] at hbad ⊢
  cases hf : f s.store s.now with
  | error fault => exact .refl s
  | ok p =>
    rw [hf] at hbad
    exact absurd hbad (hk _ _)

/-! Responses -/

theorem run_answering (doing : String) (work : Work Response) (s : Service) :
    (answering doing work).run s =
      ((match (work.run.run s).1 with
        | .ok r => r
        | .error e => Response.ofMishap s.manual doing s.now e),
       (work.run.run s).2) := by
  unfold answering
  rw [run_get_step, run_step]
  rcases work.run.run s with ⟨_ | r, s'⟩ <;> rfl

omit [Lasting R] in
theorem keeps_answering {doing : String} {work : Work Response} (h : Keeps R work.run) :
    Keeps R (answering doing work) := by
  intro s
  rw [run_answering]
  exact h s

/-- Looking something up for a response spares the service. -/
theorem keeps_answering_consult {doing : String} (f : Store → Except Fault α) (respond : α → Response) :
    Keeps R (answering doing (do pure (respond (← consult f)))) :=
  keeps_answering ((keeps_consult f).then fun _ => keeps_run_pure _)

theorem keeps_withBody {body : Option Value} {read : Option Value → Reading α} {go : α → StateM Service Response}
    (h : ∀ a, Keeps R (go a)) : Keeps R (withBody body read go) := by
  unfold withBody
  cases read body with
  | accepted a => exact h a
  | rejected issues => exact keeps_pure _

end

end Service

end Flowgraph
