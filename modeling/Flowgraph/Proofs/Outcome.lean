import Flowgraph.Fault
import Mathlib.Tactic

/-! Work on a state that can fail. What it has done to the state before it fails stays, and nothing is done
after that. Ids are given out, scopes are written and requests are met by such work. A fault is of the kind that it
was raised as. -/

namespace Flowgraph

section
variable {ε σ α β : Type} {s s' : σ}

theorem run_run_bind (x : ExceptT ε (StateM σ) α) (f : α → ExceptT ε (StateM σ) β) (s : σ) :
    (x >>= f).run.run s =
      match x.run.run s with
      | (.ok a, t) => (f a).run.run t
      | (.error e, t) => (.error e, t) := by
  rw [ExceptT.run_bind, StateT.run_bind]
  rcases x.run.run s with ⟨_ | a, t⟩ <;> rfl

/-- Work comes to an end when all its parts do. -/
theorem run_run_bind_eq_ok {x : ExceptT ε (StateM σ) α} {f : α → ExceptT ε (StateM σ) β} {b : β} :
    (x >>= f).run.run s = (.ok b, s') ↔ ∃ a t, x.run.run s = (.ok a, t) ∧ (f a).run.run t = (.ok b, s') := by
  rw [run_run_bind]
  constructor
  · intro h
    rcases hx : x.run.run s with ⟨_ | a, t⟩
    · rw [hx] at h
      cases h
    · rw [hx] at h
      exact ⟨a, t, rfl, h⟩
  · rintro ⟨a, t, hx, hf⟩
    rw [hx]
    exact hf

end

/-! Faults -/

theorem Fault.kind_addParticular (given : Fields) (f : Fault) (p : Particular) :
    (addParticular given f p).kind = f.kind := by
  unfold addParticular
  split
  · rfl
  · split_ifs <;> rfl

theorem Fault.kind_of (kind : FaultKind) (message : String) (given : Fields) :
    (Fault.of kind message given).kind = kind := by
  suffices h : ∀ (ps : List Particular) (f : Fault), (ps.foldl (addParticular given) f).kind = f.kind from h _ _
  intro ps
  induction ps with
  | nil => exact fun _ => rfl
  | cons p rest ih =>
    intro f
    rw [List.foldl_cons, ih, kind_addParticular]

end Flowgraph
