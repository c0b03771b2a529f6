import Flowgraph.Numbering
import Flowgraph.Proofs.Outcome

/-! Numbered work that comes to an end: what it gives at a count, and the count that it leaves. Work
that does one thing after the other gives what its parts give, each at the count that the part before
it leaves. It fails with the first of its parts that does. -/

namespace Flowgraph

namespace Numbered

/-- Begun at one count, the work gives a result and leaves another count. -/
def Gives {α : Type} (x : Numbered α) (count : Nat) (a : α) (count' : Nat) : Prop :=
  x.run count = (.ok a, count')

section
variable {α β : Type} {count count' : Nat} {a b : α}

theorem gives_iff {x : Numbered α} : x.Gives count a count' ↔ x.run count = (.ok a, count') := Iff.rfl

@[simp] theorem gives_pure : Gives (pure a) count b count' ↔ a = b ∧ count = count' := by
  rw [gives_iff, show Numbered.run (pure a) count = (.ok a, count) from rfl, Prod.mk.injEq, Except.ok.injEq]

@[simp] theorem gives_bind {x : Numbered α} {f : α → Numbered β} {b : β} :
    Gives (x >>= f) count b count' ↔ ∃ a k, x.Gives count a k ∧ (f a).Gives k b count' :=
  run_run_bind_eq_ok

@[simp] theorem gives_of {r : Except Mishap α} : Gives (of r) count a count' ↔ r = .ok a ∧ count = count' := by
  rw [gives_iff, show Numbered.run (of r) count = (r, count) from rfl, Prod.mk.injEq]

/-- Begun at a count, the work fails, and this is why. -/
def Fails (x : Numbered α) (count : Nat) (e : Mishap) : Prop :=
  (x.run count).1 = .error e

@[simp] theorem not_fails_pure {e : Mishap} : ¬ Fails (pure a) count e :=
  nofun

@[simp] theorem fails_bind {x : Numbered α} {f : α → Numbered β} {e : Mishap} :
    Fails (x >>= f) count e ↔ x.Fails count e ∨ ∃ a k, x.Gives count a k ∧ (f a).Fails k e := by
  rw [Fails, show (x >>= f).run count = _ from run_run_bind x f count]
  rcases hx : x.run count with ⟨c | a, k⟩ <;> rw [Numbered.run] at hx <;>
    simp [Fails, Gives, Numbered.run, hx]

/-- Work that cannot fail at its end fails where its beginning does. -/
theorem fails_bind_left {x : Numbered α} {f : α → Numbered β} {e : Mishap} (h : ∀ a k, ¬ (f a).Fails k e) :
    Fails (x >>= f) count e ↔ x.Fails count e := by
  rw [fails_bind, or_iff_left]
  rintro ⟨a, k, -, hf⟩
  exact h a k hf

@[simp] theorem fails_map {x : Numbered α} {f : α → β} {e : Mishap} : Fails (f <$> x) count e ↔ x.Fails count e := by
  rw [map_eq_pure_bind, fails_bind_left fun _ _ => not_fails_pure]

@[simp] theorem fails_of {r : Except Mishap α} {e : Mishap} : Fails (of r) count e ↔ r = .error e := Iff.rfl

end

end Numbered

namespace Numbering

def stampedId (kind : String) (n : Nat) : String :=
  kind ++ "-" ++ stamp n

@[simp] theorem gives_stamped {kind id : String} {count count' : Nat} :
    (stamped kind).Gives count id count' ↔ stampedId kind (count + 1) = id ∧ count + 1 = count' := by
  rw [Numbered.gives_iff, show (stamped kind).run count = (.ok (stampedId kind (count + 1)), count + 1) from rfl,
    Prod.mk.injEq, Except.ok.injEq]

@[simp] theorem not_fails_stamped {kind : String} {count : Nat} {e : Mishap} : ¬ (stamped kind).Fails count e :=
  nofun

@[simp] theorem not_fails_fullId {count : Nat} {e : Mishap} : ¬ fullId.Fails count e :=
  nofun

end Numbering

end Flowgraph
