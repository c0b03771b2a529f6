import Flowgraph.Value.Collect
import Mathlib.Tactic

/-! Values that can be taken as tables: objects, sequences of pairs, and whatever counts as false. -/

namespace Flowgraph.Value

def IsPair (v : Value) : Prop :=
  ∃ key value, v.members? = some [key, value] ∧ key.items? = none ∧ key.fields? = none

def IsTabular (v : Value) : Prop :=
  v.truthy = false ∨ v.fields?.isSome = true ∨ ∃ items, v.members? = some items ∧ ∀ item ∈ items, item.IsPair

/-- A failure that says that a value has the wrong form. -/
def FormFailure (f : Failure) : Prop :=
  f.kind = .badType ∨ f.kind = .badValue

theorem addPair_cases (t : Fields) (index : Nat) (v : Value) :
    (v.IsPair ∧ ∃ t', addPair t index v = .ok t') ∨
      (¬ v.IsPair ∧ ∃ f, addPair t index v = .error f ∧ FormFailure f) := by
  unfold addPair
  split
  · next h => exact Or.inr ⟨by simp [IsPair, h], _, rfl, Or.inl rfl⟩
  · next key value h => exact Or.inl ⟨⟨.text key, value, h, rfl, rfl⟩, _, rfl⟩
  · next h => exact Or.inr ⟨by simp [IsPair, h, items?], _, rfl, Or.inl rfl⟩
  · next h => exact Or.inr ⟨by simp [IsPair, h, fields?], _, rfl, Or.inl rfl⟩
  · next key value htext hlist hobject h =>
    refine Or.inl ⟨⟨key, value, h, ?_, ?_⟩, _, rfl⟩
    · cases key <;> first | rfl | exact (hlist _ rfl).elim
    · cases key <;> first | rfl | exact (hobject _ rfl).elim
  · next items htext hlist hobject hpair h =>
    refine Or.inr ⟨?_, _, rfl, Or.inr rfl⟩
    rintro ⟨key, value, hmembers, -, -⟩
    exact hpair key value (Option.some.inj (h.symm.trans hmembers))

theorem pairs_cases (items : List Value) (t : Fields) (index : Nat) :
    ((∀ item ∈ items, item.IsPair) ∧ ∃ t', pairs t index items = .ok t') ∨
      ((¬ ∀ item ∈ items, item.IsPair) ∧ ∃ f, pairs t index items = .error f ∧ FormFailure f) := by
  induction items generalizing t index with
  | nil => exact Or.inl ⟨List.forall_mem_nil _, t, rfl⟩
  | cons v rest ih =>
    unfold pairs
    rw [List.forall_mem_cons]
    rcases addPair_cases t index v with ⟨hv, t', ht⟩ | ⟨hv, f, hf, hform⟩
    · rw [ht]
      rcases ih t' (index + 1) with ⟨hrest, h⟩ | ⟨hrest, h⟩
      · exact Or.inl ⟨⟨hv, hrest⟩, h⟩
      · exact Or.inr ⟨fun h => hrest h.2, h⟩
    · rw [hf]
      exact Or.inr ⟨fun h => hv h.1, f, rfl, hform⟩

/-- What cannot be taken as a table fails to be for its form, and for nothing else. -/
theorem entries_cases (v : Value) :
    (v.IsTabular ∧ ∃ fs, v.entries = .ok fs) ∨ (¬ v.IsTabular ∧ ∃ f, v.entries = .error f ∧ FormFailure f) := by
  unfold entries
  split
  · next fs => exact Or.inl ⟨Or.inr (Or.inl rfl), fs, rfl⟩
  · next hobject =>
    have hfields : v.fields?.isSome = false := by
      cases v <;> first | rfl | exact absurd rfl (hobject _)
    split_ifs with htruthy
    · cases hmembers : v.members? with
      | none =>
        rw [members, hmembers]
        exact Or.inr ⟨by simp [IsTabular, htruthy, hfields, hmembers], _, rfl, Or.inl rfl⟩
      | some items =>
        rw [members, hmembers]
        rcases pairs_cases items [] 0 with ⟨hitems, h⟩ | ⟨hitems, h⟩
        · exact Or.inl ⟨Or.inr (Or.inr ⟨items, hmembers, hitems⟩), h⟩
        · exact Or.inr ⟨by simpa [IsTabular, htruthy, hfields, hmembers] using hitems, h⟩
    · exact Or.inl ⟨Or.inl (by simpa using htruthy), [], rfl⟩

theorem entries_eq_error {v : Value} {f : Failure} (h : v.entries = .error f) : ¬ v.IsTabular ∧ FormFailure f := by
  rcases entries_cases v with ⟨-, fs, hfs⟩ | ⟨hv, g, hg, hform⟩
  · cases hfs.symm.trans h
  · cases hg.symm.trans h
    exact ⟨hv, hform⟩

theorem exists_error_of_not_tabular {v : Value} (h : ¬ v.IsTabular) : ∃ f, v.entries = .error f := by
  rcases entries_cases v with ⟨hv, -⟩ | ⟨-, f, hf, -⟩
  · exact absurd hv h
  · exact ⟨f, hf⟩

end Flowgraph.Value
