import Mathlib.Tactic

/-! Work that gives a result or fails. What is done in turn has a result if each part of it has one, and fails if
one of its parts does. -/

namespace Flowgraph

/-! Results -/

theorem bind_eq_ok {ε α β : Type} {x : Except ε α} {f : α → Except ε β} {b : β} :
    x >>= f = .ok b ↔ ∃ a, x = .ok a ∧ f a = .ok b := by
  constructor
  · intro h
    cases x with
    | error err => cases h
    | ok a => exact ⟨a, rfl, h⟩
  · rintro ⟨a, rfl, h⟩
    exact h

theorem toOption_eq_some {ε α : Type} {x : Except ε α} {a : α} : x.toOption = some a ↔ x = .ok a := by
  cases x <;> simp [Except.toOption]

theorem forall₂_of_mapM {ε α β : Type} {f : α → Except ε β} {items : List α} {results : List β}
    (h : items.mapM f = .ok results) : List.Forall₂ (fun a b => f a = .ok b) items results := by
  induction items generalizing results with
  | nil =>
    obtain rfl : [] = results := Except.ok.inj h
    exact List.Forall₂.nil
  | cons a rest ih =>
    rw [List.mapM_cons] at h
    obtain ⟨b, hb, h⟩ := bind_eq_ok.1 h
    obtain ⟨bs, hbs, h⟩ := bind_eq_ok.1 h
    obtain rfl : b :: bs = results := Except.ok.inj h
    exact List.Forall₂.cons hb (ih hbs)

theorem bind_eq_error {ε α β : Type} {x : Except ε α} {f : α → Except ε β} {err : ε} :
    x >>= f = .error err ↔ x = .error err ∨ ∃ a, x = .ok a ∧ f a = .error err := by
  cases x with
  | error other =>
    change (Except.error other : Except ε β) = .error err ↔ _
    simp
  | ok a =>
    change f a = .error err ↔ _
    simp

/-- Work on a list fails as work on one of its members does. -/
theorem exists_of_mapM_eq_error {ε α β : Type} {f : α → Except ε β} {items : List α} {err : ε}
    (h : items.mapM f = .error err) : ∃ a ∈ items, f a = .error err := by
  induction items with
  | nil => cases h
  | cons a rest ih =>
    rw [List.mapM_cons] at h
    rcases bind_eq_error.1 h with ha | ⟨b, -, h⟩
    · exact ⟨a, List.mem_cons_self, ha⟩
    rcases bind_eq_error.1 h with hrest | ⟨bs, -, h⟩
    · obtain ⟨c, hc, herr⟩ := ih hrest
      exact ⟨c, List.mem_cons_of_mem a hc, herr⟩
    · cases h

/-! Failing -/

/-- There is no result. -/
def Errs {ε α : Type} (x : Except ε α) : Prop :=
  ∃ err, x = .error err

section
variable {ε α β σ : Type}

@[simp] theorem errs_error (err : ε) : Errs (.error err : Except ε α) := ⟨err, rfl⟩

@[simp] theorem not_errs_ok (a : α) : ¬ Errs (.ok a : Except ε α) := by simp [Errs]

@[simp] theorem not_errs_pure (a : α) : ¬ Errs (pure a : Except ε α) := not_errs_ok a

theorem not_errs_iff {x : Except ε α} : ¬ Errs x ↔ ∃ a, x = .ok a := by
  cases x <;> simp

@[simp] theorem errs_map {f : α → β} {x : Except ε α} : Errs (f <$> x) ↔ Errs x := by
  cases x with
  | error err => exact iff_of_true (errs_error err) (errs_error err)
  | ok a => exact iff_of_false (not_errs_ok (f a)) (not_errs_ok a)

theorem errs_bind {x : Except ε α} {f : α → Except ε β} :
    Errs (x >>= f) ↔ Errs x ∨ ∃ a, x = .ok a ∧ Errs (f a) := by
  cases x with
  | error err => exact iff_of_true (errs_error err) (Or.inl (errs_error err))
  | ok a =>
    change Errs (f a) ↔ _
    simp

/-- Work that goes on with a result, and then fails or not whatever the result is. -/
theorem errs_bind_of_ok {x : Except ε α} {f : α → Except ε β} {P : Prop} (h : ∀ a, x = .ok a → (Errs (f a) ↔ P)) :
    Errs (x >>= f) ↔ Errs x ∨ P := by
  cases x with
  | error err => exact iff_of_true (errs_error err) (Or.inl (errs_error err))
  | ok a =>
    change Errs (f a) ↔ _
    simp [h a rfl]

theorem errs_bind_of_forall {x : Except ε α} {f : α → Except ε β} {P : Prop} (h : ∀ a, Errs (f a) ↔ P) :
    Errs (x >>= f) ↔ Errs x ∨ P :=
  errs_bind_of_ok fun a _ => h a

/-- Work that goes on with a result without failing. -/
theorem errs_bind_of_not {x : Except ε α} {f : α → Except ε β} (h : ∀ a, ¬ Errs (f a)) : Errs (x >>= f) ↔ Errs x := by
  rw [errs_bind_of_forall fun a => iff_of_false (h a) id, or_false]

theorem errs_mapM {f : α → Except ε β} {items : List α} : Errs (items.mapM f) ↔ ∃ a ∈ items, Errs (f a) := by
  induction items with
  | nil => exact iff_of_false (not_errs_pure _) (by simp)
  | cons a rest ih =>
    have hrest (b : β) : Errs (rest.mapM f >>= fun bs => pure (b :: bs)) ↔ ∃ a ∈ rest, Errs (f a) := by
      rw [bind_pure_comp, errs_map, ih]
    rw [List.mapM_cons, errs_bind_of_forall hrest]
    simp

/-- Steps of which each fails for reasons of its own, wherever the ones before it have led. -/
theorem errs_foldlM {step : σ → α → Except ε σ} {P : α → Prop} {items : List α}
    (h : ∀ a ∈ items, ∀ s, Errs (step s a) ↔ P a) (s : σ) : Errs (items.foldlM step s) ↔ ∃ a ∈ items, P a := by
  induction items generalizing s with
  | nil => exact iff_of_false (not_errs_pure _) (by simp)
  | cons a rest ih =>
    rw [List.foldlM_cons, errs_bind_of_forall fun t => ih (fun b hb => h b (List.mem_cons_of_mem a hb)) t,
      h a List.mem_cons_self]
    simp

end

end Flowgraph
