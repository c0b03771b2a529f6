import Flowgraph.Table
import Mathlib.Tactic

/-! The entries of tables: what is written is there, and what is there has been written. -/

namespace Flowgraph.Table

variable {α : Type}

theorem mem_of_get? {t : Table α} {key : String} {value : α} (h : t.get? key = some value) :
    (key, value) ∈ t := by
  induction t with
  | nil => cases h
  | cons entry rest ih =>
    unfold get? at h
    split_ifs at h with hk
    · obtain rfl := Option.some.inj h
      exact hk ▸ List.mem_cons_self
    · exact List.mem_cons_of_mem entry (ih h)

theorem exists_get?_of_mem {t : Table α} {key : String} (h : key ∈ t.keys) : ∃ value, t.get? key = some value := by
  induction t with
  | nil => cases h
  | cons entry rest ih =>
    unfold get?
    split_ifs with hkey
    · exact ⟨_, rfl⟩
    · exact ih ((List.mem_cons.1 h).resolve_left fun heq => hkey heq.symm)

theorem get?_eq_none_of_notMem {t : Table α} {key : String} (h : key ∉ t.keys) : t.get? key = none := by
  induction t with
  | nil => rfl
  | cons entry rest ih =>
    simp only [keys, List.map_cons, List.mem_cons, not_or] at h
    simp only [get?, if_neg (Ne.symm h.1)]
    exact ih h.2

/-- An entry that may be missing stands in front of the others. -/
theorem get?_toList_append (name key : String) (o : Option α) (rest : Table α) :
    get? ((o.map fun value => (name, value)).toList ++ rest) key =
      if name = key then o.or (rest.get? key) else rest.get? key := by
  cases o <;> by_cases h : name = key <;> simp [get?, h]

theorem mem_keys_set {t : Table α} {key k : String} {value : α} :
    k ∈ (t.set key value).keys ↔ k ∈ t.keys ∨ k = key := by
  induction t with
  | nil => simp [set, keys]
  | cons entry rest ih =>
    by_cases h : entry.1 = key
    · simp only [set, h, if_true, keys, List.map_cons, List.mem_cons]
      tauto
    · simp only [keys] at ih
      simp only [set, h, if_false, keys, List.map_cons, List.mem_cons, ih]
      tauto

theorem nodup_keys_set {t : Table α} (h : t.keys.Nodup) (key : String) (value : α) :
    (t.set key value).keys.Nodup := by
  induction t with
  | nil => simp [set, keys]
  | cons entry rest ih =>
    obtain ⟨hentry, hrest⟩ := List.nodup_cons.1 h
    by_cases hk : entry.1 = key
    · rw [set, if_pos hk]
      exact List.nodup_cons.2 ⟨hk ▸ hentry, hrest⟩
    · rw [set, if_neg hk]
      refine List.nodup_cons.2 ⟨fun hmem => ?_, ih hrest⟩
      rcases mem_keys_set.1 hmem with hmem | heq
      · exact hentry hmem
      · exact hk heq

theorem mem_set {t : Table α} {key : String} {value : α} {entry : String × α} (h : entry ∈ t.set key value) :
    entry ∈ t ∨ entry = (key, value) := by
  induction t with
  | nil => exact Or.inr (by simpa [set] using h)
  | cons first rest ih =>
    by_cases hk : first.1 = key
    · rw [set, if_pos hk] at h
      rcases List.mem_cons.1 h with rfl | h
      · exact Or.inr (by rw [hk])
      · exact Or.inl (List.mem_cons_of_mem first h)
    · rw [set, if_neg hk] at h
      rcases List.mem_cons.1 h with rfl | h
      · exact Or.inl List.mem_cons_self
      · exact (ih h).imp_left (List.mem_cons_of_mem first)

theorem contains_set (t : Table α) (key other : String) (a : α) :
    (t.set key a).contains other = (decide (other = key) || t.contains other) := by
  unfold contains
  rw [get?_set]
  by_cases h : other = key <;> simp [h]

theorem contains_merge {t : Table α} (new : Table α) {key : String} (h : t.contains key = true) :
    (t.merge new).contains key = true := by
  unfold merge
  induction new generalizing t with
  | nil => exact h
  | cons entry rest ih =>
    refine ih ?_
    rw [contains_set, h, Bool.or_true]

theorem get?_merge_of_notMem {new : Table α} {key : String} (h : key ∉ new.keys) (t : Table α) :
    (t.merge new).get? key = t.get? key := by
  unfold merge
  induction new generalizing t with
  | nil => rfl
  | cons entry rest ih =>
    obtain ⟨hfirst, hrest⟩ := not_or.1 (List.mem_cons.not.1 h)
    rw [List.foldl_cons, ih hrest, get?_set_ne t entry.2 hfirst]

/-- Entries with distinct keys are all found after they have been written. -/
theorem get?_merge {new : Table α} (h : new.keys.Nodup) (t : Table α) (key : String) :
    (t.merge new).get? key = (new.get? key).or (t.get? key) := by
  induction new generalizing t with
  | nil => rfl
  | cons entry rest ih =>
    obtain ⟨k, v⟩ := entry
    obtain ⟨hk, hrest⟩ := List.nodup_cons.1 h
    have hstep : t.merge ((k, v) :: rest) = (t.set k v).merge rest := rfl
    rw [hstep, ih hrest, get?_set]
    by_cases hkey : key = k
    · subst hkey
      simp [get?, get?_eq_none_of_notMem hk]
    · simp [get?, hkey, Ne.symm hkey]

theorem get?_foldl_erase (keys : List String) (t : Table α) (key : String) :
    (keys.foldl erase t).get? key = if key ∈ keys then none else t.get? key := by
  induction keys generalizing t with
  | nil => simp
  | cons k rest ih =>
    rw [List.foldl_cons, ih]
    by_cases hk : key = k
    · subst hk
      simp [get?_erase_self]
    · simp [get?_erase_ne t hk, hk]

end Flowgraph.Table
