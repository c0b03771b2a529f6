import Flowgraph.Document.Emit
import Mathlib.Tactic

/-! Fresh names are fresh: where all spellings of a name differ, one of them is free, so that names
given one after the other never repeat. -/

namespace Flowgraph

section
variable {spelling : ℕ → String} {taken : List String}

/-- There is one spelling more than there are taken names. -/
theorem exists_free_spelling (taken : List String) (hinj : Function.Injective spelling) :
    ∃ s ∈ (List.range (taken.length + 1)).map spelling, s ∉ taken := by
  by_contra! hall
  have hnodup : ((List.range (taken.length + 1)).map spelling).Nodup := List.nodup_range.map hinj
  have hle := (List.subperm_of_subset hnodup hall).length_le
  simp only [List.length_map, List.length_range] at hle
  omega

theorem freshName_not_mem (hinj : Function.Injective spelling) : freshName taken spelling ∉ taken := by
  obtain ⟨s, hs, hfree⟩ := exists_free_spelling taken hinj
  unfold freshName
  cases hfound : ((List.range (taken.length + 1)).map spelling).find? fun s => !taken.contains s with
  | none =>
    have := List.find?_eq_none.1 hfound s hs
    simp [hfree] at this
  | some name =>
    have hfree := List.find?_some hfound
    simp only [hfound, Option.getD_some]
    simpa using hfree

def EndsAt (taken : List String) (spelling : ℕ → String) (k : ℕ) : Prop :=
  spelling k ∉ taken ∧ ∀ j < k, spelling j ∈ taken

/-- The search for a name ends, after no more tries in vain than there are taken names. -/
theorem freshName_endsAt (hinj : Function.Injective spelling) :
    ∃ k ≤ taken.length, EndsAt taken spelling k ∧ freshName taken spelling = spelling k := by
  obtain ⟨s, hs, hfree⟩ := exists_free_spelling taken hinj
  obtain ⟨i, hi, rfl⟩ := List.mem_map.1 hs
  have hsome : ∃ k, spelling k ∉ taken := ⟨i, hfree⟩
  have hle : Nat.find hsome ≤ taken.length := by
    have := Nat.find_min' hsome hfree
    have := List.mem_range.1 hi
    omega
  have hbefore : ∀ j < Nat.find hsome, spelling j ∈ taken := fun j hj => not_not.1 (Nat.find_min hsome hj)
  refine ⟨Nat.find hsome, hle, ⟨Nat.find_spec hsome, hbefore⟩, ?_⟩
  have hfind : (List.range (taken.length + 1)).find? ((fun s => !taken.contains s) ∘ spelling) =
      some (Nat.find hsome) := by
    rw [List.find?_range_eq_some]
    refine ⟨?_, List.mem_range.2 (by omega), fun j hj => ?_⟩
    · simpa using Nat.find_spec hsome
    · simpa using hbefore j hj
  unfold freshName
  dsimp only
  rw [List.find?_map, hfind]
  rfl

end

section
variable {α : Type} {spelling : α → ℕ → String}

theorem length_freshNames (things : List α) (taken : List String) :
    (freshNames spelling things taken).length = things.length := by
  induction things generalizing taken with
  | nil => rfl
  | cons a rest ih =>
    unfold freshNames
    simp only [List.length_cons, ih]

/-- What is named later finds the names before it taken. -/
theorem freshNames_append (first second : List α) (taken : List String) :
    freshNames spelling (first ++ second) taken =
      freshNames spelling first taken ++ freshNames spelling second (taken ++ freshNames spelling first taken) := by
  induction first generalizing taken with
  | nil => simp [freshNames]
  | cons a rest ih =>
    rw [List.cons_append, freshNames, freshNames]
    simp [ih]

theorem exists_freshName_eq (taken : List String) (spelling : ℕ → String) :
    ∃ k, freshName taken spelling = spelling k := by
  unfold freshName
  dsimp only
  cases hfound : ((List.range (taken.length + 1)).map spelling).find? fun s => !taken.contains s with
  | none => exact ⟨0, rfl⟩
  | some name =>
    obtain ⟨k, -, rfl⟩ := List.mem_map.1 (List.mem_of_find?_eq_some hfound)
    exact ⟨k, rfl⟩

/-- A fresh name is one of the spellings of what it names. -/
theorem eq_spelling_of_mem_zip {things : List α} {taken : List String} {a : α} {name : String}
    (h : (a, name) ∈ things.zip (freshNames spelling things taken)) : ∃ k, name = spelling a k := by
  induction things generalizing taken with
  | nil => cases h
  | cons b rest ih =>
    unfold freshNames at h
    rcases List.mem_cons.1 h with heq | h
    · cases heq
      exact exists_freshName_eq taken (spelling a)
    · exact ih h

theorem eq_spelling_of_mem_freshNames {things : List α} {taken : List String} {name : String}
    (h : name ∈ freshNames spelling things taken) : ∃ a k, name = spelling a k := by
  induction things generalizing taken with
  | nil => cases h
  | cons a rest ih =>
    unfold freshNames at h
    rcases List.mem_cons.1 h with rfl | h
    · exact ⟨a, exists_freshName_eq taken (spelling a)⟩
    · exact ih h

/-- Each name is fresh among those before it, and so none of them is repeated or was taken. -/
theorem nodup_freshNames (hinj : ∀ a, Function.Injective (spelling a)) (things : List α) (taken : List String) :
    (freshNames spelling things taken).Nodup ∧ ∀ name ∈ freshNames spelling things taken, name ∉ taken := by
  induction things generalizing taken with
  | nil => exact ⟨List.nodup_nil, by simp [freshNames]⟩
  | cons a rest ih =>
    unfold freshNames
    have hnew : freshName taken (spelling a) ∉ taken := freshName_not_mem (hinj a)
    obtain ⟨hnodup, hfree⟩ := ih (taken ++ [freshName taken (spelling a)])
    refine ⟨List.nodup_cons.2 ⟨fun hmem => hfree _ hmem (by simp), hnodup⟩, fun name hname => ?_⟩
    rcases List.mem_cons.1 hname with rfl | hname
    · exact hnew
    · exact fun htaken => hfree name hname (List.mem_append_left _ htaken)

end

/-- The numbers behind a name tell its spellings apart. -/
theorem numbered_injective {name mark : String} (hmark : 0 < mark.length) {number : ℕ → ℕ}
    (hnumber : Function.Injective number) :
    Function.Injective fun k => if k = 0 then name else name ++ mark ++ toString (number k) := by
  have hlonger : ∀ k, name ++ mark ++ toString (number k) ≠ name := by
    intro k h
    have := congrArg String.length h
    simp only [String.length_append] at this
    omega
  intro j k h
  dsimp only at h
  split_ifs at h with hj hk hk
  · exact hj.trans hk.symm
  · exact absurd h.symm (hlonger k)
  · exact absurd h (hlonger j)
  · have hdigits : Nat.toDigits 10 (number j) = Nat.toDigits 10 (number k) := by
      have := congrArg String.toList h
      simpa using this
    refine hnumber ?_
    calc
      number j = Nat.ofDigitChars 10 (Nat.toDigits 10 (number j)) 0 := by
        rw [Nat.ofDigitChars_toDigits] <;> omega
      _ = number k := by rw [hdigits, Nat.ofDigitChars_toDigits] <;> omega

theorem Document.spelling_injective (name : String) : Function.Injective (spelling name) :=
  numbered_injective (by decide) Function.injective_id

end Flowgraph
