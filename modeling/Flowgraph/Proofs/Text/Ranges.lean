import Flowgraph.Text.Blank
import Flowgraph.Text.Digit
import Mathlib.Tactic

/-! Membership in ascending ranges. A table of ranges is compared with another one range by range, and what
comes of it holds of all code points. -/

namespace Flowgraph.Text

def Lies (rs : List (Nat × Nat)) (n : Nat) : Prop :=
  ∃ r ∈ rs, r.1 ≤ n ∧ n ≤ r.2

def apart (rs ss : List (Nat × Nat)) : Bool :=
  rs.all fun r => ss.all fun s => r.2 < s.1 || s.2 < r.1

variable {rs ss : List (Nat × Nat)} {n : Nat}

theorem lies_of_inRanges (h : inRanges rs n = true) : Lies rs n := by
  induction rs with
  | nil => cases h
  | cons r rest ih =>
    unfold inRanges at h
    split_ifs at h with hlow hhigh
    · exact ⟨r, List.mem_cons_self, not_lt.1 hlow, hhigh⟩
    · obtain ⟨s, hs, hn⟩ := ih h
      exact ⟨s, List.mem_cons_of_mem r hs, hn⟩

theorem not_inRanges_of_apart (h : apart rs ss = true) (hn : inRanges rs n = true) : inRanges ss n = false := by
  by_contra hss
  obtain ⟨r, hr, hrlow, hrhigh⟩ := lies_of_inRanges hn
  obtain ⟨s, hs, hslow, hshigh⟩ := lies_of_inRanges (Bool.eq_true_of_not_eq_false hss)
  have hapart := List.all_eq_true.1 (List.all_eq_true.1 h r hr) s hs
  rw [Bool.or_eq_true, decide_eq_true_eq, decide_eq_true_eq] at hapart
  omega

/-- A decimal digit has a value. -/
theorem isSome_decimalValueIn (rs : List (Nat × Nat)) (n : Nat) : (decimalValueIn rs n).isSome = inRanges rs n := by
  induction rs with
  | nil => rfl
  | cons r rest ih =>
    unfold decimalValueIn inRanges
    split_ifs
    · rfl
    · rfl
    · exact ih

theorem isSome_decimalValue? (c : Char) : (decimalValue? c).isSome = isDecimal c :=
  isSome_decimalValueIn decimalRanges c.toNat

theorem not_isBlank_of_isDigit {c : Char} (h : isDigit c = true) : isBlank c = false :=
  not_inRanges_of_apart (by decide +kernel : apart digitRanges blankRanges = true) h

end Flowgraph.Text
