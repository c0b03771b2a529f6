import Flowgraph.Decimal.Nearest
import Flowgraph.Decimal.Notation
import Mathlib

/-! Floating-point numbers. One that is put together from bits has these bits, unless they spell something that is
not a number. The shortest digits of a number that is not zero are not zero. -/

namespace Flowgraph.Decimal

open Float.Model (UnpackedFloat Format)

/-! Bits -/

theorem toBits_ofBits {b : UInt64} (h : @UnpackedFloat.isNaNBits Format.binary64 b.toBitVec = false) :
    (Float.ofBits b).toBits = b := by
  change UInt64.ofBitVec (UnpackedFloat.pack Format.binary64 (UnpackedFloat.unpack Format.binary64 b.toBitVec)) = b
  rw [UnpackedFloat.pack_unpack, h]
  rfl

theorem toNat_unpackExponent (b : BitVec 64) :
    (@UnpackedFloat.unpackExponent Format.binary64 b).toNat = b.toNat / 2 ^ 52 % 2 ^ 11 := by
  simp [UnpackedFloat.unpackExponent, Format.binary64, BitVec.extractLsb, BitVec.extractLsb', Nat.shiftRight_eq_div_pow]

/-- Below the bits of infinity everything is a number. -/
theorem isNaNBits_of_lt {b : UInt64} (h : b.toNat < 2047 * 2 ^ 52) :
    @UnpackedFloat.isNaNBits Format.binary64 b.toBitVec = false := by
  rw [UnpackedFloat.isNaNBits, decide_eq_false_iff_not]
  rintro ⟨hones, -⟩
  have hfield : b.toNat / 2 ^ 52 % 2 ^ 11 = 2047 := by
    rw [← UInt64.toNat_toBitVec, ← toNat_unpackExponent, hones]
    rfl
  omega

/-! Shortest digits -/

theorem scaled_zero (power : Int) : (scaled 0 power).1 = 0 ∧ 0 < (scaled 0 power).2 := by
  unfold scaled
  split_ifs
  · simp
  · exact ⟨rfl, Nat.pow_pos (by decide)⟩

theorem Binary.lower_pos {b : Binary} (hb : b.mantissa ≠ 0) : 0 < b.lower.1 := by
  have hpos : 0 < 4 * b.mantissa - (if b.narrow then 1 else 2) := by
    split_ifs <;> omega
  unfold lower ratio
  generalize 4 * b.mantissa - (if b.narrow then 1 else 2) = low at hpos
  split_ifs
  · exact Nat.mul_pos hpos (Nat.pow_pos (by decide))
  · exact hpos

/-- Zero does not read back as a number that is not zero. -/
theorem Binary.reads_zero {b : Binary} (hb : b.mantissa ≠ 0) (power : Int) : b.reads (scaled 0 power) = false := by
  obtain ⟨hzero, hpos⟩ := scaled_zero power
  have hlower := Nat.mul_pos (lower_pos hb) hpos
  have hlessEq : lessEq b.lower (scaled 0 power) = false := by
    rw [lessEq, hzero, Nat.zero_mul]
    exact decide_eq_false (Nat.not_le.2 hlower)
  have hless : less b.lower (scaled 0 power) = false := by
    simp [less, hzero]
  unfold reads
  simp [hlessEq, hless]

theorem Binary.candidate_ne_zero {b : Binary} (hb : b.mantissa ≠ 0) {magnitude : Int} {count n : Nat}
    (h : b.candidate magnitude count = some n) : n ≠ 0 := by
  have hzero := reads_zero hb (magnitude - count)
  unfold candidate at h
  dsimp only at h
  generalize (if 0 ≤ magnitude - count then _ else _ : Nat) = low at h
  split at h
  · cases h
  · next hlow _ =>
    cases h
    rintro rfl
    rw [hzero] at hlow
    cases hlow
  · cases h
    omega
  · next hlow _ =>
    have hne : low ≠ 0 := by
      rintro rfl
      rw [hzero] at hlow
      cases hlow
    split_ifs at h <;> cases h <;> omega

theorem Binary.firstCandidate_ne_zero {b : Binary} (hb : b.mantissa ≠ 0) {magnitude : Int} {counts : List Nat}
    {n count : Nat} (h : b.firstCandidate magnitude counts = some (n, count)) : n ≠ 0 := by
  induction counts with
  | nil => cases h
  | cons k rest ih =>
    unfold firstCandidate at h
    split at h
    · next hcandidate =>
      cases h
      exact candidate_ne_zero hb hcandidate
    · exact ih h

theorem exists_digit_ne_zero {n : Nat} (h : n ≠ 0) : ∃ c ∈ digitsOf n, c ≠ '0' := by
  have hdigit : ∀ d < 10, d ≠ 0 → d.digitChar ≠ '0' := by decide
  unfold digitsOf
  induction n using Nat.strongRecOn with
  | _ n ih =>
    rw [Nat.toDigits_eq_if (by decide)]
    split_ifs with hn
    · exact ⟨_, List.mem_singleton_self _, hdigit n hn h⟩
    · obtain ⟨c, hc, hne⟩ := ih (n / 10) (by omega) (by omega)
      exact ⟨c, List.mem_append_left _ hc, hne⟩

theorem dropTrailingZeros_ne_nil {ds : List Char} (h : ∃ c ∈ ds, c ≠ '0') : dropTrailingZeros ds ≠ [] := by
  obtain ⟨c, hc, hne⟩ := h
  unfold dropTrailingZeros
  rw [Ne, List.reverse_eq_nil_iff, List.dropWhile_eq_nil_iff]
  intro hall
  exact hne (by simpa using hall c (List.mem_reverse.2 hc))

/-- There are shortest digits of a number that is not zero. -/
theorem Binary.shortest_ne_nil {b : Binary} (hb : b.mantissa ≠ 0) : b.shortest.digits ≠ [] := by
  unfold shortest
  dsimp only
  split
  · simp
  · next n count hfirst => exact dropTrailingZeros_ne_nil (exists_digit_ne_zero (firstCandidate_ne_zero hb hfirst))

end Flowgraph.Decimal
