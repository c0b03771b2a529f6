import Flowgraph.Number
import Flowgraph.Proofs.Decimal

/-! The order of floating-point numbers. Nothing can be compared with what is not a number: it is neither below a bound
nor within one. So it passes every check that asks for what is too small. -/

namespace Flowgraph

namespace Decimal

open Float.Model (UnpackedFloat Format)
open Float.Model.UnpackedFloat (Sign)

/-! Comparing -/

theorem compare_eq_none {a b : UnpackedFloat} : a.compare b = none ↔ a = .notANumber ∨ b = .notANumber := by
  fun_cases UnpackedFloat.compare a b <;> simp_all

theorem compare_swap (a b : UnpackedFloat) : b.compare a = (a.compare b).map Ordering.swap := by
  have hsign : ∀ s t : Sign, compare t s = (compare s t).swap := by decide
  have hfinite (m₁ m₂ : Nat) (e₁ e₂ : Int) :
      (compare e₂ e₁).then (compare m₂ m₁) = ((compare e₁ e₂).then (compare m₁ m₂)).swap := by
    rw [Ordering.swap_then, Int.compare_swap, Nat.compare_swap]
  rcases a with s | _ | s | ⟨s, m₁, e₁, _⟩ <;> rcases b with t | _ | t | ⟨t, m₂, e₂, _⟩ <;>
    first
    | rfl
    | exact congrArg some (hsign s t)
    | cases s <;> first | rfl | (cases t <;> first | rfl | simp [UnpackedFloat.compare, hfinite m₁ m₂ e₁ e₂])

theorem unpack_eq_notANumber {x : Float} : x.toModel.unpack = .notANumber ↔ x = Float.nan := by
  rw [← UnpackedFloat.isNaN_iff, ← decide_eq_true_iff (p := x = Float.nan), ← Float.isNaN_eq_decide_eq_nan]
  rfl

theorem lt_iff {x y : Float} : x < y ↔ x.toModel.unpack.compare y.toModel.unpack = some .lt :=
  (decide_eq_true_iff (p := x.toModel < y.toModel)).trans beq_iff_eq

/-- A number is within a bound exactly when it is not beyond it, and both are numbers. -/
theorem le_iff {x y : Float} : y ≤ x ↔ ¬ x < y ∧ x ≠ Float.nan ∧ y ≠ Float.nan := by
  have hle : y ≤ x ↔ (y.toModel.unpack.compare x.toModel.unpack).any (·.isLE) = true :=
    decide_eq_true_iff (p := y.toModel ≤ x.toModel)
  have hnone := compare_eq_none (a := x.toModel.unpack) (b := y.toModel.unpack)
  rw [unpack_eq_notANumber, unpack_eq_notANumber] at hnone
  rw [hle, lt_iff, compare_swap, ← not_or, ← hnone]
  rcases UnpackedFloat.compare _ _ with _ | o
  · simp
  · cases o <;> simp

/-! Classes -/

inductive Classified : UnpackedFloat → Class → Prop
  | nan : Classified .notANumber .nan
  | infinite (s : Sign) : Classified (.infinity s) (.infinite (s == .negative))
  | zero (s : Sign) {b : Binary} (h : b.mantissa = 0) : Classified (.zero s) (.finite (s == .negative) b)
  | finite (s : Sign) {m : Nat} {e : Int} {hm : 0 < m} {b : Binary} (h : b.mantissa = m) :
      Classified (.finite s m e hm) (.finite (s == .negative) b)

theorem toNat_unpackSign (b : BitVec 64) :
    (@UnpackedFloat.unpackSign Format.binary64 b).toNat = b.toNat / 2 ^ 63 % 2 := by
  simp [UnpackedFloat.unpackSign, Format.binary64, BitVec.extractLsb, BitVec.extractLsb', Nat.shiftRight_eq_div_pow]

theorem toNat_unpackMantissa (b : BitVec 64) :
    (@UnpackedFloat.unpackMantissa Format.binary64 b).toNat = b.toNat % 2 ^ 52 := by
  simp [UnpackedFloat.unpackMantissa, Format.binary64, BitVec.extractLsb, BitVec.extractLsb']

theorem classified_unpack (b : BitVec 64) :
    Classified (UnpackedFloat.unpack Format.binary64 b) (classifyBits b.toNat) := by
  have hsign : decide (b.toNat / Nat.pow 2 63 % 2 = 1) =
      (Sign.ofBitVec (@UnpackedFloat.unpackSign Format.binary64 b) == .negative) := by
    have hbit : ∀ v : BitVec 1, decide (v.toNat = 1) = (Sign.ofBitVec v == .negative) := by decide
    rw [← hbit, toNat_unpackSign]
    rfl
  have hones : @UnpackedFloat.unpackExponent Format.binary64 b = -1#_ ↔
      b.toNat / Nat.pow 2 52 % Nat.pow 2 11 = 2047 := by
    rw [← BitVec.toNat_inj, toNat_unpackExponent]
    rfl
  have hzeros : @UnpackedFloat.unpackExponent Format.binary64 b = 0#_ ↔
      b.toNat / Nat.pow 2 52 % Nat.pow 2 11 = 0 := by
    rw [← BitVec.toNat_inj, toNat_unpackExponent]
    rfl
  have hnone : @UnpackedFloat.unpackMantissa Format.binary64 b = 0#_ ↔ b.toNat % Nat.pow 2 52 = 0 := by
    rw [← BitVec.toNat_inj, toNat_unpackMantissa]
    rfl
  unfold classifyBits
  dsimp only
  rw [hsign]
  -- as in `classifyBits`, the exponent decides first, and then whether there is a fraction
  fun_cases UnpackedFloat.unpack Format.binary64 b with
  | case1 mantissa exponent _ _ hone hfraction =>
    rw [if_pos (hones.1 hone), if_pos (hnone.1 hfraction)]
    exact .infinite _
  | case2 mantissa exponent hone hfraction =>
    rw [if_pos (hones.1 hone), if_neg (mt hnone.2 hfraction)]
    exact .nan
  | case3 mantissa exponent _ _ hone hzero hfraction =>
    rw [if_neg (mt hones.2 hone), if_pos (hzeros.1 hzero)]
    exact .zero _ (hnone.1 hfraction)
  | case4 mantissa exponent _ _ _ hone hzero hfraction =>
    rw [if_neg (mt hones.2 hone), if_pos (hzeros.1 hzero)]
    exact .finite _ (toNat_unpackMantissa b).symm
  | case5 mantissa exponent _ _ _ hone hzero =>
    rw [if_neg (mt hones.2 hone), if_neg (mt hzeros.2 hzero)]
    refine .finite _ ?_
    have hor := Nat.two_pow_add_eq_or_of_lt mantissa.isLt (a := 1)
    rw [Nat.mul_one] at hor
    rw [BitVec.toNat_append, BitVec.toNat_ofNat, show 1 % 2 ^ 1 = 1 from rfl, Nat.one_shiftLeft, ← hor,
      toNat_unpackMantissa, Nat.add_comm]
    rfl

theorem classified (x : Float) : Classified x.toModel.unpack (classify x) :=
  classified_unpack x.toBits.toBitVec

theorem unpack_zero : (0 : Float).toModel.unpack = .zero .positive := by
  have hbits : (0 : Float).toBits = 0 := by decide +kernel
  change UnpackedFloat.unpack Format.binary64 (0 : Float).toBits.toBitVec = _
  rw [hbits]
  rfl

theorem ratio_eq_zero {n : Nat} {e : Int} : (ratio n e).1 = 0 ↔ n = 0 := by
  unfold ratio
  split_ifs
  · simp
  · rfl

end Decimal

/-- To be less than the whole number zero is to be below zero. -/
theorem Number.less_zero {x : Float} : less (.float x) (.int 0) = true ↔ x < 0 := by
  have hclass := Decimal.classified x
  rw [less, decide_eq_true_iff, compare?, Decimal.ratioOf?, Decimal.lt_iff, Decimal.unpack_zero]
  revert hclass
  generalize x.toModel.unpack = u
  generalize Decimal.classify x = c
  rintro (_ | s | ⟨s, hb⟩ | ⟨s, hb⟩)
  · simp [Float.Model.UnpackedFloat.compare]
  · cases s <;> simp [Float.Model.UnpackedFloat.compare]
  · next b =>
    have hzero : (Decimal.ratio b.mantissa b.exponent).1 = 0 := Decimal.ratio_eq_zero.2 hb
    cases s <;> simp [Float.Model.UnpackedFloat.compare, hzero]
  · next m e hm b =>
    have hpos : 0 < (Decimal.ratio b.mantissa b.exponent).1 :=
      Nat.pos_of_ne_zero fun h => hm.ne' (hb.symm.trans (Decimal.ratio_eq_zero.1 h))
    cases s <;> simp [Float.Model.UnpackedFloat.compare, compare_lt_iff_lt, hpos]

end Flowgraph
