import Flowgraph.Decimal.Numeral
import Flowgraph.Proofs.Decimal.Order

/-! What is read from a text is a number unless the text says that it is not one: a decimal is never too long or too
large to be read as a number, which may be infinite. -/

namespace Flowgraph.Decimal

open Float.Model (UnpackedFloat Format)

/-! Numbers that are put together -/

/-- Up to the bits of infinity everything is a number. -/
theorem ofBits_ne_nan {b : UInt64} (h : b.toNat ≤ 2047 * 2 ^ 52) : Float.ofBits b ≠ Float.nan := by
  rcases h.eq_or_lt with heq | hlt
  · obtain rfl : b = 0x7ff0000000000000 := UInt64.toNat_inj.1 heq
    decide +kernel
  · intro hnan
    have hbits := congrArg (fun x => x.toBits.toNat) hnan
    have hlarge : 2047 * 2 ^ 52 < Float.nan.toBits.toNat := by decide +kernel
    simp only [toBits_ofBits (isNaNBits_of_lt hlt)] at hbits
    omega

theorem assemble_ne_nan (mantissa : Nat) (exponent : Int) : assemble mantissa exponent ≠ Float.nan := by
  refine ofBits_ne_nan ?_
  rw [UInt64.toNat_ofNat']
  refine (Nat.mod_le _ _).trans ?_
  change (if _ ≤ 2047 * 2 ^ 52 then _ else 2047 * 2 ^ 52) ≤ _
  split_ifs with h
  · exact h
  · exact le_rfl

theorem nearest_ne_nan (numerator denominator : Nat) : nearest numerator denominator ≠ Float.nan := by
  unfold nearest
  split_ifs
  · decide +kernel
  · exact assemble_ne_nan _ _

theorem toFloat_ne_nan (mantissa : Nat) (exponent : Int) : toFloat mantissa exponent ≠ Float.nan := by
  unfold toFloat
  dsimp only
  split_ifs
  · decide +kernel
  · decide +kernel
  · decide +kernel
  · exact nearest_ne_nan _ _
  · exact nearest_ne_nan _ _

/-! Signs -/

/-- Only what is not a number is packed as such. -/
theorem pack_ne_packedNaN {u : UnpackedFloat} (h : u ≠ .notANumber) :
    UnpackedFloat.pack Format.binary64 u ≠ UnpackedFloat.packedNaN Format.binary64 := by
  have hinfinity (s : UnpackedFloat.Sign) :
      UnpackedFloat.packedInfinity Format.binary64 s ≠ UnpackedFloat.packedNaN Format.binary64 := by
    cases s <;> decide
  have hones {s : UnpackedFloat.Sign} {exponent : BitVec 11} {mantissa : BitVec 52}
      (heq : UnpackedFloat.packComponents Format.binary64 s exponent mantissa =
        UnpackedFloat.packedNaN Format.binary64) : exponent.toNat = 2047 := by
    have hexponent := congrArg (fun b => (UnpackedFloat.unpackExponent b).toNat) heq
    simp only [UnpackedFloat.packedNaN, UnpackedFloat.unpackExponent_packComponents] at hexponent
    exact hexponent
  fun_cases UnpackedFloat.pack Format.binary64 u with
  | case1 => exact absurd rfl h
  | case2 s => exact hinfinity s
  | case3 s => cases s <;> decide
  | case4 s m e hm => exact hinfinity s
  | case5 s m e hm bits biased hsmall hnormal =>
    intro heq
    have hexponent : biased % 2 ^ 11 = 2047 := (BitVec.toNat_ofNat _ _).symm.trans (hones heq)
    have hbound : ¬ 2 ^ 11 ≤ biased + 1 := hsmall
    omega
  | case6 s m e hm =>
    intro heq
    exact absurd (hones heq) (by decide)

theorem neg_eq_nan {x : Float} : -x = Float.nan ↔ x = Float.nan := by
  constructor
  · intro h
    by_contra hx
    have hunpack : x.toModel.unpack.neg ≠ .notANumber := by
      have hne := mt unpack_eq_notANumber.1 hx
      cases hu : x.toModel.unpack with
      | notANumber => exact absurd hu hne
      | infinity s => nofun
      | zero s => nofun
      | finite s m e hm => nofun
    exact pack_ne_packedNaN hunpack (congrArg (fun y => y.toBits.toBitVec) h)
  · rintro rfl
    decide +kernel

/-! Reading -/

/-- The text says that it is not a number, between blanks, behind any sign and in letters of either case. -/
def SpellsNaN (cs : List Char) : Prop :=
  String.ofList ((readSign (Text.trimChars cs)).2.map Char.toLower) = "nan"

instance (cs : List Char) : Decidable (SpellsNaN cs) :=
  inferInstanceAs (Decidable (_ = _))

theorem readDecimal_ne_nan {cs tail : List Char} {x : Float} (h : readDecimal cs = some (x, tail)) : x ≠ Float.nan := by
  unfold readDecimal at h
  dsimp only at h
  split_ifs at h
  split at h
  · cases h
    exact toFloat_ne_nan _ _
  · cases h

/-- Only a text that says so is read as what is not a number. -/
theorem readFloat_eq_nan {cs : List Char} {x : Float} (h : readFloat cs = some x) : x = Float.nan ↔ SpellsNaN cs := by
  have hsigned (negative : Bool) (y : Float) : (if negative then -y else y) = Float.nan ↔ y = Float.nan := by
    cases negative
    · rfl
    · exact neg_eq_nan
  unfold readFloat at h
  unfold SpellsNaN
  dsimp only at h
  generalize readSign (Text.trimChars cs) = signed at h ⊢
  obtain ⟨negative, body⟩ := signed
  dsimp only at h ⊢
  generalize String.ofList (body.map Char.toLower) = word at h ⊢
  by_cases hinf : word = "inf" ∨ word = "infinity"
  · rw [if_pos (by simpa using hinf)] at h
    obtain rfl := Option.some.inj h
    have hinfinity : infinity ≠ Float.nan := by decide +kernel
    have hword : word ≠ "nan" := by rcases hinf with rfl | rfl <;> decide
    simp only [hsigned, hinfinity, hword]
  · rw [if_neg (by simpa using hinf)] at h
    by_cases hnan : word = "nan"
    · rw [if_pos hnan] at h
      obtain rfl := Option.some.inj h
      have hnotANumber : notANumber = Float.nan := by decide +kernel
      simp only [hsigned, hnotANumber, hnan]
    · rw [if_neg hnan] at h
      split at h
      · next y hy =>
        obtain rfl := Option.some.inj h
        simp only [hsigned, readDecimal_ne_nan hy, hnan]
      · cases h

end Flowgraph.Decimal
