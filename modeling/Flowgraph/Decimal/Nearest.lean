import Flowgraph.Decimal.Shortest

/-! The floating-point number nearest to a ratio of whole numbers. Of two equally near ones
the one with the even mantissa is taken; a ratio out of range becomes infinite. -/

namespace Flowgraph.Decimal

/-- `n / 2 ^ bits` to the nearest whole number, a half going to the even neighbour; `inexact`
says that the value lies a little above `n`. -/
def roundBits (n bits : Nat) (inexact : Bool) : Nat :=
  let kept := n / Nat.pow 2 bits
  let rest := 2 * (n % Nat.pow 2 bits)
  let unit := Nat.pow 2 bits
  if bits = 0 then kept
  else if rest > unit then kept + 1
  else if rest < unit then kept
  else if inexact then kept + 1
  else if kept % 2 = 0 then kept else kept + 1

/-- A quotient of at least 64 bits with its scale: the ratio is about `quotient / 2 ^ scale`. -/
def wideQuotient (numerator denominator : Nat) : Nat × Int × Bool :=
  let scale : Int := 65 - ((Nat.log2 numerator : Int) - Nat.log2 denominator)
  let n := if 0 ≤ scale then numerator * Nat.pow 2 scale.toNat else numerator
  let d := if 0 ≤ scale then denominator else denominator * Nat.pow 2 (-scale).toNat
  (n / d, scale, n % d ≠ 0)

/-- The floating-point number `mantissa * 2 ^ exponent`, written out in bits: the mantissa has at most 53 of
them, fewer only above the least exponent. What is too large becomes infinite. -/
def assemble (mantissa : Nat) (exponent : Int) : Float :=
  -- a mantissa of 53 bits carries its first one into the field of the exponent
  let bits := (exponent + 1074).toNat * Nat.pow 2 52 + mantissa
  let infinite := 2047 * Nat.pow 2 52
  Float.ofBits (UInt64.ofNat (if bits ≤ infinite then bits else infinite))

def nearest (numerator denominator : Nat) : Float :=
  if numerator = 0 then 0
  else
    let (q, scale, inexact) := wideQuotient numerator denominator
    let top : Int := (Nat.log2 q : Int) - scale
    -- 53 bits of precision, fewer below the least normal number
    let precision : Int := if top + 1075 < 53 then top + 1075 else 53
    let drop : Int := (Nat.log2 q : Int) + 1 - precision
    assemble (roundBits q drop.toNat inexact) (drop - scale)

def nearestInt (n : Int) : Float :=
  if n < 0 then -(nearest n.natAbs 1) else nearest n.natAbs 1

end Flowgraph.Decimal
