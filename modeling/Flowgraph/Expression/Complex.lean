import Flowgraph.Failure

/-! Complex numbers with floating-point parts. -/

namespace Flowgraph

structure Complex where
  re : Float
  im : Float
  deriving Inhabited

namespace Complex

def one : Complex := ⟨1, 0⟩

def add (a b : Complex) : Complex := ⟨a.re + b.re, a.im + b.im⟩

def sub (a b : Complex) : Complex := ⟨a.re - b.re, a.im - b.im⟩

def neg (a : Complex) : Complex := ⟨-a.re, -a.im⟩

def mul (a b : Complex) : Complex :=
  ⟨a.re * b.re - a.im * b.im, a.re * b.im + a.im * b.re⟩

def isZero (a : Complex) : Bool :=
  a.re == 0 && a.im == 0

/-- Division scaled by the larger part of the divisor. -/
def divide (a b : Complex) : Except Failure Complex :=
  let x := Float.abs b.re
  let y := Float.abs b.im
  if b.isZero then .error ⟨.zeroDivision, "complex division by zero"⟩
  else if x >= y then
    let r := b.im / b.re
    let d := b.re + b.im * r
    .ok ⟨(a.re + a.im * r) / d, (a.im - a.re * r) / d⟩
  else
    let r := b.re / b.im
    let d := b.re * r + b.im
    .ok ⟨(a.re * r + a.im) / d, (a.im * r - a.re) / d⟩

def magnitude (a : Complex) : Float :=
  let x := Float.abs a.re
  let y := Float.abs a.im
  let big := if x < y then y else x
  let small := if x < y then x else y
  if big == 0 then 0 else big * Float.sqrt (1 + (small / big) * (small / big))

/-- A power by repeated squaring; `steps` bounds the number of bits of the exponent. -/
def powNat : Nat → Complex → Nat → Complex → Complex
  | 0, _, _, acc => acc
  | steps + 1, base, n, acc =>
    if n = 0 then acc
    else powNat steps (mul base base) (n / 2) (if n % 2 = 1 then mul acc base else acc)

def powGeneral (a b : Complex) : Except Failure Complex :=
  if b.isZero then .ok one
  else if a.isZero then
    if b.im != 0 || b.re < 0 then .error ⟨.zeroDivision, "0.0 to a negative or complex power"⟩
    else .ok ⟨0, 0⟩
  else
    let size := a.magnitude
    let angle := Float.atan2 a.im a.re
    let length := Float.pow size b.re * (if b.im != 0 then Float.exp (-(angle * b.im)) else 1)
    let phase := angle * b.re + (if b.im != 0 then b.im * Float.log size else 0)
    .ok ⟨length * Float.cos phase, length * Float.sin phase⟩

/-- Small whole exponents are taken by multiplication. -/
def pow (a b : Complex) : Except Failure Complex :=
  if b.im == 0 && b.re == Float.floor b.re && Float.abs b.re <= 100 then
    let n := (Float.abs b.re).toUInt64.toNat
    let p := powNat 8 a n one
    if b.re < 0 then divide one p else .ok p
  else powGeneral a b

end Complex

end Flowgraph
