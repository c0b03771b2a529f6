import Flowgraph.Decimal.Nearest
import Flowgraph.Decimal.Notation
import Flowgraph.Failure

/-! Numbers: unbounded whole ones and floating-point ones. Arithmetic on whole numbers is exact
except for division and negative powers; division rounds down; comparison is by exact value. -/

namespace Flowgraph

inductive Number where
  | int (n : Int)
  | float (x : Float)
  deriving Inhabited

namespace Decimal

/-- The exact value of a finite number as a ratio with positive denominator. -/
def ratioOf? (x : Float) : Option (Int × Nat) :=
  match classify x with
  | .finite negative b =>
    let q := ratio b.mantissa b.exponent
    some (if negative then -(q.1 : Int) else q.1, q.2)
  | _ => none

/-- The whole part, rounded towards zero. -/
def truncate? (x : Float) : Option Int :=
  (ratioOf? x).map fun q => q.1.tdiv q.2

def floor? (x : Float) : Option Int :=
  (ratioOf? x).map fun q => q.1.fdiv q.2

def signBit (x : Float) : Bool :=
  x.toBits.toNat / Nat.pow 2 63 = 1

def copySign (magnitude sign : Float) : Float :=
  if signBit sign then -(Float.abs magnitude) else Float.abs magnitude

/-- The remainder with the sign of the dividend; exact. -/
def remainder (x y : Float) : Float :=
  match classify x, classify y with
  | .finite negative a, .finite _ b =>
    if b.mantissa = 0 then 0.0 / 0.0
    else
      let e := if a.exponent ≤ b.exponent then a.exponent else b.exponent
      let m := a.mantissa * Nat.pow 2 (a.exponent - e).toNat
      let n := b.mantissa * Nat.pow 2 (b.exponent - e).toNat
      let r := Float.scaleB (Float.ofNat (m % n)) e
      if negative then -r else r
  | .finite _ _, .infinite _ => x
  | _, _ => 0.0 / 0.0

/-- Quotient rounded down and remainder with the sign of the divisor; the divisor is not zero. -/
def floorDivMod (x y : Float) : Float × Float :=
  let r := remainder x y
  let q := (x - r) / y
  let opposite := r != 0 && (signBit y != signBit r)
  let r := if r == 0 then copySign 0 y else if opposite then r + y else r
  let q := if opposite then q - 1 else q
  let floored :=
    if q != 0 then
      let f := Float.floor q
      if q - f > 0.5 then f + 1 else f
    else copySign 0 (x / y)
  (floored, r)

end Decimal

namespace Number

def tooLarge : Failure :=
  ⟨.overflow, "int too large to convert to float"⟩

def outOfRange : Failure :=
  ⟨.overflow, "(34, 'Numerical result out of range')"⟩

def divisionByZero (message : String) : Failure :=
  ⟨.zeroDivision, message⟩

def toFloat : Number → Except Failure Float
  | float x => .ok x
  | int n =>
    let x := Decimal.nearestInt n
    if Decimal.isFinite x then .ok x else .error tooLarge

def isZero : Number → Bool
  | int n => n = 0
  | float x => x == 0

/-- The order of two numbers by exact value; none when one of them is not a number. -/
def compare? : Number → Number → Option Ordering
  | int a, int b => some (compare a b)
  | float x, float y =>
    if x < y then some .lt else if y < x then some .gt else if x == y then some .eq else none
  | int a, float y =>
    match Decimal.classify y, Decimal.ratioOf? y with
    | _, some (n, d) => some (compare (a * d) n)
    | .infinite negative, none => some (if negative then .gt else .lt)
    | _, none => none
  | float x, int b =>
    match Decimal.classify x, Decimal.ratioOf? x with
    | _, some (n, d) => some (compare n (b * d))
    | .infinite negative, none => some (if negative then .lt else .gt)
    | _, none => none

def less (a b : Number) : Bool :=
  compare? a b = some .lt

def equal (a b : Number) : Bool :=
  compare? a b = some .eq

/-- An operation on whole numbers, or on floating-point ones when one operand is. -/
def lift (onInts : Int → Int → Int) (onFloats : Float → Float → Float) :
    Number → Number → Except Failure Number
  | int a, int b => .ok (int (onInts a b))
  | a, b => do
    let x ← toFloat a
    let y ← toFloat b
    .ok (float (onFloats x y))

def add : Number → Number → Except Failure Number :=
  lift (· + ·) (· + ·)

def sub : Number → Number → Except Failure Number :=
  lift (· - ·) (· - ·)

def mul : Number → Number → Except Failure Number :=
  lift (· * ·) (· * ·)

def neg : Number → Number
  | int n => int (-n)
  | float x => float (-x)

def abs : Number → Number
  | int n => int n.natAbs
  | float x => float (Float.abs x)

/-- Division of whole numbers is rounded once, to the nearest floating-point number. -/
def divide : Number → Number → Except Failure Number
  | int a, int b =>
    if b = 0 then .error (divisionByZero "division by zero")
    else
      let q := Decimal.nearest a.natAbs b.natAbs
      if !Decimal.isFinite q then .error ⟨.overflow, "integer division result too large for a float"⟩
      else .ok (float (if (a < 0) ≠ (b < 0) then -q else q))
  | a, b => do
    let x ← toFloat a
    let y ← toFloat b
    if y == 0 then .error (divisionByZero "float division by zero") else .ok (float (x / y))

def floorDivide : Number → Number → Except Failure Number
  | int a, int b =>
    if b = 0 then .error (divisionByZero "integer division or modulo by zero")
    else .ok (int (a.fdiv b))
  | a, b => do
    let x ← toFloat a
    let y ← toFloat b
    if y == 0 then .error (divisionByZero "float floor division by zero")
    else .ok (float (Decimal.floorDivMod x y).1)

def modulo : Number → Number → Except Failure Number
  | int a, int b =>
    if b = 0 then .error (divisionByZero "integer division or modulo by zero")
    else .ok (int (a.fmod b))
  | a, b => do
    let x ← toFloat a
    let y ← toFloat b
    if y == 0 then .error (divisionByZero "float modulo") else .ok (float (Decimal.floorDivMod x y).2)

/-- Whether a power is out of range already for the whole powers of two below its base and its exponent. -/
def powExceeds (x y : Float) : Bool :=
  match Decimal.classify x, Decimal.floor? y with
  | .finite _ b, some n =>
    let k := (Nat.log2 b.mantissa : Int) + b.exponent
    b.mantissa ≠ 0 && 0 < k && 1024 ≤ k * n
  | _, _ => false

/-- A power of floating-point numbers with a real result. -/
def powFloat (x y : Float) : Except Failure Number :=
  if x == 0 && y < 0 then
    .error (divisionByZero "0.0 cannot be raised to a negative power")
  else if y == 0 then .ok (float 1)
  else if y == 1 then .ok (float x)
  else if powExceeds x y then .error outOfRange
  else
    let r := Float.pow x y
    if !Decimal.isFinite r && Decimal.isFinite x && Decimal.isFinite y then .error outOfRange
    else .ok (float r)

def pow : Number → Number → Except Failure Number
  | int a, int b =>
    if 0 ≤ b then .ok (int (a.pow b.toNat))
    else do powFloat (← toFloat (int a)) (← toFloat (int b))
  | a, b => do powFloat (← toFloat a) (← toFloat b)

/-- The whole part, rounded towards zero. -/
def truncate : Number → Except Failure Int
  | int n => .ok n
  | float x =>
    match Decimal.truncate? x with
    | some n => .ok n
    | none =>
      if Decimal.isNaN x then Failure.badValue "cannot convert float NaN to integer"
      else .error ⟨.overflow, "cannot convert float infinity to integer"⟩

def min (a b : Number) : Number :=
  if less b a then b else a

def literal : Number → String
  | int n => toString n
  | float x => Decimal.render x

end Number

end Flowgraph
