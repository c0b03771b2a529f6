/-! Shortest decimals of binary floating-point numbers. A finite number is `mantissa * 2 ^ exponent`;
its decimal has the fewest digits among those that read back as the same number, and among
these it is the nearest. -/

namespace Flowgraph.Decimal

/-- A finite magnitude `mantissa * 2 ^ exponent`. -/
structure Binary where
  mantissa : Nat
  exponent : Int
  /-- The lower neighbour is half as far as the upper one. -/
  narrow : Bool
  deriving Repr, DecidableEq

/-- The classes of a floating-point number. -/
inductive Class where
  | nan
  | infinite (negative : Bool)
  | finite (negative : Bool) (magnitude : Binary)
  deriving Repr, DecidableEq

def classifyBits (bits : Nat) : Class :=
  let negative : Bool := bits / Nat.pow 2 63 % 2 = 1
  let field : Nat := bits / Nat.pow 2 52 % Nat.pow 2 11
  let fraction : Nat := bits % Nat.pow 2 52
  if field = 2047 then
    if fraction = 0 then .infinite negative else .nan
  else if field = 0 then .finite negative ⟨fraction, -1074, false⟩
  else .finite negative ⟨fraction + Nat.pow 2 52, (field : Int) - 1075, fraction = 0 && field ≠ 1⟩

def classify (x : Float) : Class :=
  classifyBits x.toBits.toNat

/-- `numerator / denominator` of `n * 2 ^ e`. -/
def ratio (n : Nat) (e : Int) : Nat × Nat :=
  if 0 ≤ e then (n * Nat.pow 2 e.toNat, 1) else (n, Nat.pow 2 (-e).toNat)

def lessEq (a b : Nat × Nat) : Bool :=
  a.1 * b.2 ≤ b.1 * a.2

def less (a b : Nat × Nat) : Bool :=
  a.1 * b.2 < b.1 * a.2

/-- `digits * 10 ^ power` as a ratio. -/
def scaled (digits : Nat) (power : Int) : Nat × Nat :=
  if 0 ≤ power then (digits * Nat.pow 10 power.toNat, 1) else (digits, Nat.pow 10 (-power).toNat)

namespace Binary

/-- The value itself and the ends of the interval of reals that round to it, in quarters of a unit. -/
def value (b : Binary) : Nat × Nat :=
  ratio (4 * b.mantissa) (b.exponent - 2)

def lower (b : Binary) : Nat × Nat :=
  ratio (4 * b.mantissa - (if b.narrow then 1 else 2)) (b.exponent - 2)

def upper (b : Binary) : Nat × Nat :=
  ratio (4 * b.mantissa + 2) (b.exponent - 2)

/-- Whether a decimal reads back as this number: ends count when the mantissa is even. -/
def reads (b : Binary) (q : Nat × Nat) : Bool :=
  if b.mantissa % 2 = 0 then lessEq b.lower q && lessEq q b.upper
  else less b.lower q && less q b.upper

/-- The least power of ten above the value, by search from an estimate. -/
def magnitudeFrom (v : Nat × Nat) (power : Int) : Nat → Int
  | 0 => power
  | fuel + 1 =>
    if lessEq (scaled 1 power) v then magnitudeFrom v (power + 1) fuel
    else if less v (scaled 1 (power - 1)) then magnitudeFrom v (power - 1) fuel
    else power

/-- The number of digits before the point (negative when zeros follow it). -/
def magnitude (b : Binary) : Int :=
  let estimate : Int := ((b.exponent + (Nat.log2 b.mantissa : Int)) * 30103) / 100000
  magnitudeFrom b.value estimate 700

/-- The nearer of the two neighbours with `count` digits that read back, if one does. -/
def candidate (b : Binary) (magnitude : Int) (count : Nat) : Option Nat :=
  let power := magnitude - count
  let v := b.value
  -- floor of the value over 10 ^ power
  let low := if 0 ≤ power then v.1 / (v.2 * Nat.pow 10 power.toNat) else v.1 * Nat.pow 10 (-power).toNat / v.2
  let high := low + 1
  match b.reads (scaled low power), b.reads (scaled high power) with
  | false, false => none
  | true, false => some low
  | false, true => some high
  | true, true =>
    -- compare the two distances: value - low against high - value
    let sum := scaled (low + high) power
    let twice := (2 * v.1, v.2)
    if less twice sum then some low
    else if less sum twice then some high
    else if low % 2 = 0 then some low else some high

def firstCandidate (b : Binary) (magnitude : Int) : List Nat → Option (Nat × Nat)
  | [] => none
  | count :: rest =>
    match b.candidate magnitude count with
    | some digits => some (digits, count)
    | none => firstCandidate b magnitude rest

end Binary

/-- `0.d₁d₂… * 10 ^ point`, with no zero digit at either end. -/
structure Digits where
  digits : List Char
  point : Int
  deriving Repr, DecidableEq

def digitsOf (n : Nat) : List Char :=
  Nat.toDigits 10 n

def dropTrailingZeros (ds : List Char) : List Char :=
  (ds.reverse.dropWhile (· = '0')).reverse

/-- The shortest digits of a positive magnitude. -/
def Binary.shortest (b : Binary) : Digits :=
  let m := b.magnitude
  match b.firstCandidate m (List.range 17 |>.map (· + 1)) with
  | none => ⟨['0'], 1⟩
  | some (n, count) =>
    let ds := digitsOf n
    ⟨dropTrailingZeros ds, m + ((ds.length : Int) - count)⟩

end Flowgraph.Decimal
