import Flowgraph.Decimal.Shortest

/-! How floating-point numbers are written: the shortest digits, positional between 10⁻⁴ and 10¹⁶
with at least one digit after the point, otherwise with a signed exponent of two digits or more. -/

namespace Flowgraph.Decimal

def zeros (n : Nat) : List Char :=
  List.replicate n '0'

def exponentText (e : Int) : List Char :=
  let ds := digitsOf e.natAbs
  'e' :: (if e < 0 then '-' else '+') :: (zeros (2 - ds.length) ++ ds)

def Digits.positional (d : Digits) : List Char :=
  let k := d.digits.length
  if d.point ≤ 0 then ['0', '.'] ++ zeros (-d.point).toNat ++ d.digits
  else
    let p := d.point.toNat
    if k ≤ p then d.digits ++ zeros (p - k) ++ ['.', '0']
    else d.digits.take p ++ ['.'] ++ d.digits.drop p

def Digits.scientific (d : Digits) : List Char :=
  let tail := d.digits.drop 1
  d.digits.take 1 ++ (if tail.isEmpty then [] else '.' :: tail) ++ exponentText (d.point - 1)

/-- Positional from 10⁻⁴ up to 10¹⁶. -/
def Digits.render (d : Digits) : List Char :=
  if -4 < d.point ∧ d.point ≤ 16 then d.positional else d.scientific

def signText (negative : Bool) : List Char :=
  if negative then ['-'] else []

def renderChars (x : Float) : List Char :=
  match classify x with
  | .nan => ['n', 'a', 'n']
  | .infinite negative => signText negative ++ ['i', 'n', 'f']
  | .finite negative b =>
    signText negative ++ (if b.mantissa = 0 then ['0', '.', '0'] else b.shortest.render)

/-- The text of a floating-point number. -/
def render (x : Float) : String :=
  String.ofList (renderChars x)

def isFinite (x : Float) : Bool :=
  match classify x with
  | .finite _ _ => true
  | _ => false

def isNaN (x : Float) : Bool :=
  match classify x with
  | .nan => true
  | _ => false

end Flowgraph.Decimal
