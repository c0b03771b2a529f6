import Flowgraph.Decimal.Nearest
import Flowgraph.Text.Blank
import Flowgraph.Text.Digit
import Flowgraph.Text.LetterCase

/-! Numbers read from text. Blanks around the number are ignored, digits of every script count,
and a single low line may stand between two digits. -/

namespace Flowgraph.Decimal

open Flowgraph.Text

/-- The decimal value of digits, most significant first. -/
def ofDigits (ds : List Nat) : Nat :=
  ds.foldl (fun acc d => 10 * acc + d) 0

def startsWithDigit : List Char → Bool
  | [] => false
  | c :: _ => isDecimal c

/-- The digits at the front; a low line is passed over when a digit follows it. -/
def spanDigits : List Char → List Nat × List Char
  | [] => ([], [])
  | c :: rest =>
    match decimalValue? c with
    | some d =>
      let (ds, tail) := spanDigits rest
      (d :: ds, tail)
    | none => if c = '_' && startsWithDigit rest then spanDigits rest else ([], c :: rest)

/-- Digits with single low lines between them; at least one digit. -/
def readDigits (cs : List Char) : Option (List Nat × List Char) :=
  if startsWithDigit cs then some (spanDigits cs) else none

def readSign (cs : List Char) : Bool × List Char :=
  match cs with
  | '-' :: rest => (true, rest)
  | '+' :: rest => (false, rest)
  | _ => (false, cs)

/-- More digits than this are refused. -/
def digitLimit : Nat := 4300

inductive IntegerError where
  | malformed
  | tooLong (count : Nat)

/-- A whole number in base ten. -/
def readInteger (cs : List Char) : Except IntegerError Int :=
  let (negative, body) := readSign (trimChars cs)
  match readDigits body with
  | some (ds, []) =>
    if ds.length > digitLimit then .error (.tooLong ds.length)
    else .ok (if negative then -(ofDigits ds : Int) else ofDigits ds)
  | _ => .error .malformed

/-- The nearest floating-point number to `mantissa * 10 ^ exponent`. -/
def toFloat (mantissa : Nat) (exponent : Int) : Float :=
  let size : Int := ((Nat.toDigits 10 mantissa).length : Int) + exponent
  if mantissa = 0 then 0
  else if size > 400 then 1.0 / 0.0
  else if size < -400 then 0
  else if exponent < 0 then nearest mantissa (Nat.pow 10 exponent.natAbs)
  else nearest (mantissa * Nat.pow 10 exponent.natAbs) 1

/-- An exponent mark, its sign and digits; zero when no mark follows. -/
def readExponent (cs : List Char) : Option (Int × List Char) :=
  match cs with
  | 'e' :: rest | 'E' :: rest =>
    let (negative, body) := readSign rest
    match readDigits body with
    | some (ds, tail) => some (if negative then -(ofDigits ds : Int) else ofDigits ds, tail)
    | none => none
  | _ => some (0, cs)

/-- Digits with an optional point and exponent. -/
def readDecimal (cs : List Char) : Option (Float × List Char) :=
  let (whole, afterWhole) := (readDigits cs).getD ([], cs)
  let (fraction, afterFraction) :=
    match afterWhole with
    | '.' :: rest => (readDigits rest).getD ([], rest)
    | _ => ([], afterWhole)
  if whole.isEmpty && fraction.isEmpty then none
  else
    match readExponent afterFraction with
    | some (e, tail) => some (toFloat (ofDigits (whole ++ fraction)) (e - fraction.length), tail)
    | none => none

def infinity : Float := 1.0 / 0.0

def notANumber : Float := 0.0 / 0.0

/-- A floating-point number, infinity or not-a-number. -/
def readFloat (cs : List Char) : Option Float :=
  let (negative, body) := readSign (trimChars cs)
  let word := String.ofList (body.map Char.toLower)
  let signed (x : Float) := if negative then -x else x
  if word = "inf" || word = "infinity" then some (signed infinity)
  else if word = "nan" then some (signed notANumber)
  else
    match readDecimal body with
    | some (x, []) => some (signed x)
    | _ => none

end Flowgraph.Decimal
