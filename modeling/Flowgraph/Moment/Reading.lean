import Flowgraph.Decimal.Numeral
import Flowgraph.Moment
import Flowgraph.Number

/-! Moments read from text and from counts of seconds or milliseconds. -/

namespace Flowgraph.Moment

inductive DateFault where
  | tooShort
  | extraCharacters
  | yearCharacter
  | separator
  | monthCharacter
  | dayCharacter
  | monthRange
  | dayRange
  | tooEarly
  | tooLate
  | notFinite
  deriving DecidableEq, Repr

def DateFault.message : DateFault → String
  | tooShort => "input is too short"
  | extraCharacters => "unexpected extra characters at the end of the input"
  | yearCharacter => "invalid character in year"
  | separator => "invalid date separator, expected \x60-\x60"
  | monthCharacter => "invalid character in month"
  | dayCharacter => "invalid character in day"
  | monthRange => "month value is outside expected range of 1-12"
  | dayRange => "day value is outside expected range"
  | tooEarly => "dates before 0000 are not supported as unix timestamps"
  | tooLate => "dates after 9999 are not supported as unix timestamps"
  | notFinite => "NaN values not permitted"

def digit? (c : Char) : Option Int :=
  if c.isDigit then some (c.toNat - 48) else none

/-- A number of exactly the given digits. -/
def digits? (cs : List Char) : Option Int :=
  cs.foldl (fun acc c => do some (10 * (← acc) + (← digit? c))) (some 0)

/-- Year, month and day at the front of a text, and the rest. -/
def readDate (cs : List Char) : Except DateFault (Int × Int × Int × List Char) :=
  match cs with
  | y1 :: y2 :: y3 :: y4 :: s1 :: m1 :: m2 :: s2 :: d1 :: d2 :: rest =>
    match digits? [y1, y2, y3, y4] with
    | none => .error .yearCharacter
    | some year =>
      if s1 ≠ '-' then .error .separator
      else
        match digits? [m1, m2] with
        | none => .error .monthCharacter
        | some month =>
          if s2 ≠ '-' then .error .separator
          else
            match digits? [d1, d2] with
            | none => .error .dayCharacter
            | some day =>
              if month < 1 || 12 < month then .error .monthRange
              else if day < 1 || daysInMonth year month < day then .error .dayRange
              else .ok (year, month, day, rest)
  | _ => .error .tooShort

/-- Two digits below a bound. -/
def readPair (bound : Int) : List Char → Option (Int × List Char)
  | a :: b :: rest =>
    match digits? [a, b] with
    | some n => if n < bound then some (n, rest) else none
    | none => none
  | _ => none

/-- Seconds and microseconds; both may be missing. -/
def readSeconds : List Char → Option (Int × Int × List Char)
  | ':' :: rest => do
    let (seconds, after) ← readPair 60 rest
    match after with
    | '.' :: tail | ',' :: tail =>
      let ds := tail.takeWhile Char.isDigit
      if ds.isEmpty then none
      else
        let six := ds.take 6 ++ List.replicate (6 - ds.length) '0'
        some (seconds, (digits? six).getD 0, tail.dropWhile Char.isDigit)
    | _ => some (seconds, 0, after)
  | cs => some (0, 0, cs)

/-- The distance from universal time at the end of a text. -/
def readZone : List Char → Option (Option Int)
  | [] => some none
  | ['Z'] | ['z'] => some (some 0)
  | sign :: rest =>
    if sign = '+' || sign = '-' || sign = '−' then do
      let (hours, after) ← readPair 24 rest
      let (minutes, tail) ←
        match after with
        | ':' :: tail => readPair 60 tail
        | _ => readPair 60 after
      if tail.isEmpty then
        let seconds := hours * 3600 + minutes * 60
        some (some (if sign = '+' then seconds else -seconds))
      else none
    else none

def readTime (cs : List Char) : Option (Int × Option Int) := do
  let (hour, afterHour) ← readPair 24 cs
  match afterHour with
  | ':' :: rest =>
    let (minute, afterMinute) ← readPair 60 rest
    let (second, micro, tail) ← readSeconds afterMinute
    let zone ← readZone tail
    some (((hour * 60 + minute) * 60 + second) * microsPerSecond + micro, zone)
  | _ => none

def isSeparator (c : Char) : Bool :=
  c = 'T' || c = 't' || c = '_' || c = ' '

/-- A date, a separator and a time. -/
def readDateTime (cs : List Char) : Option Moment :=
  match readDate cs with
  | .ok (year, month, day, sep :: rest) =>
    if isSeparator sep then
      (readTime rest).map fun (micros, zone) => ⟨daysFromCivil year month day * microsPerDay + micros, zone⟩
    else none
  | _ => none

/-- Counts above this are milliseconds, others seconds. -/
def secondsWatershed : Int := 20000000000

/-- A moment of universal time from a count, given in microseconds of its unit. -/
def ofCount (whole : Int) (fraction : Int) : Except DateFault Moment :=
  let micros :=
    if whole.natAbs > secondsWatershed.natAbs then whole * 1000 + fraction.fdiv 1000
    else whole * microsPerSecond + fraction
  if micros < daysFromCivil 0 1 1 * microsPerDay then .error .tooEarly
  else if daysFromCivil 10000 1 1 * microsPerDay ≤ micros then .error .tooLate
  else .ok ⟨micros, some 0⟩

def ofFloat (x : Float) : Except DateFault Moment :=
  match Decimal.floor? x with
  | none => .error (if x < 0 then .tooEarly else if x > 0 then .tooLate else .notFinite)
  | some whole =>
    let part := (x - Decimal.nearestInt whole) * 1000000
    ofCount whole ((Decimal.floor? (part + 0.5)).getD 0)

/-- A count written as text, with or without a fraction. -/
def readCount (cs : List Char) : Option (Except DateFault Moment) :=
  let (negative, body) := Decimal.readSign cs
  let whole := body.takeWhile Char.isDigit
  let n : Int := (digits? whole).getD 0
  let signed := if negative then -n else n
  match whole, body.dropWhile Char.isDigit with
  | [], _ => none
  | _, [] => some (ofCount signed 0)
  | _, '.' :: fraction =>
    if fraction.isEmpty || !fraction.all Char.isDigit then none
    else (Decimal.readFloat cs).map ofFloat
  | _, _ => none

/-- A date and time, a count, or else a date alone, which stands for its first instant. -/
def read (s : String) : Except DateFault Moment :=
  let cs := s.toList
  match readDateTime cs with
  | some m => .ok m
  | none =>
    match readCount cs with
    | some (.ok m) => .ok m
    | _ =>
      match readDate cs with
      | .ok (year, month, day, []) => .ok (atDate year month day)
      | .ok _ => .error .extraCharacters
      | .error e => .error e

end Flowgraph.Moment
