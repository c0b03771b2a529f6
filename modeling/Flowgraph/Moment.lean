import Flowgraph.Decimal.Shortest

/-! Moments of time with microsecond precision, with or without a distance from universal time. -/

namespace Flowgraph

/-- A wall-clock reading in microseconds since the start of 1970; `zone` is its distance from
universal time in seconds, when it is known. -/
structure Moment where
  micros : Int
  zone : Option Int
  deriving DecidableEq, Repr, Inhabited

namespace Moment

/-- Days from the start of 1970 to a date of the Gregorian calendar. -/
def daysFromCivil (year month day : Int) : Int :=
  let y := if month ≤ 2 then year - 1 else year
  let era := y.fdiv 400
  let yearOfEra := y - era * 400
  let shifted := if month > 2 then month - 3 else month + 9
  let dayOfYear := (153 * shifted + 2).fdiv 5 + day - 1
  let dayOfEra := yearOfEra * 365 + yearOfEra.fdiv 4 - yearOfEra.fdiv 100 + dayOfYear
  era * 146097 + dayOfEra - 719468

/-- The date of a day counted from the start of 1970. -/
def civilFromDays (days : Int) : Int × Int × Int :=
  let z := days + 719468
  let era := z.fdiv 146097
  let dayOfEra := z - era * 146097
  let yearOfEra :=
    (dayOfEra - dayOfEra.fdiv 1460 + dayOfEra.fdiv 36524 - dayOfEra.fdiv 146096).fdiv 365
  let dayOfYear := dayOfEra - (365 * yearOfEra + yearOfEra.fdiv 4 - yearOfEra.fdiv 100)
  let shifted := (5 * dayOfYear + 2).fdiv 153
  let day := dayOfYear - (153 * shifted + 2).fdiv 5 + 1
  let month := if shifted < 10 then shifted + 3 else shifted - 9
  let year := yearOfEra + era * 400 + (if month ≤ 2 then 1 else 0)
  (year, month, day)

def microsPerSecond : Int := 1000000

def microsPerDay : Int := 86400 * microsPerSecond

def isLeap (year : Int) : Bool :=
  year % 4 = 0 && (year % 100 ≠ 0 || year % 400 = 0)

def daysInMonth (year month : Int) : Int :=
  if month = 2 then (if isLeap year then 29 else 28)
  else if month = 4 || month = 6 || month = 9 || month = 11 then 30
  else 31

/-- A number padded with zeros on the left. -/
def padded (width : Nat) (n : Int) : String :=
  let ds := Decimal.digitsOf n.natAbs
  String.ofList (List.replicate (width - ds.length) '0' ++ ds)

def zoneText (seconds : Int) : String :=
  if seconds = 0 then "Z"
  else
    let sign := if seconds < 0 then "-" else "+"
    let s : Int := seconds.natAbs
    sign ++ padded 2 (s / 3600) ++ ":" ++ padded 2 (s / 60 % 60)

/-- Date and time with a separator; microseconds only when there are any. -/
def textWith (separator : String) (m : Moment) : String :=
  let day := m.micros.fdiv microsPerDay
  let inDay := m.micros.fmod microsPerDay
  let (year, month, dayOfMonth) := civilFromDays day
  let seconds := inDay / microsPerSecond
  let fraction := inDay % microsPerSecond
  padded 4 year ++ "-" ++ padded 2 month ++ "-" ++ padded 2 dayOfMonth ++ separator
    ++ padded 2 (seconds / 3600) ++ ":" ++ padded 2 (seconds / 60 % 60) ++ ":" ++ padded 2 (seconds % 60)
    ++ (if fraction = 0 then "" else "." ++ padded 6 fraction)
    ++ (m.zone.map zoneText).getD ""

def text (m : Moment) : String :=
  textWith "T" m

def atDate (year month day : Int) : Moment :=
  ⟨daysFromCivil year month day * microsPerDay, none⟩

def later (m : Moment) (micros : Int) : Moment :=
  { m with micros := m.micros + micros }

end Moment

end Flowgraph
