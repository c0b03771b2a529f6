import Flowgraph.Expression.Display

/-! Formats in which data are put into text: fill and alignment, sign, width, grouping of digits,
precision and a letter for the notation. -/

namespace Flowgraph

structure Format where
  fill : Char := ' '
  align : Option Char := none
  sign : Option Char := none
  /-- A zero shows no minus sign. -/
  plainZero : Bool := false
  alternate : Bool := false
  width : Nat := 0
  grouping : Option Char := none
  precision : Option Nat := none
  letter : Option Char := none

namespace Format

def alignments : List Char := ['<', '>', '=', '^']

/-- The fill and the alignment at the front. -/
def readAlign : List Char → Option Char × Option Char × List Char
  | f :: a :: rest =>
    if alignments.contains a then (some f, some a, rest)
    else if alignments.contains f then (none, some f, a :: rest)
    else (none, none, f :: a :: rest)
  | [a] => if alignments.contains a then (none, some a, []) else (none, none, [a])
  | [] => (none, none, [])

def digit? (c : Char) : Bool :=
  '0' ≤ c && c ≤ '9'

def natOf (ds : List Char) : Nat :=
  ds.foldl (fun acc c => 10 * acc + (c.toNat - '0'.toNat)) 0

def readOption (options : List Char) : List Char → Option Char × List Char
  | c :: rest => if options.contains c then (some c, rest) else (none, c :: rest)
  | [] => (none, [])

def readPrecision : List Char → Option (Option Nat × List Char)
  | '.' :: rest =>
    let ds := rest.takeWhile digit?
    if ds.isEmpty then none else some (some (natOf ds), rest.drop ds.length)
  | rest => some (none, rest)

/-- The letters that a mark between groups of digits goes with. -/
def groupedLetters : Char → List Char
  | ',' => ['d', 'e', 'f', 'g', 'E', 'G', '%', 'F']
  | _ => ['d', 'e', 'f', 'g', 'E', 'G', '%', 'F', 'b', 'o', 'x', 'X']

/-- Read a format; none when it is malformed. `numeric` says that a zero before the width fills
after the sign. -/
def read (numeric : Bool) (cs : List Char) : Option Format := do
  let (fill, align, rest) := readAlign cs
  let (sign, rest) := readOption ['+', '-', ' '] rest
  let (plainZero, rest) := readOption ['z'] rest
  let (alternate, rest) := readOption ['#'] rest
  let (zero, rest) := if fill.isNone then readOption ['0'] rest else (none, rest)
  let width := rest.takeWhile digit?
  let (grouping, rest) := readOption [',', '_'] (rest.drop width.length)
  let (precision, rest) ← readPrecision rest
  let f : Format :=
    { fill := (fill <|> zero).getD ' '
      align := if zero.isSome && align.isNone && numeric then some '=' else align
      sign, plainZero := plainZero.isSome, alternate := alternate.isSome, width := natOf width
      grouping, precision }
  match rest with
  | [] => some f
  | [c] =>
    if grouping.all fun m => (groupedLetters m).contains c then some { f with letter := some c } else none
  | _ => none

/-- Fill up to the width. Filling after the sign goes between `front` and `body`. -/
def pad (f : Format) (standard : Char) (front body : List Char) : List Char :=
  let missing := f.width - (front.length + body.length)
  let run (n : Nat) := List.replicate n f.fill
  match f.align.getD standard with
  | '<' => front ++ body ++ run missing
  | '=' => front ++ run missing ++ body
  | '^' => run (missing / 2) ++ front ++ body ++ run (missing - missing / 2)
  | _ => run missing ++ front ++ body

def signOf (f : Format) (negative : Bool) : List Char :=
  if negative then ['-'] else (f.sign.filter (· ≠ '-')).toList

/-- Put a mark between groups of digits, counted from the right. -/
def groupDigits (size : Nat) (mark : Option Char) (ds : List Char) : List Char :=
  match mark with
  | none => ds
  | some m =>
    (ds.zipIdx.map fun (c, i) =>
      if 0 < i && (ds.length - i) % size = 0 then [m, c] else [c]).flatten

/-- Zeros that fill after the sign are digits too: the fewest that make up the width, marks and all.
`others` counts the characters that are not digits. -/
def fillDigits (f : Format) (size others : Nat) (ds : List Char) : List Char :=
  if f.fill = '0' && f.align = some '=' then
    let length (n : Nat) := n + if f.grouping.isSome then (n - 1) / size else 0
    let enough := (List.range (f.width + 1)).find? fun n => ds.length ≤ n && f.width ≤ others + length n
    List.replicate (enough.getD 0 - ds.length) '0' ++ ds
  else ds

def formatText (f : Format) (s : String) : Except Failure (List Char) :=
  let kept := match f.precision with
    | some n => s.toList.take n
    | none => s.toList
  if f.letter.any (· ≠ 's') || f.sign.isSome || f.plainZero || f.alternate || f.grouping.isSome
      || f.align = some '=' then
    Failure.badValue "format not allowed for text"
  else .ok (f.pad '<' [] kept)

def formatInt (f : Format) (n : Int) : Except Failure (List Char) :=
  let sign := signOf f (n < 0)
  let inRadix (radix size : Nat) (mark : List Char) (change : Char → Char) : Except Failure (List Char) :=
    let front := sign ++ if f.alternate then mark else []
    let ds := f.fillDigits size front.length ((Nat.toDigits radix n.natAbs).map change)
    .ok (f.pad '>' front (groupDigits size f.grouping ds))
  if f.precision.isSome || f.plainZero then Failure.badValue "format not allowed for whole numbers"
  else
    match f.letter.getD 'd' with
    | 'd' | 'n' => inRadix 10 3 [] id
    | 'b' => inRadix 2 4 ['0', 'b'] id
    | 'o' => inRadix 8 4 ['0', 'o'] id
    | 'x' => inRadix 16 4 ['0', 'x'] id
    | 'X' => inRadix 16 4 ['0', 'X'] Char.toUpper
    | 'c' =>
      if f.sign.isSome || f.alternate then Failure.badValue "format not allowed for characters"
      else if 0 ≤ n && n.toNat.isValidChar then .ok (f.pad '>' [] [Char.ofNat n.toNat])
      else .error ⟨.overflow, "not a character"⟩
    | _ => Failure.badValue "unknown format letter"

/-- A ratio to the nearest whole number, a half going to the even neighbour. -/
def roundRatio (num den : Nat) : Nat :=
  let q := num / den
  let r := 2 * (num % den)
  if den < r then q + 1 else if r < den then q else q + q % 2

def scaled (num den : Nat) (places : Int) : Nat :=
  if 0 ≤ places then roundRatio (num * Nat.pow 10 places.toNat) den
  else roundRatio num (den * Nat.pow 10 (-places).toNat)

/-- Digits with a fixed number of places after the point. -/
def fixed (num den places : Nat) : List Char × List Char :=
  let ds := Nat.toDigits 10 (scaled num den places)
  let ds := List.replicate (places + 1 - ds.length) '0' ++ ds
  (ds.take (ds.length - places), ds.drop (ds.length - places))

/-- The decimal exponent of a ratio above zero. -/
def exponentOf (num den : Nat) : Int :=
  let guess : Int := ((Nat.toDigits 10 num).length : Int) - (Nat.toDigits 10 den).length
  let atLeast (e : Int) : Bool :=
    if 0 ≤ e then den * Nat.pow 10 e.toNat ≤ num else den ≤ num * Nat.pow 10 (-e).toNat
  if atLeast guess then guess else guess - 1

/-- `count` significant digits and the decimal exponent of the first. -/
def significant (num den count : Nat) : List Char × Int :=
  if num = 0 then (List.replicate count '0', 0)
  else
    let e := exponentOf num den
    let ds := Nat.toDigits 10 (scaled num den ((count : Int) - 1 - e))
    if count < ds.length then (ds.take count, e + 1) else (ds, e)

def dropZeros (ds : List Char) : List Char :=
  (ds.reverse.dropWhile (· = '0')).reverse

def exponentMark (e : Int) : List Char :=
  let ds := Nat.toDigits 10 e.natAbs
  'e' :: (if e < 0 then '-' else '+') :: (List.replicate (2 - ds.length) '0' ++ ds)

def withPoint (alternate : Bool) (fraction : List Char) : List Char :=
  if fraction.isEmpty && !alternate then [] else '.' :: fraction

/-- The digits before the point, and the rest of the number's text. -/
def scientific (alternate : Bool) (num den places : Nat) : List Char × List Char :=
  let (ds, e) := significant num den (places + 1)
  (ds.take 1, withPoint alternate (ds.drop 1) ++ exponentMark e)

def general (alternate keepPoint : Bool) (num den count : Nat) : List Char × List Char :=
  let count := if count = 0 then 1 else count
  let (ds, e) := significant num den count
  let trim (cs : List Char) := if alternate then cs else dropZeros cs
  let limit : Int := if keepPoint then (count : Int) - 1 else count
  if -4 ≤ e && e < limit then
    if e < 0 then (['0'], withPoint alternate (trim (List.replicate (-e - 1).toNat '0' ++ ds)))
    else
      let tail := trim (ds.drop (e.toNat + 1))
      (ds.take (e.toNat + 1), if tail.isEmpty && keepPoint then ['.', '0'] else withPoint alternate tail)
  else (ds.take 1, withPoint alternate (trim (ds.drop 1)) ++ exponentMark e)

def floatParts (f : Format) (num den : Nat) (x : Float) : Option (List Char × List Char) :=
  let places := f.precision.getD 6
  match f.letter with
  | some 'f' | some 'F' => let (a, b) := fixed num den places; some (a, withPoint f.alternate b)
  | some 'e' | some 'E' => some (scientific f.alternate num den places)
  | some 'g' | some 'G' | some 'n' => some (general f.alternate false num den places)
  | some '%' =>
    let (a, b) := fixed num den places
    some (a, withPoint f.alternate b ++ ['%'])
  | none =>
    match f.precision with
    | some p => some (general f.alternate true num den p)
    | none =>
      let cs := Decimal.renderChars (Float.abs x)
      let rest := cs.dropWhile digit?
      some (cs.takeWhile digit?, (if f.alternate && rest.head? ≠ some '.' then ['.'] else []) ++ rest)
  | _ => none

/-- Whether a number's text shows no digit but zero. -/
def showsZero (whole rest : List Char) : Bool :=
  (whole ++ rest.takeWhile (· ≠ 'e')).all fun c => !('1' ≤ c && c ≤ '9')

def isFloatLetter (c : Char) : Bool :=
  ['e', 'E', 'f', 'F', 'g', 'G', '%'].contains c

def formatFloat (f : Format) (x : Float) : Except Failure (List Char) :=
  let x := if f.letter = some '%' then x * 100 else x
  let negative := Decimal.signBit x && !Decimal.isNaN x
  let upper := f.letter.any fun c => c = 'F' || c = 'E' || c = 'G'
  let change (cs : List Char) := if upper then cs.map Char.toUpper else cs
  match Decimal.ratioOf? x with
  | none =>
    let cs := Decimal.renderChars (Float.abs x)
    if !(f.letter.all fun c => c = 'n' || isFloatLetter c) then Failure.badValue "unknown format letter"
    else .ok (f.pad '>' (f.signOf negative) (change cs ++ if f.letter = some '%' then ['%'] else []))
  | some (n, d) =>
    match floatParts f n.natAbs d x with
    | none => Failure.badValue "unknown format letter"
    | some (whole, rest) =>
      let sign := f.signOf (negative && !(f.plainZero && showsZero whole rest))
      let whole := f.fillDigits 3 (sign.length + rest.length) whole
      .ok (f.pad '>' sign (change (groupDigits 3 f.grouping whole ++ rest)))

end Format

/-- A datum in a format; the empty format is the datum's own text. -/
def Datum.format (d : Datum) (spec : String) : Except Failure String :=
  let read (numeric : Bool) : Except Failure Format :=
    match Format.read numeric spec.toList with
    | some f => .ok f
    | .none => Failure.badValue "invalid format"
  if spec = "" then .ok d.display
  else
    match d, d.number? with
    | .text s, _ => do
      let cs ← (← read false).formatText s
      .ok (String.ofList cs)
    | _, some (.float x) => do
      let cs ← (← read true).formatFloat x
      .ok (String.ofList cs)
    | _, some (.int n) => do
      let f ← read true
      let cs ← if f.letter.any Format.isFloatLetter then f.formatFloat (← (Number.int n).toFloat)
        else f.formatInt n
      .ok (String.ofList cs)
    | _, .none => Failure.badType "unsupported format"

end Flowgraph
