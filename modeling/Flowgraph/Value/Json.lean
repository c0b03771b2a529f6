import Flowgraph.Decimal.Notation
import Flowgraph.Decimal.Numeral
import Flowgraph.Text.Quoted
import Flowgraph.Value

/-! JSON text. Objects keep the order of their fields; a number with a point or an exponent
is a floating-point one. Reading reports the first fault and where it is. -/

namespace Flowgraph.Json

inductive Fault where
  | valueExpected
  | propertyNameExpected
  | colonExpected
  | commaExpected
  | extraData
  | unterminatedString
  | controlCharacter
  | badEscape
  | badUnicodeEscape
  deriving DecidableEq, Repr

def Fault.message : Fault → String
  | valueExpected => "Expecting value"
  | propertyNameExpected => "Expecting property name enclosed in double quotes"
  | colonExpected => "Expecting ':' delimiter"
  | commaExpected => "Expecting ',' delimiter"
  | extraData => "Extra data"
  | unterminatedString => "Unterminated string starting at"
  | controlCharacter => "Invalid control character at"
  | badEscape => "Invalid \\escape"
  | badUnicodeEscape => "Invalid \\uXXXX escape"

/-- A fault, with the number of characters that were still unread. -/
structure Failure where
  fault : Fault
  unread : Nat

def isSpace (c : Char) : Bool :=
  c = ' ' || c = '\t' || c = '\n' || c = '\r'

def skipSpace (cs : List Char) : List Char :=
  cs.dropWhile isSpace

def fail {α : Type} (fault : Fault) (rest : List Char) : Except Failure α :=
  .error ⟨fault, rest.length⟩

def hexValue? (c : Char) : Option Nat :=
  if '0' ≤ c && c ≤ '9' then some (c.toNat - 48)
  else if 'a' ≤ c && c ≤ 'f' then some (c.toNat - 87)
  else if 'A' ≤ c && c ≤ 'F' then some (c.toNat - 55)
  else none

/-- Four hexadecimal digits. -/
def hexFour? : List Char → Option (Nat × List Char)
  | a :: b :: c :: d :: rest => do
    let a ← hexValue? a
    let b ← hexValue? b
    let c ← hexValue? c
    let d ← hexValue? d
    some (((a * 16 + b) * 16 + c) * 16 + d, rest)
  | _ => none

def escapeValue? (c : Char) : Option Char :=
  match c with
  | '"' => some '"'
  | '\\' => some '\\'
  | '/' => some '/'
  | 'b' => some (Char.ofNat 8)
  | 'f' => some (Char.ofNat 12)
  | 'n' => some '\n'
  | 'r' => some '\r'
  | 't' => some '\t'
  | _ => none

/-- A low surrogate escape right behind a high one. -/
def lowSurrogate? : List Char → Option (Nat × List Char)
  | '\\' :: 'u' :: rest =>
    match hexFour? rest with
    | some (n, tail) => if 0xDC00 ≤ n && n ≤ 0xDFFF then some (n, tail) else none
    | none => none
  | _ => none

/-- The body of a string whose opening quote had `opening` characters unread from it on. -/
def readString (opening : Nat) : Nat → List Char → List Char → Except Failure (String × List Char)
  | 0, _, _ => .error ⟨.unterminatedString, opening⟩
  | fuel + 1, acc, cs =>
    match cs with
    | [] => .error ⟨.unterminatedString, opening⟩
    | '"' :: rest => .ok (String.ofList acc.reverse, rest)
    | '\\' :: [] => .error ⟨.unterminatedString, opening⟩
    | '\\' :: 'u' :: rest =>
      match hexFour? rest with
      | none | some (_, []) => fail .badUnicodeEscape ('u' :: rest)
      | some (n, tail) =>
        if 0xD800 ≤ n && n ≤ 0xDBFF then
          match lowSurrogate? tail with
          | some (low, after) =>
            readString opening fuel
              (Char.ofNat (0x10000 + (n - 0xD800) * 0x400 + (low - 0xDC00)) :: acc) after
          | none => readString opening fuel (Char.ofNat 0xFFFD :: acc) tail
        else if 0xDC00 ≤ n && n ≤ 0xDFFF then
          readString opening fuel (Char.ofNat 0xFFFD :: acc) tail
        else readString opening fuel (Char.ofNat n :: acc) tail
    | '\\' :: c :: rest =>
      match escapeValue? c with
      | some e => readString opening fuel (e :: acc) rest
      | none => fail .badEscape cs
    | c :: rest =>
      if c.toNat < 32 then fail .controlCharacter cs else readString opening fuel (c :: acc) rest

def digitRun (cs : List Char) : List Char × List Char :=
  (cs.takeWhile Char.isDigit, cs.dropWhile Char.isDigit)

def digitValues (ds : List Char) : List Nat :=
  ds.map fun c => c.toNat - 48

/-- The digits behind a point, if at least one stands there. -/
def readFraction : List Char → Option (List Char × List Char)
  | '.' :: rest =>
    let (ds, tail) := digitRun rest
    if ds.isEmpty then none else some (ds, tail)
  | _ => none

def readExponent : List Char → Option (Int × List Char)
  | 'e' :: rest | 'E' :: rest =>
    let (negative, body) := Decimal.readSign rest
    let (ds, tail) := digitRun body
    if ds.isEmpty then none
    else
      let n : Int := Decimal.ofDigits (digitValues ds)
      some (if negative then -n else n, tail)
  | _ => none

/-- A number; a leading zero stands alone. -/
def readNumber (cs : List Char) : Option (Value × List Char) :=
  let (negative, body) :=
    match cs with
    | '-' :: rest => (true, rest)
    | _ => (false, cs)
  let (whole, afterWhole) :=
    match body with
    | '0' :: rest => (['0'], rest)
    | _ => digitRun body
  if whole.isEmpty then none
  else
    let (fraction, afterFraction) := (readFraction afterWhole).getD ([], afterWhole)
    match readExponent afterFraction with
    | none =>
      if fraction.isEmpty then
        let n : Int := Decimal.ofDigits (digitValues whole)
        some (.int (if negative then -n else n), afterFraction)
      else
        let x := Decimal.toFloat (Decimal.ofDigits (digitValues (whole ++ fraction))) (-fraction.length)
        some (.float (if negative then -x else x), afterFraction)
    | some (e, tail) =>
      let x := Decimal.toFloat (Decimal.ofDigits (digitValues (whole ++ fraction))) (e - fraction.length)
      some (.float (if negative then -x else x), tail)

def dropWord? (word : String) (cs : List Char) : Option (List Char) :=
  let w := word.toList
  if w.isPrefixOf cs then some (cs.drop w.length) else none

def readWord (cs : List Char) : Option (Value × List Char) :=
  ((dropWord? "null" cs).map fun rest => (Value.null, rest))
    <|> ((dropWord? "true" cs).map fun rest => (Value.bool true, rest))
    <|> ((dropWord? "false" cs).map fun rest => (Value.bool false, rest))
    <|> ((dropWord? "NaN" cs).map fun rest => (Value.float Decimal.notANumber, rest))
    <|> ((dropWord? "Infinity" cs).map fun rest => (Value.float Decimal.infinity, rest))
    <|> ((dropWord? "-Infinity" cs).map fun rest => (Value.float (-Decimal.infinity), rest))

mutual

/-- One value, with no blanks in front. -/
def readValue : Nat → List Char → Except Failure (Value × List Char)
  | 0, cs => fail .valueExpected cs
  | fuel + 1, cs =>
    match cs with
    | '"' :: rest => (readString cs.length (rest.length + 1) [] rest).map fun (s, tail) => (.text s, tail)
    | '[' :: rest =>
      match skipSpace rest with
      | ']' :: tail => .ok (.list [], tail)
      | body => (readItems fuel [] body).map fun (items, tail) => (.list items, tail)
    | '\x7b' :: rest =>
      match skipSpace rest with
      | '\x7d' :: tail => .ok (.object [], tail)
      | body => (readFields fuel [] body).map fun (fields, tail) => (.object fields, tail)
    | _ =>
      match readWord cs <|> readNumber cs with
      | some found => .ok found
      | none => fail .valueExpected cs

def readItems : Nat → List Value → List Char → Except Failure (List Value × List Char)
  | 0, _, cs => fail .valueExpected cs
  | fuel + 1, acc, cs => do
    let (v, after) ← readValue fuel cs
    match skipSpace after with
    | ']' :: tail => .ok ((v :: acc).reverse, tail)
    | ',' :: tail => readItems fuel (v :: acc) (skipSpace tail)
    | other => fail .commaExpected other

def readFields : Nat → Fields → List Char → Except Failure (Fields × List Char)
  | 0, _, cs => fail .valueExpected cs
  | fuel + 1, acc, cs =>
    match cs with
    | '"' :: rest => do
      let (key, afterKey) ← readString cs.length (rest.length + 1) [] rest
      match skipSpace afterKey with
      | ':' :: body =>
        let (v, after) ← readValue fuel (skipSpace body)
        let fields := Table.set acc key v
        match skipSpace after with
        | '\x7d' :: tail => .ok (fields, tail)
        | ',' :: tail => readFields fuel fields (skipSpace tail)
        | other => fail .commaExpected other
      | other => fail .colonExpected other
    | _ => fail .propertyNameExpected cs

end

/-- Where the first fault of a text is, counted in characters from its start. -/
structure Fault.At where
  fault : Fault
  position : Nat

/-- A whole text: one value between blanks. -/
def parse (s : String) : Except Fault.At Value :=
  let cs := s.toList
  let located (f : Failure) : Fault.At := ⟨f.fault, cs.length - f.unread⟩
  match readValue (cs.length + 1) (skipSpace cs) with
  | .error f => .error (located f)
  | .ok (v, rest) =>
    match skipSpace rest with
    | [] => .ok v
    | extra => .error (located ⟨.extraData, extra.length⟩)

/-- Whether characters outside ASCII are escaped, and what stands between parts. -/
structure Style where
  ascii : Bool
  itemGap : String
  keyGap : String

def compact : Style := ⟨false, ",", ":"⟩

def spaced : Style := ⟨true, ", ", ": "⟩

def escapeUnit (n : Nat) : List Char :=
  ['\\', 'u'] ++ Text.hex 4 n

def escapeChar (style : Style) (c : Char) : List Char :=
  if c = '"' then ['\\', '"']
  else if c = '\\' then ['\\', '\\']
  else if c = '\n' then ['\\', 'n']
  else if c = '\r' then ['\\', 'r']
  else if c = '\t' then ['\\', 't']
  else if c.toNat = 8 then ['\\', 'b']
  else if c.toNat = 12 then ['\\', 'f']
  else if c.toNat < 32 then escapeUnit c.toNat
  else if c.toNat < 127 || !style.ascii then [c]
  else if c.toNat < 65536 then escapeUnit c.toNat
  else
    let n := c.toNat - 0x10000
    escapeUnit (0xD800 + n / 0x400) ++ escapeUnit (0xDC00 + n % 0x400)

def renderString (style : Style) (s : String) : String :=
  String.ofList ('"' :: s.toList.flatMap (escapeChar style) ++ ['"'])

def renderFloat (x : Float) : String :=
  if Decimal.isNaN x then "NaN"
  else if Decimal.isFinite x then Decimal.render x
  else if x < 0 then "-Infinity" else "Infinity"

mutual

def renderWith (style : Style) : Value → String
  | .null => "null"
  | .bool b => if b then "true" else "false"
  | .int n => toString n
  | .float x => renderFloat x
  | .text s => renderString style s
  | .list items => "[" ++ renderItems style items ++ "]"
  | .object fields => "\x7b" ++ renderFields style fields ++ "\x7d"

def renderItems (style : Style) : List Value → String
  | [] => ""
  | [v] => renderWith style v
  | v :: rest => renderWith style v ++ style.itemGap ++ renderItems style rest

def renderFields (style : Style) : List (String × Value) → String
  | [] => ""
  | [(key, v)] => renderString style key ++ style.keyGap ++ renderWith style v
  | (key, v) :: rest =>
    renderString style key ++ style.keyGap ++ renderWith style v ++ style.itemGap
      ++ renderFields style rest

end

end Flowgraph.Json
