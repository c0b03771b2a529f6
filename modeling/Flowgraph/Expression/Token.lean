import Flowgraph.Decimal.Numeral
import Flowgraph.Expression.Syntax
import Flowgraph.Text.Identifier

/-! Tokens of expressions. Line ends count only outside brackets; comments and blank lines are
passed over; a number must not run into a name, apart from the words that may follow one. -/

namespace Flowgraph.Expression

open Flowgraph.Decimal

/-- A text literal as it is written, between its quotes. -/
structure Quotation where
  bytes : Bool
  raw : Bool
  formatted : Bool
  body : List Char

inductive Token where
  | name (s : String)
  | literal (l : Literal)
  | quotation (q : Quotation)
  | op (s : String)
  | line

def isAsciiDigit (c : Char) : Bool :=
  '0' ≤ c && c ≤ '9'

def digitValue (c : Char) : Nat :=
  c.toNat - '0'.toNat

/-- A character that may belong to a name, before its class is looked up. -/
def mayContinueName (c : Char) : Bool :=
  c.isAlphanum || c = '_' || 128 ≤ c.toNat

def mayStartName (c : Char) : Bool :=
  mayContinueName c && !isAsciiDigit c

def isName : List Char → Bool
  | [] => false
  | c :: rest => Text.startsIdentifier c && rest.all Text.continuesIdentifier

/-- Line ends in every spelling become one character. -/
def unifyLines : List Char → List Char
  | '\r' :: '\n' :: rest => '\n' :: unifyLines rest
  | '\r' :: rest => '\n' :: unifyLines rest
  | c :: rest => c :: unifyLines rest
  | [] => []

/-! Numbers -/

/-- Digits of a radix, each group after the first led by a low line. -/
def digitGroups (isDigit : Char → Bool) : List Char → List Char × List Char
  | [] => ([], [])
  | c :: rest =>
    if isDigit c then
      let (ds, tail) := digitGroups isDigit rest
      (c :: ds, tail)
    else
      match c, rest with
      | '_', d :: _ => if isDigit d then digitGroups isDigit rest else ([], c :: rest)
      | _, _ => ([], c :: rest)

/-- Words that may follow a number without a gap, keyed by their first letter. -/
def mayFollowNumber : List Char → Bool
  | 'a' :: 'n' :: 'd' :: _ => true
  | 'e' :: 'l' :: 's' :: 'e' :: _ => true
  | 'f' :: 'o' :: 'r' :: _ => true
  | 'i' :: 'f' :: _ => true
  | 'i' :: 'n' :: _ => true
  | 'i' :: 's' :: _ => true
  | 'o' :: 'r' :: _ => true
  | 'n' :: 'o' :: 't' :: _ => true
  | _ => false

def endsNumber (rest : List Char) : Bool :=
  match rest with
  | [] => true
  | c :: _ => 128 ≤ c.toNat || !mayContinueName c || mayFollowNumber rest

def ended (l : Literal) (rest : List Char) : Option (Literal × List Char) :=
  if endsNumber rest then some (l, rest) else none

def radixValue? (c : Char) : Option Nat :=
  if isAsciiDigit c then some (digitValue c)
  else if 'a' ≤ c && c ≤ 'f' then some (c.toNat - 'a'.toNat + 10)
  else if 'A' ≤ c && c ≤ 'F' then some (c.toNat - 'A'.toNat + 10)
  else none

def isRadixDigit (radix : Nat) (c : Char) : Bool :=
  match radixValue? c with
  | some d => d < radix
  | none => false

def ofRadixDigits (radix : Nat) (ds : List Char) : Nat :=
  ds.foldl (fun acc c => radix * acc + (radixValue? c).getD 0) 0

def readRadix (radix : Nat) (cs : List Char) : Option (Literal × List Char) :=
  let body := match cs with
    | '_' :: rest => rest
    | _ => cs
  match body with
  | c :: _ =>
    if !isRadixDigit radix c then none
    else
      let (ds, rest) := digitGroups (isRadixDigit radix) body
      ended (.int (ofRadixDigits radix ds)) rest
  | [] => none

/-- A signed exponent; none when the letter is not followed by digits. -/
def readPower : List Char → Option (Int × List Char)
  | '-' :: c :: rest =>
    if isAsciiDigit c then
      let (ds, tail) := digitGroups isAsciiDigit (c :: rest)
      some (-(ofRadixDigits 10 ds : Int), tail)
    else none
  | '+' :: c :: rest =>
    if isAsciiDigit c then
      let (ds, tail) := digitGroups isAsciiDigit (c :: rest)
      some ((ofRadixDigits 10 ds : Int), tail)
    else none
  | c :: rest =>
    if isAsciiDigit c then
      let (ds, tail) := digitGroups isAsciiDigit (c :: rest)
      some ((ofRadixDigits 10 ds : Int), tail)
    else none
  | [] => none

/-- The digits around the point of a number, and what follows. -/
structure Mantissa where
  whole : List Char
  fraction : Option (List Char)
  rest : List Char

def readMantissa (cs : List Char) : Mantissa :=
  let (whole, rest) := digitGroups isAsciiDigit cs
  match rest with
  | '.' :: tail =>
    match tail with
    | d :: _ =>
      if isAsciiDigit d then
        let (ds, rest) := digitGroups isAsciiDigit tail
        ⟨whole, some ds, rest⟩
      else ⟨whole, some [], tail⟩
    | [] => ⟨whole, some [], tail⟩
  | _ => ⟨whole, none, rest⟩

/-- A literal from the parts of a number. A whole number has no superfluous zeros in front. -/
def finishNumber (m : Mantissa) (exponent : Option Int) (rest : List Char) :
    Option (Literal × List Char) :=
  let fraction := m.fraction.getD []
  let value :=
    Decimal.toFloat (ofRadixDigits 10 (m.whole ++ fraction)) (exponent.getD 0 - (fraction.length : Int))
  match rest with
  | 'j' :: tail | 'J' :: tail => ended (.imaginary value) tail
  | _ =>
    if m.fraction.isSome || exponent.isSome then ended (.float value) rest
    else if m.whole.head? = some '0' && m.whole.any (· ≠ '0') then none
    else if digitLimit < m.whole.length then none
    else ended (.int (ofRadixDigits 10 m.whole)) rest

def readDecimalNumber (cs : List Char) : Option (Literal × List Char) :=
  let m := readMantissa cs
  match m.rest with
  | 'e' :: tail | 'E' :: tail =>
    match readPower tail with
    | some (e, rest) => finishNumber m (some e) rest
    | none => finishNumber m none m.rest
  | _ => finishNumber m none m.rest

def readNumber : List Char → Option (Literal × List Char)
  | '0' :: 'x' :: rest | '0' :: 'X' :: rest => readRadix 16 rest
  | '0' :: 'o' :: rest | '0' :: 'O' :: rest => readRadix 8 rest
  | '0' :: 'b' :: rest | '0' :: 'B' :: rest => readRadix 2 rest
  | cs => readDecimalNumber cs

/-! Text literals -/

/-- The body of a text up to a single closing quote on the same line. -/
def readShort (quote : Char) : List Char → Option (List Char × List Char)
  | [] => none
  | '\\' :: c :: rest =>
    (readShort quote rest).map fun (body, tail) => ('\\' :: c :: body, tail)
  | c :: rest =>
    if c = quote then some ([], rest)
    else if c = '\n' then none
    else (readShort quote rest).map fun (body, tail) => (c :: body, tail)

/-- The body of a text up to three closing quotes. -/
def readLong (quote : Char) : List Char → Option (List Char × List Char)
  | [] => none
  | '\\' :: c :: rest =>
    (readLong quote rest).map fun (body, tail) => ('\\' :: c :: body, tail)
  | a :: b :: c :: rest =>
    if a = quote && b = quote && c = quote then some ([], rest)
    else (readLong quote (b :: c :: rest)).map fun (body, tail) => (a :: body, tail)
  | _ :: _ => none

def readBody (quote : Char) (cs : List Char) : Option (List Char × List Char) :=
  match cs with
  | a :: b :: rest => if a = quote && b = quote then readLong quote rest else readShort quote cs
  | _ => readShort quote cs

/-- The letters in front of a quote, in lower case. -/
def markOf (letters : List Char) : Option Quotation :=
  match letters.map Char.toLower with
  | [] | ['u'] => some ⟨false, false, false, []⟩
  | ['r'] => some ⟨false, true, false, []⟩
  | ['b'] => some ⟨true, false, false, []⟩
  | ['b', 'r'] | ['r', 'b'] => some ⟨true, true, false, []⟩
  | ['f'] => some ⟨false, false, true, []⟩
  | ['f', 'r'] | ['r', 'f'] => some ⟨false, true, true, []⟩
  | _ => none

def readQuotation (mark : Quotation) (quote : Char) (cs : List Char) :
    Option (Token × List Char) :=
  (readBody quote cs).map fun (body, rest) => (.quotation { mark with body := body }, rest)

/-- A name, or a text whose quote follows the letters at once. -/
def readWord (cs : List Char) : Option (Token × List Char) :=
  let word := cs.takeWhile mayContinueName
  let rest := cs.dropWhile mayContinueName
  let named := if isName word then some (Token.name (String.ofList word), rest) else none
  match rest with
  | q :: tail =>
    if q = '"' || q = '\'' then
      match markOf word with
      | some mark => readQuotation mark q tail
      | none => named
    else named
  | [] => named

/-! Operators -/

def longOperators : List String :=
  ["...", "**=", "//=", ">>=", "<<=", "**", "//", ">>", "<<", "<=", ">=", "==", "!=", ":=", "->", "+=", "-=",
   "*=", "/=", "%=", "&=", "|=", "^=", "@="]

def shortOperators : List Char :=
  ['+', '-', '*', '/', '%', '@', '&', '|', '^', '~', '<', '>', '(', ')', '[', ']', '\x7b', '\x7d', ',', ':', '.',
   '=', ';']

def readOperator (cs : List Char) : Option (String × List Char) :=
  match longOperators.find? fun op => op.toList.isPrefixOf cs with
  | some op => some (op, cs.drop op.length)
  | none =>
    match cs with
    | c :: rest => if shortOperators.contains c then some (String.singleton c, rest) else none
    | [] => none

/-- Brackets may be nested this deep. -/
def nestingLimit : Nat := 200

def nestingAfter (depth : Nat) (op : String) : Option Nat :=
  if op = "(" || op = "[" || op = "\x7b" then (if depth < nestingLimit then some (depth + 1) else none)
  else if op = ")" || op = "]" || op = "\x7d" then (if depth = 0 then none else some (depth - 1))
  else some depth

def isGap (c : Char) : Bool :=
  c = ' ' || c = '\t' || c.toNat = 12

/-- Columns of the gap that starts a line; a form feed starts over. -/
def indentation (columns : Nat) : List Char → Nat × List Char
  | c :: rest =>
    if c = ' ' || c = '\t' then indentation (columns + 1) rest
    else if c.toNat = 12 then indentation 0 rest
    else (columns, c :: rest)
  | [] => (columns, [])

def afterComment (cs : List Char) : List Char :=
  cs.dropWhile (· ≠ '\n')

/-- What a line start leads to: an empty line is passed over, an indented one is refused. -/
inductive LineStart where
  | finished (indented : Bool)
  | blank (rest : List Char)
  | refused
  | content (rest : List Char)

def lineStart (cs : List Char) : LineStart :=
  let (columns, rest) := indentation 0 cs
  match rest with
  | [] => .finished (0 < columns)
  | '#' :: _ => .blank ((afterComment rest).drop 1)
  | '\n' :: tail => .blank tail
  | _ => if 0 < columns then .refused else .content rest

/-- Tokens of the characters; `steps` bounds their number and `fresh` marks the start of a line. -/
def scan : Nat → Bool → Nat → List Char → Option (List Token)
  | 0, _, _, _ => none
  | steps + 1, true, depth, cs =>
    match lineStart cs with
    | .finished indented => if indented then none else some []
    | .blank rest => scan steps true depth rest
    | .refused => none
    | .content rest => scan steps false depth rest
  | steps + 1, false, depth, cs =>
    match cs with
    | [] => some [.line]
    | c :: rest =>
      if isGap c then scan steps false depth rest
      else if c = '#' then scan steps false depth (afterComment rest)
      else if c = '\n' then
        if depth = 0 then (scan steps true 0 rest).map (Token.line :: ·)
        else scan steps false depth rest
      else if c = '\\' then
        match rest with
        | '\n' :: d :: tail => scan steps false depth (d :: tail)
        | _ => none
      else if c = '"' || c = '\'' then do
        let (t, tail) ← readQuotation ⟨false, false, false, []⟩ c rest
        (scan steps false depth tail).map (t :: ·)
      else if mayStartName c then do
        let (t, tail) ← readWord cs
        (scan steps false depth tail).map (t :: ·)
      else if isAsciiDigit c || (c = '.' && (rest.head?.map isAsciiDigit).getD false) then do
        let (l, tail) ← readNumber cs
        (scan steps false depth tail).map (Token.literal l :: ·)
      else do
        let (op, tail) ← readOperator cs
        let depth ← nestingAfter depth op
        (scan steps false depth tail).map (Token.op op :: ·)

/-- The tokens of an expression; gaps in front of it are ignored. -/
def tokens (source : List Char) : Option (List Token) :=
  let cs := unifyLines (source.dropWhile fun c => c = ' ' || c = '\t')
  if cs.any (·.toNat = 0) then none else scan (2 * cs.length + 2) true 0 cs

end Flowgraph.Expression
