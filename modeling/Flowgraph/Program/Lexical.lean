import Flowgraph.Expression.Quotation
import Flowgraph.Text.Printable
import Flowgraph.Text.Quoted

/-! Faults in the surface of a program text: characters and numbers that are none, texts and
brackets that are not closed. The scan goes through the text once and keeps the open brackets with
their lines. -/

namespace Flowgraph.Program

open Expression

structure SyntaxFault where
  message : String
  line : Nat
  deriving DecidableEq, Repr

/-- What is open at a place of the text: brackets, innermost first, with their lines. -/
abbrev OpenBrackets := List (Char × Nat)

def codePoint (c : Char) : String :=
  let digits := Nat.toDigits 16 c.toNat
  String.ofList (List.replicate (4 - digits.length) '0' ++ digits.map Char.toUpper)

def invalidCharacter (c : Char) : String :=
  if Text.isPrintable c then "invalid character '" ++ String.singleton c ++ "' (U+" ++ codePoint c ++ ")"
  else "invalid non-printable character U+" ++ codePoint c

/-- The first character that keeps a word from being a name. -/
def misfit? : List Char → Option Char
  | [] => none
  | c :: rest =>
    if Text.startsIdentifier c then rest.find? fun d => !Text.continuesIdentifier d else some c

/-! Numbers -/

/-- The fault of a number of a radix, from what follows its digits. -/
def radixFault (name : String) (radix : Nat) (cs : List Char) : String :=
  let cs := match cs with
    | '_' :: rest => rest
    | _ => cs
  match (digitGroups (isRadixDigit radix) cs).2 with
  | c :: _ =>
    if isAsciiDigit c then "invalid digit '" ++ String.singleton c ++ "' in " ++ name ++ " literal"
    else "invalid " ++ name ++ " literal"
  | [] => "invalid " ++ name ++ " literal"

def decimalFault (cs : List Char) : String :=
  let m := readMantissa cs
  let (powered, rest) := match m.rest with
    | 'e' :: tail | 'E' :: tail =>
      match readPower tail with
      | some (_, rest) => (true, rest)
      | none => (false, m.rest)
    | _ => (false, m.rest)
  match rest with
  | 'j' :: _ | 'J' :: _ => "invalid imaginary literal"
  | _ =>
    if !powered && m.fraction.isNone && m.whole.head? = some '0' && m.whole.any (· ≠ '0') then
      "leading zeros in decimal integer literals are not permitted; use an 0o prefix for octal integers"
    else "invalid decimal literal"

def numberFault : List Char → String
  | '0' :: 'x' :: rest | '0' :: 'X' :: rest => radixFault "hexadecimal" 16 rest
  | '0' :: 'o' :: rest | '0' :: 'O' :: rest => radixFault "octal" 8 rest
  | '0' :: 'b' :: rest | '0' :: 'B' :: rest => radixFault "binary" 2 rest
  | cs => decimalFault cs

/-! Brackets -/

def opened (c : Char) (line : Nat) (stack : OpenBrackets) : Except SyntaxFault OpenBrackets :=
  if nestingLimit ≤ stack.length then .error ⟨"too many nested parentheses", line⟩
  else .ok ((c, line) :: stack)

def closed (c : Char) (line : Nat) : OpenBrackets → Except SyntaxFault OpenBrackets
  | [] => .error ⟨"unmatched '" ++ String.singleton c ++ "'", line⟩
  | (d, at_) :: rest =>
    if closer? d = some c then .ok rest
    else
      let where_ := if at_ = line then "" else " on line " ++ toString at_
      .error
        ⟨"closing parenthesis '" ++ String.singleton c ++ "' does not match opening parenthesis '"
          ++ String.singleton d ++ "'" ++ where_, line⟩

def bracketed (c : Char) (line : Nat) (stack : OpenBrackets) : Except SyntaxFault OpenBrackets :=
  if (closer? c).isSome then opened c line stack
  else if isCloser c then closed c line stack
  else .ok stack

/-! The scan -/

def lineBreaks (cs : List Char) : Nat :=
  cs.count '\n'

/-- A text that is not closed begins in one line and is found open in another. -/
def unclosedText (threefold : Bool) (start found : Nat) : SyntaxFault :=
  let kind := if threefold then "triple-quoted string" else "string"
  ⟨"unterminated " ++ kind ++ " literal (detected at line " ++ toString found ++ ")", start⟩

/-- The line in which a text is found open that ends with its line. -/
def brokenLine : Nat → List Char → Nat
  | line, '\\' :: '\n' :: rest => brokenLine (line + 1) rest
  | line, '\\' :: _ :: rest => brokenLine line rest
  | line, c :: rest => if c = '\n' then line else brokenLine line rest
  | line, [] => line

/-- The open brackets at the end of the characters, or the first fault. `steps` bounds the number
of tokens and gaps. -/
def surface : Nat → Nat → OpenBrackets → List Char → Except SyntaxFault OpenBrackets
  | 0, _, stack, _ => .ok stack
  | _, _, stack, [] => .ok stack
  | steps + 1, line, stack, c :: rest =>
    if c = '\n' then surface steps (line + 1) stack rest
    else if isGap c then surface steps line stack rest
    else if c = '#' then surface steps line stack (afterComment rest)
    else if c = '\\' then
      match rest with
      | '\n' :: tail => surface steps (line + 1) stack tail
      | [] => .error ⟨"unexpected EOF while parsing", line⟩
      | _ => .error ⟨"unexpected character after line continuation character", line⟩
    else if c = '"' || c = '\'' then
      match readBody c rest with
      | some (_, tail) =>
        surface steps (line + lineBreaks (rest.take (rest.length - tail.length))) stack tail
      | none =>
        if tripled c rest then .error (unclosedText true line (line + lineBreaks rest - 1))
        else .error (unclosedText false line (brokenLine line rest))
    else if mayStartName c then
      let word := c :: rest.takeWhile mayContinueName
      match misfit? word with
      | some d => .error ⟨invalidCharacter d, line⟩
      | none => surface steps line stack (rest.dropWhile mayContinueName)
    else if isAsciiDigit c || (c = '.' && (rest.head?.map isAsciiDigit).getD false) then
      match readNumber (c :: rest) with
      | some (_, tail) => surface steps line stack tail
      | none => .error ⟨numberFault (c :: rest), line⟩
    else if !Text.isPrintable c then .error ⟨invalidCharacter c, line⟩
    else
      match bracketed c line stack with
      | .ok stack => surface steps line stack rest
      | .error f => .error f

def unclosedBracket (c : Char) (line : Nat) : SyntaxFault :=
  ⟨"'" ++ String.singleton c ++ "' was never closed", line⟩

/-- The first fault in the surface of a whole text. -/
def surfaceFault? (cs : List Char) : Option SyntaxFault :=
  let cs := unifyLines cs
  match surface (cs.length + 1) 1 [] cs with
  | .error f => some f
  | .ok [] => none
  | .ok ((c, line) :: _) => some (unclosedBracket c line)

end Flowgraph.Program
