import Flowgraph.Expression.Token

/-! Text literals: escapes, and the pieces of a text with expressions in braces. -/

namespace Flowgraph.Expression

def hexDigits? (cs : List Char) : Option Nat :=
  cs.foldlM (fun acc c => (radixValue? c).map (16 * acc + ·)) 0

def charOfNat? (n : Nat) : Option Char :=
  if n.isValidChar then some (Char.ofNat n) else none

def simpleEscape? (c : Char) : Option (List Char) :=
  match c with
  | '\n' => some []
  | '\\' => some ['\\']
  | '\'' => some ['\'']
  | '"' => some ['"']
  | 'a' => some [Char.ofNat 7]
  | 'b' => some [Char.ofNat 8]
  | 'f' => some [Char.ofNat 12]
  | 'n' => some ['\n']
  | 'r' => some ['\r']
  | 't' => some ['\t']
  | 'v' => some [Char.ofNat 11]
  | _ => none

def isOctal (c : Char) : Bool :=
  '0' ≤ c && c ≤ '7'

/-- Letters whose escape takes this many hexadecimal digits. -/
def hexWidth? (bytes : Bool) (c : Char) : Option Nat :=
  match c with
  | 'x' => some 2
  | 'u' => if bytes then none else some 4
  | 'U' => if bytes then none else some 8
  | _ => none

/-- Replace escapes; an unknown one stands for itself. -/
def unescape (bytes : Bool) : Nat → List Char → Option (List Char)
  | 0, _ => none
  | steps + 1, cs =>
    match cs with
    | [] => some []
    | '\\' :: c :: rest =>
      match simpleEscape? c with
      | some out => (unescape bytes steps rest).map (out ++ ·)
      | none =>
        if isOctal c then
          let ds := ((c :: rest).take 3).takeWhile isOctal
          let n := ofRadixDigits 8 ds
          (unescape bytes steps ((c :: rest).drop ds.length)).map (Char.ofNat (if bytes then n % 256 else n) :: ·)
        else
          match hexWidth? bytes c with
          | some width => do
            let ds := rest.take width
            if ds.length < width then none
            else
              let out ← charOfNat? (← hexDigits? ds)
              (unescape bytes steps (rest.drop width)).map (out :: ·)
          | none =>
            if c = 'N' && !bytes then none
            else (unescape bytes steps rest).map fun tail => '\\' :: c :: tail
    | c :: rest => (unescape bytes steps rest).map (c :: ·)

def decode (q : Quotation) : Option (List Char) :=
  if q.raw then some q.body else unescape q.bytes (q.body.length + 1) q.body

/-- A part of a text with expressions in braces. -/
inductive Piece where
  | plain (cs : List Char)
  | field (source : List Char) (echo : Option (List Char)) (conversion : Option Char)
      (spec : Option (List Piece))

def led (front : List Char) (r : Option (List Char × List Char)) : Option (List Char × List Char) :=
  r.map fun (s, rest) => (front ++ s, rest)

/-- A text literal that is open: its quote, and whether the quote is threefold. -/
structure OpenQuote where
  quote : Char
  threefold : Bool

def closer? (c : Char) : Option Char :=
  if c = '(' then some ')'
  else if c = '[' then some ']'
  else if c = '\x7b' then some '\x7d'
  else none

def isCloser (c : Char) : Bool :=
  c = ')' || c = ']' || c = '\x7d'

/-- Whether the next two characters repeat this one. -/
def tripled (c : Char) (rest : List Char) : Bool :=
  [c, c].isPrefixOf rest

/-- The expression of a brace field, up to the mark that ends it; `closers` are the brackets
still to be closed. -/
def fieldSource : Nat → Option OpenQuote → List Char → List Char → Option (List Char × List Char)
  | steps + 1, inside, closers, c :: rest =>
    if c = '\\' then none
    else
      match inside with
      | some mark =>
        if c ≠ mark.quote then led [c] (fieldSource steps inside closers rest)
        else if !mark.threefold then led [c] (fieldSource steps none closers rest)
        else if tripled c rest then led [c, c, c] (fieldSource steps none closers (rest.drop 2))
        else led [c] (fieldSource steps inside closers rest)
      | none =>
        if c = '"' || c = '\'' then
          if tripled c rest then led [c, c, c] (fieldSource steps (some ⟨c, true⟩) closers (rest.drop 2))
          else led [c] (fieldSource steps (some ⟨c, false⟩) closers rest)
        else if c = '#' then none
        else
          match closer? c, closers with
          | some d, _ => led [c] (fieldSource steps none (d :: closers) rest)
          | none, d :: outer =>
            if c = d then led [c] (fieldSource steps none outer rest)
            else if isCloser c then none
            else led [c] (fieldSource steps none closers rest)
          | none, [] =>
            if ['!', '=', '<', '>'].contains c && rest.head? = some '=' then
              led [c, '='] (fieldSource steps none [] (rest.drop 1))
            else if ['!', ':', '\x7d', '='].contains c then some ([], c :: rest)
            else if isCloser c then none
            else led [c] (fieldSource steps none [] rest)
  | _, _, _, _ => none

/-- A mark `=` after the expression, with the gap that follows it. -/
def readEcho (source : List Char) : List Char → Option (List Char) × List Char
  | '=' :: rest =>
    let gap := rest.takeWhile fun c => c = ' ' || (9 ≤ c.toNat && c.toNat ≤ 13)
    (some (source ++ '=' :: gap), rest.drop gap.length)
  | rest => (none, rest)

/-- A conversion mark; none when the letter is not known. -/
def readConversion : List Char → Option (Option Char × List Char)
  | '!' :: c :: rest => if ['s', 'r', 'a'].contains c then some (some c, rest) else none
  | '!' :: [] => none
  | rest => some (none, rest)

/-- Characters up to a brace, with doubled braces undone unless the text is a field's format. -/
def plainRun (inSpec : Bool) : List Char → List Char × List Char
  | [] => ([], [])
  | '\x7b' :: '\x7b' :: rest =>
    if inSpec then ([], '\x7b' :: '\x7b' :: rest)
    else let (s, tail) := plainRun inSpec rest; ('\x7b' :: s, tail)
  | '\x7d' :: '\x7d' :: rest =>
    if inSpec then ([], '\x7d' :: '\x7d' :: rest)
    else let (s, tail) := plainRun inSpec rest; ('\x7d' :: s, tail)
  | c :: rest =>
    if c = '\x7b' || c = '\x7d' then ([], c :: rest)
    else let (s, tail) := plainRun inSpec rest; (c :: s, tail)

def plainPiece (raw : Bool) (cs : List Char) : Option (List Piece) :=
  if cs.isEmpty then some []
  else if raw then some [.plain cs]
  else (unescape false (cs.length + 1) cs).map fun out => [.plain out]

/-- The pieces of a text; inside a field's format they end before the closing brace. Formats may
hold fields, but the formats of those may not. -/
def pieces (raw : Bool) : Nat → Nat → List Char → Option (List Piece × List Char)
  | 0, _, _ => none
  | steps + 1, level, cs => do
    let (run, rest) := plainRun (0 < level) cs
    let front ← plainPiece raw run
    match rest with
    | [] => if level = 0 then some (front, []) else none
    | '\x7d' :: _ => if level = 0 then none else some (front, rest)
    | _ :: body =>
      if 2 ≤ level then none
      else
        let (source, rest) ← fieldSource (body.length + 1) none [] body
        if source.all fun c => isGap c || c = '\n' || c.toNat = 11 then none
        else
          let (echo, rest) := readEcho source rest
          let (conversion, rest) ← readConversion rest
          let (spec, rest) ←
            match rest with
            | ':' :: tail => (pieces raw steps (level + 1) tail).map fun (ps, rest) => (some ps, rest)
            | _ => some (none, rest)
          match rest with
          | '\x7d' :: tail =>
            let (others, rest) ← pieces raw steps level tail
            some (front ++ .field source echo conversion spec :: others, rest)
          | _ => none

end Flowgraph.Expression
