import Flowgraph.Text.Blank

/-! Bindings in the text of an environment file. A line binds a key, maybe behind `export`; the
value is bare and ends before a comment, or quoted and may then go over several lines. What cannot
be read is passed over to the end of its line. -/

namespace Flowgraph

/-- A key, with its value when there is one. -/
structure Binding where
  key : String
  value : Option String
  deriving DecidableEq, Repr

namespace Binding

/-- Blanks within a line. -/
def isGap (c : Char) : Bool :=
  Text.isBlank c && c ≠ '\n' && c ≠ '\r'

def dropGap (cs : List Char) : List Char :=
  cs.dropWhile isGap

def dropExport (cs : List Char) : List Char :=
  let word := "export".toList
  if word.isPrefixOf cs then
    let rest := cs.drop word.length
    if (rest.head?.map isGap).getD false then dropGap rest else cs
  else cs

/-- Where a quoted part ends: at the first quote without a backslash in front, or else at the
last one with. The part, and what follows the quote. -/
def closeQuote (quote : Char) : List Char → List Char → Option (List Char × List Char)
  | _, [] => none
  | acc, c :: rest =>
    if c = quote then
      if acc.head? = some '\\' then
        (closeQuote quote (c :: acc) rest) <|> some (acc.reverse, rest)
      else some (acc.reverse, rest)
    else closeQuote quote (c :: acc) rest

def escaped? (c : Char) : Option Char :=
  match c with
  | '\\' => some '\\'
  | '\'' => some '\''
  | '"' => some '"'
  | 'a' => some (Char.ofNat 7)
  | 'b' => some (Char.ofNat 8)
  | 'f' => some (Char.ofNat 12)
  | 'n' => some '\n'
  | 'r' => some '\r'
  | 't' => some '\t'
  | 'v' => some (Char.ofNat 11)
  | _ => none

/-- Double quotes know more escapes than single ones. -/
def unescape (quote : Char) : List Char → List Char
  | '\\' :: c :: rest =>
    match (escaped? c).filter fun _ => quote = '"' || c = '\\' || c = '\'' with
    | some e => e :: unescape quote rest
    | none => '\\' :: unescape quote (c :: rest)
  | c :: rest => c :: unescape quote rest
  | [] => []

/-- A bare value ends before blanks that a number sign follows. -/
def dropComment : List Char → List Char
  | [] => []
  | c :: rest =>
    if Text.isBlank c && (rest.dropWhile Text.isBlank).head? = some '#' then []
    else c :: dropComment rest

def inLine (c : Char) : Bool :=
  c ≠ '\n' && c ≠ '\r'

/-- A reading of part of the text: the result, or nothing, and what is left in both cases. -/
abbrev Part (α : Type) := Option α × List Char

def readKey (cs : List Char) : Part (Option String) :=
  match cs with
  | '#' :: _ => (some none, cs)
  | '\'' :: rest =>
    let name := rest.takeWhile (· ≠ '\'')
    match rest.drop name.length with
    | _ :: tail => if name.isEmpty then (none, cs) else (some (some (String.ofList name)), tail)
    | [] => (none, cs)
  | _ =>
    let name := cs.takeWhile fun c => c ≠ '=' && c ≠ '#' && !Text.isBlank c
    if name.isEmpty then (none, cs) else (some (some (String.ofList name)), cs.drop name.length)

def readQuoted (quote : Char) (cs rest : List Char) : Part String :=
  match closeQuote quote [] rest with
  | some (body, tail) => (some (String.ofList (unescape quote body)), tail)
  | none => (none, cs)

def readValue (cs : List Char) : Part String :=
  match cs with
  | '\'' :: rest => readQuoted '\'' cs rest
  | '"' :: rest => readQuoted '"' cs rest
  | _ =>
    let body := cs.takeWhile inLine
    (some (String.ofList (Text.trimRight (dropComment body))), cs.drop body.length)

/-- A comment and the end of the line; nothing else may stand there. -/
def readEnd (cs : List Char) : Part Unit :=
  let body := dropGap cs
  let body := match body with
    | '#' :: rest => rest.dropWhile inLine
    | _ => body
  match body with
  | [] => (some (), [])
  | '\n' :: rest => (some (), rest)
  | _ => (none, body)

def assigned (cs : List Char) : Part (Option String) :=
  match cs with
  | '=' :: rest =>
    let (value, tail) := readValue (dropGap rest)
    (value.map some, tail)
  | _ => (some none, cs)

/-- Read one line, or as many as a quoted value takes. -/
def readOne (cs : List Char) : Part (Option Binding) :=
  match readKey (dropExport cs) with
  | (none, rest) => (none, rest)
  | (some key, rest) =>
    match assigned (dropGap rest) with
    | (none, rest) => (none, rest)
    | (some value, rest) =>
      match readEnd rest with
      | (none, rest) => (none, rest)
      | (some (), rest) => (some (key.map fun key => ⟨key, value⟩), rest)

def readAll : Nat → List Char → List Binding
  | 0, _ => []
  | fuel + 1, cs =>
    match cs.dropWhile Text.isBlank with
    | [] => []
    | body =>
      match readOne body with
      | (some (some b), rest) => b :: readAll fuel rest
      | (some none, rest) => readAll fuel rest
      | (none, rest) => readAll fuel ((rest.dropWhile inLine).drop 1)

/-- Every line break becomes a line feed. -/
def unifyBreaks : List Char → List Char
  | '\r' :: '\n' :: rest => '\n' :: unifyBreaks rest
  | '\r' :: rest => '\n' :: unifyBreaks rest
  | c :: rest => c :: unifyBreaks rest
  | [] => []

/-- All bindings of a text, in order. -/
def ofText (s : String) : List Binding :=
  let cs := unifyBreaks s.toList
  readAll (cs.length + 1) cs

end Binding

end Flowgraph
