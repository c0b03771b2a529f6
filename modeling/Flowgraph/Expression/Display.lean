import Flowgraph.Expression.Datum

/-! The text of a datum, in literal form and as it is inserted into text. -/

namespace Flowgraph.Datum

/-- A part of a complex number: a whole part stands without its point. -/
def partText (x : Float) : String :=
  let s := Decimal.render x
  if s.endsWith ".0" then String.ofList (s.toList.take (s.length - 2)) else s

def complexText (re im : Float) : String :=
  if re == 0 && !Decimal.signBit re then partText im ++ "j"
  else
    let gap := if Decimal.signBit im || Decimal.isNaN im then "" else "+"
    "(" ++ partText re ++ gap ++ partText im ++ "j)"

def byteText (quote : Char) (b : Nat) : List Char :=
  let c := Char.ofNat b
  if c = quote || c = '\\' then ['\\', c]
  else if c = '\t' then ['\\', 't']
  else if c = '\n' then ['\\', 'n']
  else if c = '\r' then ['\\', 'r']
  else if 32 ≤ b && b < 127 then [c]
  else ['\\', 'x'] ++ Text.hex 2 b

def bytesText (bs : List Nat) : String :=
  let quote := Text.chooseQuote (bs.map Char.ofNat)
  String.ofList ('b' :: quote :: bs.flatMap (byteText quote) ++ [quote])

/-- Functions that make a value of a kind are shown as that kind. -/
def builtinText (name : String) : String :=
  if ["str", "int", "float", "bool"].contains name then "<class '" ++ name ++ "'>"
  else "<built-in function " ++ name ++ ">"

mutual

def literal : Datum → String
  | none => "None"
  | bool b => boolText b
  | int n => toString n
  | float x => Decimal.render x
  | complex re im => complexText re im
  | text s => Text.quoted s
  | bytes bs => bytesText bs
  | ellipsis => "Ellipsis"
  | list items => "[" ++ literalItems items ++ "]"
  | tuple [] => "()"
  | tuple [d] => "(" ++ literal d ++ ",)"
  | tuple items => "(" ++ literalItems items ++ ")"
  | set [] => "set()"
  | set items => "\x7b" ++ literalItems items ++ "\x7d"
  | table entries => "\x7b" ++ literalEntries entries ++ "\x7d"
  | slice a b c => "slice(" ++ literal a ++ ", " ++ literal b ++ ", " ++ literal c ++ ")"
  | stream _ _ => "<generator>"
  | builtin name => builtinText name
  | method _ name => "<built-in method " ++ name ++ ">"
  | function _ _ _ => "<function>"

def literalItems : List Datum → String
  | [] => ""
  | [d] => literal d
  | d :: rest => literal d ++ ", " ++ literalItems rest

def literalEntries : List (Datum × Datum) → String
  | [] => ""
  | [(k, v)] => literal k ++ ": " ++ literal v
  | (k, v) :: rest => literal k ++ ": " ++ literal v ++ ", " ++ literalEntries rest

end

def display : Datum → String
  | text s => s
  | d => literal d

end Flowgraph.Datum
