import Flowgraph.Decimal.Numeral
import Flowgraph.Moment.Reading
import Flowgraph.Workflow.Basic
import Flowgraph.Workflow.Issue

/-! Lenient reading of single values: numbers from texts and switches, switches from words,
and the members of enumerations by name. -/

namespace Flowgraph.Reading

def text : Value → Reading String
  | .text s => accepted s
  | v => reject .notText v

/-- A text that is not blank, without the blanks around it. -/
def identifier (v : Value) : Reading String :=
  (text v).andThen fun s =>
    if Text.trim s = "" then reject (.rule "Value cannot be empty") v else accepted (Text.trim s)

/-- The part in front of a point that only zeros follow. -/
def dropZeroFraction (cs : List Char) : List Char :=
  match cs.dropWhile (· ≠ '.') with
  | '.' :: fraction => if fraction.all (· = '0') then cs.takeWhile (· ≠ '.') else cs
  | _ => cs

/-- Low lines are dropped when single ones stand inside the text. -/
def dropLowLines (cs : List Char) : Option (List Char) :=
  if cs.head? = some '_' || cs.getLast? = some '_' then none
  else if (cs.zip (cs.drop 1)).any (fun p => p.1 = '_' && p.2 = '_') then none
  else some (cs.filter (· ≠ '_'))

/-- An optional sign and digits of the Latin script. -/
def signedDigits? (cs : List Char) : Option Int :=
  let (negative, body) := Decimal.readSign cs
  if body.isEmpty || !body.all Char.isDigit then none
  else
    let n : Int := Decimal.ofDigits (body.map fun c => c.toNat - 48)
    some (if negative then -n else n)

def integerText (s : String) : Except Problem Int :=
  let cs := dropZeroFraction (Text.trimWhiteSpace s.toList)
  match (dropLowLines cs).bind signedDigits? with
  | none => .error .integerSyntax
  | some n => if cs.length > Decimal.digitLimit then .error .integerTooLong else .ok n

/-- Floating-point numbers within this bound can stand for whole numbers. -/
def wordBound : Int := 9223372036854775808

def integerOfFloat (x : Float) : Except Problem Int :=
  match Decimal.ratioOf? x with
  | none => .error .notFinite
  | some (n, d) =>
    if n % d ≠ 0 then .error .fractional
    else if -wordBound < n / d && n / d < wordBound then .ok (n / d)
    else .error .fractional

/-- A whole number, given as a number, a switch or a text. -/
def integer (v : Value) : Reading Int :=
  let result : Except Problem Int :=
    match v with
    | .int n => .ok n
    | .bool b => .ok (if b then 1 else 0)
    | .float x => integerOfFloat x
    | .text s => integerText s
    | _ => .error .notInteger
  match result with
  | .ok n => accepted n
  | .error problem => reject problem v

def positive (v : Value) : Reading Nat :=
  (integer v).andThen fun n => if 0 < n then accepted n.toNat else reject (.notAbove 0) v

def natural (v : Value) : Reading Nat :=
  (integer v).andThen fun n => if 0 ≤ n then accepted n.toNat else reject (.below 0) v

def floatText? (s : String) : Option Float :=
  (dropLowLines (Text.trimWhiteSpace s.toList)).bind fun cs =>
    if cs.all (fun c => c.toNat < 128) then Decimal.readFloat cs else none

/-- A floating-point number, given as a number, a switch or a text. -/
def float (v : Value) : Reading Float :=
  match v with
  | .float x => accepted x
  | .int n => accepted (Decimal.nearestInt n)
  | .bool b => accepted (if b then 1 else 0)
  | .text s =>
    match floatText? s with
    | some x => accepted x
    | none => reject .floatSyntax v
  | _ => reject .notFloat v

def trueWords : List String := ["1", "on", "t", "true", "y", "yes"]

def falseWords : List String := ["0", "off", "f", "false", "n", "no"]

def boolean (v : Value) : Reading Bool :=
  let ofInt (n : Int) : Reading Bool :=
    if n = 0 then accepted false else if n = 1 then accepted true else reject .booleanSyntax v
  match v with
  | .bool b => accepted b
  | .int n => if -wordBound ≤ n && n < wordBound then ofInt n else reject .notBoolean v
  | .text s =>
    let word := String.ofList (s.toList.map Char.toLower)
    if trueWords.contains word then accepted true
    else if falseWords.contains word then accepted false
    else reject .booleanSyntax v
  | .float x =>
    match integerOfFloat x with
    | .ok n => ofInt n
    | .error _ => reject .notBoolean v
  | _ => reject .notBoolean v

def moment (v : Value) : Reading Moment :=
  let counted (r : Except Moment.DateFault Moment) : Reading Moment :=
    match r with
    | .ok m => accepted m
    | .error e => reject (.countSyntax e.message) v
  match v with
  | .text s =>
    match Moment.read s with
    | .ok m => accepted m
    | .error e => reject (.momentSyntax e.message) v
  | .int n => counted (Moment.ofCount n 0)
  | .float x => counted (Moment.ofFloat x)
  | _ => reject .notMoment v

def member {α : Type} (members : List α) (name : α → String) (v : Value) : Reading α :=
  match v.text?.bind (memberNamed? members name) with
  | some m => accepted m
  | none => reject (.notMember (members.map name)) v

def anything (v : Value) : Reading Value :=
  accepted v

def fields (v : Value) : Reading Fields :=
  match v.fields? with
  | some fs => accepted fs
  | none => reject .notObject v

def nullable {α : Type} (read : Value → Reading α) (v : Value) : Reading (Option α) :=
  if v.isNull then accepted none else (read v).map some

/-- Every item is read, and the issues of all are kept. -/
def itemsFrom {α : Type} (read : Value → Reading α) (index : Nat) : List Value → Reading (List α)
  | [] => accepted []
  | v :: rest =>
    List.cons <$> (read v).under (.item index) <*> itemsFrom read (index + 1) rest

def items {α : Type} (read : Value → Reading α) (v : Value) : Reading (List α) :=
  match v.items? with
  | some vs => itemsFrom read 0 vs
  | none => reject .notList v

end Flowgraph.Reading
