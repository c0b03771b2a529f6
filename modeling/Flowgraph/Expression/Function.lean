import Flowgraph.Decimal.Numeral
import Flowgraph.Expression.Format
import Flowgraph.Expression.Operator
import Flowgraph.Text.LetterCase

/-! The functions that expressions may call by name, and the members of data. -/

namespace Flowgraph.Datum

/-- The arguments of a call: those given by place and those given by name. -/
structure Arguments where
  places : List Datum
  names : List (String × Datum) := []

namespace Arguments

def onlyPlaces (a : Arguments) : Except Failure (List Datum) :=
  if a.names.isEmpty then .ok a.places else Failure.badType "no argument is given by name"

/-- Bind arguments to parameters of these names; none may be left over. -/
def bind (a : Arguments) (parameters : List String) : Except Failure (List (Option Datum)) :=
  let unknown := a.names.any fun n => !parameters.contains n.1
  let twice := (parameters.take a.places.length).any fun p => a.names.any fun n => n.1 = p
  if parameters.length < a.places.length || unknown || twice then Failure.badType "wrong arguments"
  else
    .ok <| parameters.zipIdx.map fun (p, i) =>
      match a.places[i]? with
      | some d => some d
      | .none => (a.names.find? fun n => n.1 = p).map Prod.snd

end Arguments

def functionNames : List String :=
  ["len", "str", "int", "float", "bool", "min", "max", "abs", "any", "all"]

def len (d : Datum) : Outcome :=
  match d with
  | text s => .ok (int s.length)
  | bytes bs => .ok (int bs.length)
  | list xs | tuple xs | set xs => .ok (int xs.length)
  | table es => .ok (int es.length)
  | _ => Failure.badType "object has no length"

/-- Read a whole number with digits up to `radix`. A radix of zero is told by the digits. -/
def readRadix (radix : Nat) (cs : List Char) : Option Int :=
  let (negative, body) := Decimal.readSign (Text.trimChars cs)
  let signed (n : Nat) : Int := if negative then -(n : Int) else n
  let marks := body.take 2 |>.map Char.toLower
  let marked (r : Nat) : Bool := marks = match r with
    | 16 => ['0', 'x']
    | 8 => ['0', 'o']
    | _ => ['0', 'b']
  let strip (r : Nat) : List Char := if marked r then (match body.drop 2 with
    | '_' :: rest => rest
    | rest => rest) else body
  let digits (r : Nat) (ds : List Char) : Option Nat :=
    ds.foldlM
      (fun (acc : Nat) c =>
        let v := if Text.isDecimal c then Text.decimalValue? c
          else if 'a' ≤ c.toLower && c.toLower ≤ 'z' && c.toNat < 128 then some (c.toLower.toNat - 'a'.toNat + 10)
          else Option.none
        match v with
        | some v => if v < r then some (r * acc + v) else Option.none
        | Option.none => Option.none)
      0
  let wellSpaced (ds : List Char) : Bool :=
    ds.head? ≠ some '_' && ds.getLast? ≠ some '_' && !ds.isEmpty && !infixOf ['_', '_'] ds
  let read (r : Nat) (ds : List Char) : Option Int :=
    if wellSpaced ds then (digits r (ds.filter (· ≠ '_'))).map signed else Option.none
  if radix = 0 then
    if marked 16 then read 16 (strip 16)
    else if marked 8 then read 8 (strip 8)
    else if marked 2 then read 2 (strip 2)
    else
      match read 10 body with
      | some n => if body.head? = some '0' && n ≠ 0 then Option.none else some n
      | Option.none => Option.none
  else if radix = 16 || radix = 8 || radix = 2 then read radix (strip radix)
  else read radix body

def wholeOfText (cs : List Char) : Outcome :=
  match Decimal.readInteger cs with
  | .ok n => .ok (int n)
  | .error _ => Failure.badValue "invalid whole number"

def toInt (a : Arguments) : Outcome :=
  match a.names, a.places with
  | [], [] => .ok (int 0)
  | [], [text s] => wholeOfText s.toList
  | [], [bytes bs] => wholeOfText (bs.map Char.ofNat)
  | [], [float x] => (Number.float x).truncate.map int
  | [], [d] =>
    match d.whole? with
    | some n => .ok (int n)
    | .none => Failure.badType "not a number"
  | [("base", b)], [d] | [], [d, b] =>
    let cs? : Option (List Char) := match d with
      | text s => some s.toList
      | bytes bs => some (bs.map Char.ofNat)
      | _ => .none
    match cs?, b.whole? with
    | some cs, some r =>
      if r = 0 || (2 ≤ r && r ≤ 36) then
        match readRadix r.toNat cs with
        | some n => .ok (int n)
        | .none => Failure.badValue "invalid whole number"
      else Failure.badValue "base must be >= 2 and <= 36, or 0"
    | _, _ => Failure.badType "cannot convert with a base"
  | _, _ => Failure.badType "wrong arguments"

def floatOfText (cs : List Char) : Outcome :=
  match Decimal.readFloat cs with
  | some x => .ok (float x)
  | .none => Failure.badValue "could not convert to a number"

def toFloat (a : Arguments) : Outcome := do
  match ← a.onlyPlaces with
  | [] => .ok (float 0)
  | [text s] => floatOfText s.toList
  | [bytes bs] => floatOfText (bs.map Char.ofNat)
  | [d] =>
    match d.number? with
    | some n => n.toFloat.map float
    | .none => Failure.badType "not a number"
  | _ => Failure.badType "wrong arguments"

def toText (a : Arguments) : Outcome := do
  match ← a.bind ["object", "encoding", "errors"] with
  | [some d, .none, .none] => .ok (text d.display)
  | [some (bytes bs), some (text _), _] | [some (bytes bs), .none, some (text _)] =>
    match String.fromUTF8? ⟨(bs.map Nat.toUInt8).toArray⟩ with
    | some s => .ok (text s)
    | .none => Failure.badValue "invalid bytes"
  | [.none, _, _] => .ok (text "")
  | _ => Failure.badType "wrong arguments"

def toBool (a : Arguments) : Outcome := do
  match ← a.onlyPlaces with
  | [] => .ok (bool false)
  | [d] => .ok (bool d.truthy)
  | _ => Failure.badType "wrong arguments"

def abs (d : Datum) : Outcome :=
  match d, d.number? with
  | _, some n => .ok (ofNumber n.abs)
  | complex re im, .none => .ok (float (Complex.magnitude ⟨re, im⟩))
  | _, .none => Failure.badType "bad operand for abs"

/-- The first item that is true decides; so does a failure that comes before it. -/
def anyOf (d : Datum) : Outcome := do
  let (xs, fault) ← d.items
  if xs.any truthy then .ok (bool true)
  else
    match fault with
    | some f => .error f
    | .none => .ok (bool false)

def allOf (d : Datum) : Outcome := do
  let (xs, fault) ← d.items
  if !xs.all truthy then .ok (bool false)
  else
    match fault with
    | some f => .error f
    | .none => .ok (bool true)

/-- The first item whose key no other key surpasses. -/
def extreme (surpasses : Datum → Datum → Except Failure Bool) (best : Datum × Datum) :
    List (Datum × Datum) → Outcome
  | [] => .ok best.2
  | x :: rest => do
    if ← surpasses x.1 best.1 then extreme surpasses x rest else extreme surpasses best rest

/-- Which keys win: the lesser ones or the greater ones. -/
def surpassing (name : String) : Datum → Datum → Except Failure Bool :=
  if name = "min" then fun a b => isLess a b else fun a b => isLess b a

/-- The items that an extreme is sought among, the function that gives their keys, and what
stands in for an empty collection. -/
def extremeArguments (a : Arguments) : Except Failure (List Datum × Option Datum × Option Datum) := do
  let named (n : String) := (a.names.find? fun e => e.1 = n).map Prod.snd
  let key := (named "key").filter fun d => match d with
    | none => false
    | _ => true
  if a.names.any fun e => e.1 ≠ "key" && e.1 ≠ "default" then Failure.badType "wrong arguments"
  else
    match a.places with
    | [] => Failure.badType "wrong arguments"
    | [d] => .ok (← d.allItems, key, named "default")
    | ds => if (named "default").isSome then Failure.badType "wrong arguments" else .ok (ds, key, .none)

/-- Call a function that needs no other function. -/
def callBuiltin (name : String) (a : Arguments) : Outcome :=
  let one (f : Datum → Outcome) : Outcome := do
    match ← a.onlyPlaces with
    | [d] => f d
    | _ => Failure.badType "wrong arguments"
  match name with
  | "len" => one len
  | "str" => toText a
  | "int" => toInt a
  | "float" => toFloat a
  | "bool" => toBool a
  | "abs" => one abs
  | "any" => one anyOf
  | "all" => one allOf
  | _ => Failure.badType "not callable"

/-! Members of text -/

def ofChars (cs : List Char) : Datum :=
  text (String.ofList cs)

/-- The window of a text that a start and an end leave. -/
def window (cs : List Char) (start stop : Option Datum) : Except Failure (Option (List Char)) := do
  let n : Int := cs.length
  let low ← sliceBound (start.getD none)
  let high ← sliceBound (stop.getD none)
  let low := (low.map fun i => if i < 0 then max 0 (i + n) else i).getD 0
  let high := (high.map (clampBound n 0 n)).getD n
  if high < low then .ok .none else .ok (some ((cs.take high.toNat).drop low.toNat))

def affixes (d : Datum) : Except Failure (List (List Char)) :=
  let textOf (d : Datum) : Except Failure (List Char) :=
    match d with
    | text s => .ok s.toList
    | _ => mismatch
  match d with
  | tuple ds => ds.mapM textOf
  | _ => (textOf d).map ([·])

def hasAffix (test : List Char → List Char → Bool) (cs : List Char) (a : Arguments) : Outcome := do
  let places ← a.onlyPlaces
  if 3 < places.length then Failure.badType "wrong arguments"
  else
    match places with
    | [] => Failure.badType "wrong arguments"
    | d :: bounds => do
      let parts ← affixes d
      match ← window cs bounds[0]? bounds[1]? with
      | some part => .ok (bool (parts.any fun p => test p part))
      | .none => .ok (bool false)

def stripped (left right : Bool) (keep : Char → Bool) (cs : List Char) : List Char :=
  let cs := if left then cs.dropWhile keep else cs
  if right then (cs.reverse.dropWhile keep).reverse else cs

def strip (left right : Bool) (cs : List Char) (a : Arguments) : Outcome := do
  match ← a.onlyPlaces with
  | [] | [none] => .ok (ofChars (stripped left right Text.isBlank cs))
  | [text s] => .ok (ofChars (stripped left right s.toList.contains cs))
  | _ => Failure.badType "wrong arguments"

/-- Runs between blanks; after `count` of them the rest stays whole. -/
def splitBlank : Nat → Option Nat → List Char → List (List Char)
  | 0, _, _ => []
  | steps + 1, count, cs =>
    let cs := cs.dropWhile Text.isBlank
    if cs.isEmpty then []
    else
      match count with
      | some 0 => [cs]
      | _ =>
        cs.takeWhile (fun c => !Text.isBlank c)
          :: splitBlank steps (count.map (· - 1)) (cs.dropWhile fun c => !Text.isBlank c)

/-- Cut at each separator, at most `count` times; `part` is the part read so far, reversed. -/
def splitAt (separator : List Char) : Nat → Option Nat → List Char → List Char → List (List Char)
  | 0, _, part, cs => [part.reverse ++ cs]
  | steps + 1, count, part, cs =>
    if count = some 0 then [part.reverse ++ cs]
    else if separator.isPrefixOf cs then
      part.reverse :: splitAt separator steps (count.map (· - 1)) [] (cs.drop separator.length)
    else
      match cs with
      | [] => [part.reverse]
      | c :: rest => splitAt separator steps count (c :: part) rest

def countOf (d : Option Datum) : Except Failure (Option Nat) :=
  match d with
  | .none => .ok .none
  | some d =>
    match d.whole? with
    | some n => .ok (if n < 0 then .none else some n.toNat)
    | .none => mismatch

def split (cs : List Char) (a : Arguments) : Outcome := do
  match ← a.bind ["sep", "maxsplit"] with
  | [sep, count] => do
    let count ← countOf count
    match sep.getD none with
    | none => .ok (list ((splitBlank (cs.length + 1) count cs).map ofChars))
    | text s =>
      if s = "" then Failure.badValue "empty separator"
      else .ok (list ((splitAt s.toList (cs.length + 1) count [] cs).map ofChars))
    | _ => mismatch
  | _ => mismatch

/-- Replace parts of a text, at most `count` times. An empty part is found before every character
and at the end. -/
def replaceIn (old new : List Char) : Nat → Option Nat → List Char → List Char
  | 0, _, cs => cs
  | steps + 1, count, cs =>
    if count = some 0 then cs
    else if old.isEmpty then
      match cs with
      | [] => new
      | c :: rest => new ++ c :: replaceIn old new steps (count.map (· - 1)) rest
    else if old.isPrefixOf cs then
      new ++ replaceIn old new steps (count.map (· - 1)) (cs.drop old.length)
    else
      match cs with
      | [] => []
      | c :: rest => c :: replaceIn old new steps count rest

def replace (cs : List Char) (a : Arguments) : Outcome := do
  match ← a.onlyPlaces with
  | [text old, text new] => .ok (ofChars (replaceIn old.toList new.toList (cs.length + 1) .none cs))
  | [text old, text new, n] => do
    .ok (ofChars (replaceIn old.toList new.toList (cs.length + 1) (← countOf (some n)) cs))
  | _ => mismatch

def occurrences (part cs : List Char) : Nat :=
  if part.isEmpty then cs.length + 1 else (splitAt part (cs.length + 1) .none [] cs).length - 1

def joinTexts (separator : List Char) (a : Arguments) : Outcome := do
  match ← a.onlyPlaces with
  | [d] => do
    let parts ← (← d.allItems).mapM fun x => match x with
      | text s => .ok s.toList
      | _ => mismatch
    .ok (ofChars (separator.intercalate parts))
  | _ => mismatch

def callText (s : String) (name : String) (a : Arguments) : Outcome :=
  let cs := s.toList
  let nullary (d : Datum) : Outcome :=
    if a.places.isEmpty && a.names.isEmpty then .ok d else Failure.badType "wrong arguments"
  match name with
  | "upper" => nullary (text (Text.upper s))
  | "lower" => nullary (text (Text.lower s))
  | "startswith" => hasAffix (fun p cs => p.isPrefixOf cs) cs a
  | "endswith" => hasAffix (fun p cs => p.isSuffixOf cs) cs a
  | "strip" => strip true true cs a
  | "lstrip" => strip true false cs a
  | "rstrip" => strip false true cs a
  | "split" => split cs a
  | "replace" => replace cs a
  | "join" => joinTexts cs a
  | "count" =>
    match a.names, a.places with
    | [], [text t] => .ok (int (occurrences t.toList cs))
    | _, _ => mismatch
  | "isdigit" => nullary (bool (!cs.isEmpty && cs.all Text.isDigit))
  | _ => Failure.badType "unsupported member"

def textMembers : List String :=
  ["capitalize", "casefold", "center", "count", "encode", "endswith", "expandtabs", "find", "format", "format_map",
   "index", "isalnum", "isalpha", "isascii", "isdecimal", "isdigit", "isidentifier", "islower", "isnumeric",
   "isprintable", "isspace", "istitle", "isupper", "join", "ljust", "lower", "lstrip", "maketrans", "partition",
   "removeprefix", "removesuffix", "replace", "rfind", "rindex", "rjust", "rpartition", "rsplit", "rstrip",
   "split", "splitlines", "startswith", "strip", "swapcase", "title", "translate", "upper", "zfill"]

/-! Members of collections -/

def callTable (entries : List (Datum × Datum)) (name : String) (a : Arguments) : Outcome := do
  match name, ← a.onlyPlaces with
  | "get", [key] | "get", [key, _] =>
    if !key.hashable then unhashable
    else
      match entries.find? fun e => same e.1 key with
      | some e => .ok e.2
      | .none => .ok (a.places[1]?.getD none)
  | "keys", [] => .ok (set (entries.map Prod.fst))
  | "values", [] => .ok (list (entries.map Prod.snd))
  | "items", [] => .ok (list (entries.map fun e => tuple [e.1, e.2]))
  | "copy", [] => .ok (table entries)
  | _, _ => Failure.badType "unsupported member"

def tableMembers : List String :=
  ["clear", "copy", "fromkeys", "get", "items", "keys", "pop", "popitem", "setdefault", "update", "values"]

def callSequence (xs : List Datum) (name : String) (a : Arguments) : Outcome := do
  match name, ← a.onlyPlaces with
  | "count", [x] => .ok (int (xs.filter (same x)).length)
  | "index", [x] =>
    match xs.findIdx? (same x) with
    | some i => .ok (int i)
    | .none => Failure.badValue "not in list"
  | _, _ => Failure.badType "unsupported member"

def listMembers : List String :=
  ["append", "clear", "copy", "count", "extend", "index", "insert", "pop", "remove", "reverse", "sort"]

def tupleMembers : List String :=
  ["count", "index"]

def setMembers : List String :=
  ["add", "clear", "copy", "difference", "difference_update", "discard", "intersection", "intersection_update",
   "isdisjoint", "issubset", "issuperset", "pop", "remove", "symmetric_difference",
   "symmetric_difference_update", "union", "update"]

/-! Members of numbers -/

def wholeMembers : List String :=
  ["as_integer_ratio", "bit_count", "bit_length", "conjugate", "from_bytes", "to_bytes"]

def floatMembers : List String :=
  ["as_integer_ratio", "conjugate", "fromhex", "hex", "is_integer"]

/-- The parts of a number: of a whole one its fraction too. -/
def numberPart? (d : Datum) (name : String) : Option Datum :=
  match d, d.whole? with
  | _, some n =>
    match name with
    | "real" | "numerator" => some (int n)
    | "imag" => some (int 0)
    | "denominator" => some (int 1)
    | _ => .none
  | float x, .none =>
    match name with
    | "real" => some (float x)
    | "imag" => some (float 0)
    | _ => .none
  | complex re im, .none =>
    match name with
    | "real" => some (float re)
    | "imag" => some (float im)
    | _ => .none
  | _, .none => .none

def memberNames : Datum → List String
  | text _ => textMembers
  | table _ => tableMembers
  | list _ => listMembers
  | tuple _ => tupleMembers
  | set _ => setMembers
  | bool _ | int _ => wholeMembers
  | float _ => floatMembers
  | complex _ _ => ["conjugate"]
  | _ => []

/-- What can be asked of the kind of a datum. -/
def kindPart? (name : String) : Datum → Option Datum
  | builtin kind =>
    match name with
    | "__name__" => some (text kind)
    | "__bases__" => some (tuple [builtin "object"])
    | "__mro__" => some (tuple [builtin kind, builtin "object"])
    | "__subclasses__" => some (method (builtin kind) name)
    | _ => .none
  | _ => .none

def member (d : Datum) (name : String) : Outcome :=
  match d.numberPart? name <|> kindPart? name d with
  | some part => .ok part
  | .none =>
    if name = "__class__" then .ok (builtin d.kind)
    else if d.memberNames.contains name then .ok (method d name)
    else .error ⟨.noAttribute, name⟩

def callMethod (self : Datum) (name : String) (a : Arguments) : Outcome :=
  match self with
  | text s => callText s name a
  | table es => callTable es name a
  | list xs | tuple xs => callSequence xs name a
  | float x =>
    if name = "is_integer" then .ok (bool (Decimal.isFinite x && Float.floor x == x))
    else Failure.badType "unsupported member"
  | builtin _ => .ok (list [builtin "type"])
  | _ => Failure.badType "unsupported member"

end Flowgraph.Datum
