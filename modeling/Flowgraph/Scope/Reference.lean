import Flowgraph.Decimal.Numeral
import Flowgraph.Scope
import Flowgraph.Text.Blank
import Flowgraph.Text.Digit
import Flowgraph.Value.Literal

/-! References to variables: dotted paths, and paths between double braces inside text. A text
that is one reference stands for the value itself; in longer texts values are inserted as text. -/

namespace Flowgraph

namespace Scope

/-- The parts of a dotted path; empty ones are left out. -/
def pathParts (path : String) : List String :=
  ((Text.trim path).splitOn ".").filter (· ≠ "")

def isIndex (part : String) : Bool :=
  let digits := part.toList.dropWhile (· = '-')
  !digits.isEmpty && digits.all Text.isDigit

def readIndex (part : String) : Except Failure Int :=
  match Decimal.readInteger part.toList with
  | .ok n => .ok n
  | .error .malformed => Failure.badValue ("invalid literal for int() with base 10: " ++ Text.quoted part)
  | .error (.tooLong count) =>
    Failure.badValue
      ("Exceeds the limit (4300 digits) for integer string conversion: value has " ++ toString count
        ++ " digits; use sys.set_int_max_str_digits() to increase the limit")

/-- The named parts of a number. -/
def numberPart? : Value → String → Option Value
  | .int n, "real" | .int n, "numerator" => some (.int n)
  | .int _, "imag" => some (.int 0)
  | .int _, "denominator" => some (.int 1)
  | .bool b, "real" | .bool b, "numerator" => some (.int (if b then 1 else 0))
  | .bool _, "imag" => some (.int 0)
  | .bool _, "denominator" => some (.int 1)
  | .float x, "real" => some (.float x)
  | .float _, "imag" => some (.float 0)
  | _, _ => none

end Scope

/-- What a path finds an object to be. -/
inductive Shape (α : Type) where
  | table (fields : Table α)
  | sequence (items : List α)
  | plain

/-- The objects that paths lead through. What is not found in one by key or index is looked up as a named attribute,
which may be missing, and may fail. -/
structure Objects (α : Type) where
  shape : α → Shape α
  named : α → String → Except Failure (Option α)

namespace Objects

variable {α : Type}

/-- An item by index; negative indexes count from the end. -/
def itemAt? (items : List α) (index : Int) : Option α :=
  let n : Int := items.length
  let place := if index < 0 then index + n else index
  if 0 ≤ place && place < n then items[place.toNat]? else none

/-- One step into an object. What looks like an index of a sequence must be a number. -/
def stepInto (o : Objects α) (part : String) (x : α) : Except Failure (Option α) :=
  match o.shape x with
  | .table fs => .ok (Table.get? fs part)
  | .sequence items =>
    if Scope.isIndex part then (Scope.readIndex part).map (itemAt? items) else o.named x part
  | .plain => o.named x part

def follow (o : Objects α) : Option α → List String → Except Failure (Option α)
  | none, _ => .ok none
  | some x, [] => .ok (some x)
  | some x, part :: rest => do follow o (← o.stepInto part x) rest

end Objects

/-- What guards and references see: where a path starts, the objects it leads through, and the variables by their
names. A step sees its own layer besides. -/
structure Context (α : Type) where
  objects : Objects α
  head? : Option String → String → Option α
  names : Option String → Table α

/-- The object a path leads to, if it leads to one. -/
def Context.resolvePath {α : Type} (c : Context α) (node : Option String) (path : String) :
    Except Failure (Option α) :=
  match Scope.pathParts path with
  | [] => .ok none
  | first :: rest => c.objects.follow (c.head? node first) rest

/-- Of the values only numbers have named attributes. -/
def Value.objects : Objects Value where
  shape
    | .object fs => .table fs
    | .list items => .sequence items
    | _ => .plain
  named v part := .ok (Scope.numberPart? v part)

namespace Scope

/-- Where a path starts. -/
def head? (s : Scope) (node : Option String) : String → Option Value
  | "nodes" => some s.outputsValue
  | "inputs" => some (.object s.inputs)
  | "vars" => some (.object (s.merged node))
  | name => s.lookup? node name

def context (s : Scope) : Context Value :=
  ⟨Value.objects, s.head?, s.names⟩

/-- The value a path leads to, if it leads to one. -/
def resolvePath (s : Scope) (node : Option String) (path : String) : Except Failure (Option Value) :=
  s.context.resolvePath node path

end Scope

/-- A text with references: each run of plain characters or one path. -/
inductive Template.Part where
  | plain (cs : List Char)
  | reference (path : String)
  deriving DecidableEq

namespace Template

/-- A reference at the front: two braces, a path without braces, two braces. -/
def readReference : List Char → Option (String × List Char)
  | '\x7b' :: '\x7b' :: rest =>
    let body := rest.takeWhile fun c => c ≠ '\x7b' && c ≠ '\x7d'
    match rest.drop body.length with
    | '\x7d' :: '\x7d' :: tail =>
      if body.isEmpty then none else some (String.ofList (Text.trimChars body), tail)
    | _ => none
  | _ => none

def consPlain (c : Char) : List Part → List Part
  | .plain cs :: rest => .plain (c :: cs) :: rest
  | parts => .plain [c] :: parts

/-- The parts of a text; `steps` bounds their number. -/
def split : Nat → List Char → List Part
  | 0, _ => []
  | _, [] => []
  | steps + 1, c :: rest =>
    match readReference (c :: rest) with
    | some (path, tail) => .reference path :: split steps tail
    | none => consPlain c (split steps rest)

def parts (text : String) : List Part :=
  split text.length text.toList

/-- The path of a text that is one reference, blanks around it aside. -/
def whole? (text : String) : Option String :=
  match readReference (Text.trim text).toList with
  | some (path, []) => some path
  | _ => none

end Template

namespace Scope

/-- The text inserted for a reference; nothing for an unknown one. -/
def insertedText (s : Scope) (node : Option String) (path : String) : Except Failure String := do
  match ← s.resolvePath node path with
  | some v => pure v.display
  | none => pure ""

def fillPart (s : Scope) (node : Option String) : Template.Part → Except Failure String
  | .plain cs => .ok (String.ofList cs)
  | .reference path => s.insertedText node path

/-- A text with its references replaced. -/
def fillText (s : Scope) (node : Option String) (text : String) : Except Failure Value :=
  match Template.whole? text with
  | some path => do pure ((← s.resolvePath node path).getD .null)
  | none => do
    let texts ← (Template.parts text).mapM (s.fillPart node)
    pure (.text (String.join texts))

mutual

/-- A value with the references in all its texts replaced. -/
def fill (s : Scope) (node : Option String) : Value → Except Failure Value
  | .text t => s.fillText node t
  | .list items => do pure (.list (← fillItems s node items))
  | .object fields => do pure (.object (← fillFields s node fields))
  | v => .ok v

def fillItems (s : Scope) (node : Option String) : List Value → Except Failure (List Value)
  | [] => .ok []
  | v :: rest => do
    let v ← fill s node v
    pure (v :: (← fillItems s node rest))

def fillFields (s : Scope) (node : Option String) :
    List (String × Value) → Except Failure (List (String × Value))
  | [] => .ok []
  | (key, v) :: rest => do
    let v ← fill s node v
    pure ((key, v) :: (← fillFields s node rest))

end

end Scope

end Flowgraph
