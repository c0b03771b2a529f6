import Flowgraph.Expression.Syntax
import Flowgraph.Number
import Flowgraph.Value.Literal

/-! The values that expressions compute with: the data of a workflow, and what only arises during
evaluation, such as tuples, sets, streams and functions. -/

namespace Flowgraph

inductive Datum where
  | none
  | bool (b : Bool)
  | int (n : Int)
  | float (x : Float)
  | complex (re im : Float)
  | text (s : String)
  | bytes (bs : List Nat)
  | ellipsis
  | list (items : List Datum)
  | tuple (items : List Datum)
  /-- Distinct members in the order in which they came. -/
  | set (items : List Datum)
  | table (entries : List (Datum × Datum))
  /-- The items that a comprehension yields, and the failure that ends it early. -/
  | stream (items : List Datum) (fault : Option Failure)
  | slice (low high step : Datum)
  /-- A function that is known by name. -/
  | builtin (name : String)
  | method (self : Datum) (name : String)
  | function (parameters : List (String × Parameter × Option Datum)) (body : Expr)
      (closure : List (String × Datum))
  deriving Inhabited

namespace Datum

mutual

def ofValue : Value → Datum
  | .null => none
  | .bool b => bool b
  | .int n => int n
  | .float x => float x
  | .text s => text s
  | .list items => list (ofItems items)
  | .object fields => table (ofFields fields)

def ofItems : List Value → List Datum
  | [] => []
  | v :: rest => ofValue v :: ofItems rest

def ofFields : List (String × Value) → List (Datum × Datum)
  | [] => []
  | (key, v) :: rest => (text key, ofValue v) :: ofFields rest

end

def ofLiteral : Literal → Datum
  | .none => none
  | .bool b => bool b
  | .int n => int n
  | .float x => float x
  | .imaginary x => complex 0 x
  | .text s => text s
  | .bytes bs => bytes bs
  | .ellipsis => ellipsis

/-- What kind of thing a datum is, for messages. -/
def kind : Datum → String
  | none => "NoneType"
  | bool _ => "bool"
  | int _ => "int"
  | float _ => "float"
  | complex _ _ => "complex"
  | text _ => "str"
  | bytes _ => "bytes"
  | ellipsis => "ellipsis"
  | list _ => "list"
  | tuple _ => "tuple"
  | set _ => "set"
  | table _ => "dict"
  | stream _ _ => "generator"
  | slice _ _ _ => "slice"
  | builtin _ => "builtin_function_or_method"
  | method _ _ => "builtin_function_or_method"
  | function _ _ _ => "function"

/-- Emptiness and zero are false, everything else is true. -/
def truthy : Datum → Bool
  | none => false
  | bool b => b
  | int n => n ≠ 0
  | float x => x != 0
  | complex re im => re != 0 || im != 0
  | text s => s ≠ ""
  | bytes bs => !bs.isEmpty
  | list items | tuple items | set items => !items.isEmpty
  | table entries => !entries.isEmpty
  | _ => true

/-- Booleans count as the numbers zero and one. -/
def number? : Datum → Option Number
  | bool b => some (.int (if b then 1 else 0))
  | int n => some (.int n)
  | float x => some (.float x)
  | _ => .none

def ofNumber : Number → Datum
  | .int n => int n
  | .float x => float x

/-- Whole numbers, booleans among them. -/
def whole? : Datum → Option Int
  | bool b => some (if b then 1 else 0)
  | int n => some n
  | _ => .none

def isComplex : Datum → Bool
  | complex _ _ => true
  | _ => false

/-- Real and imaginary part of a number. -/
def complex? (d : Datum) : Option (Float × Float) :=
  match d with
  | complex re im => some (re, im)
  | _ =>
    match d.number? with
    | some n =>
      match n.toFloat with
      | .ok x => some (x, 0)
      | .error _ => .none
    | .none => .none

mutual

/-- Equality of values; numbers are compared across their kinds. -/
def same : Datum → Datum → Bool
  | text s, text t => s = t
  | bytes a, bytes b => a = b
  | none, none => true
  | ellipsis, ellipsis => true
  | list xs, list ys => sameItems xs ys
  | tuple xs, tuple ys => sameItems xs ys
  | set xs, set ys => xs.length = ys.length && allWithin xs ys
  | table xs, table ys => xs.length = ys.length && allEntriesWithin xs ys
  | builtin a, builtin b => a = b
  | method x a, method y b => a = b && same x y
  | slice a b c, other =>
    match other with
    | slice x y z => same a x && same b y && same c z
    | _ => false
  | a, b =>
    match a.number?, b.number? with
    | some x, some y => x.equal y
    | _, _ =>
      if a.isComplex || b.isComplex then
        match a.complex?, b.complex? with
        | some (r, i), some (s, j) => r == s && i == j
        | _, _ => false
      else false

def sameItems : List Datum → List Datum → Bool
  | [], [] => true
  | x :: xs, y :: ys => same x y && sameItems xs ys
  | _, _ => false

def allWithin : List Datum → List Datum → Bool
  | [], _ => true
  | x :: xs, ys => ys.any (fun y => same x y) && allWithin xs ys

def allEntriesWithin : List (Datum × Datum) → List (Datum × Datum) → Bool
  | [], _ => true
  | (k, v) :: rest, ys =>
    ys.any (fun entry => same k entry.1 && same v entry.2) && allEntriesWithin rest ys

end

end Datum

end Flowgraph
