import Flowgraph.Failure
import Flowgraph.Value

/-! Values as sequences and as tables. A text is the sequence of its characters and an object that
of its keys; a sequence of pairs is a table. -/

namespace Flowgraph.Value

/-- The kind of a value, as it is named in messages and documents. -/
def kindName : Value → String
  | null => "NoneType"
  | bool _ => "bool"
  | int _ => "int"
  | float _ => "float"
  | text _ => "str"
  | list _ => "list"
  | object _ => "dict"

/-- The members of a value; none when it is no sequence. -/
def members? : Value → Option (List Value)
  | list items => some items
  | text s => some (s.toList.map fun c => text (String.singleton c))
  | object fields => some (fields.map fun entry => text entry.1)
  | _ => none

def members (v : Value) : Except Failure (List Value) :=
  match v.members? with
  | some items => .ok items
  | none => Failure.badType ("'" ++ v.kindName ++ "' object is not iterable")

/-- One member of a sequence of pairs, written into a table. A key that is neither a text nor a
collection can be written, but is never looked up. -/
def addPair (t : Fields) (index : Nat) (v : Value) : Except Failure Fields :=
  match v.members? with
  | none =>
    Failure.badType
      ("cannot convert dictionary update sequence element #" ++ toString index ++ " to a sequence")
  | some [text key, value] => .ok (t.set key value)
  | some [list _, _] => Failure.badType "unhashable type: 'list'"
  | some [object _, _] => Failure.badType "unhashable type: 'dict'"
  | some [_, _] => .ok t
  | some items =>
    Failure.badValue
      ("dictionary update sequence element #" ++ toString index ++ " has length "
        ++ toString items.length ++ "; 2 is required")

def pairs : Fields → Nat → List Value → Except Failure Fields
  | t, _, [] => .ok t
  | t, index, v :: rest => do pairs (← addPair t index v) (index + 1) rest

/-- A value as a table; what counts as false is the empty one. -/
def entries (v : Value) : Except Failure Fields :=
  match v with
  | object fields => .ok fields
  | _ => if v.truthy then do pairs [] 0 (← v.members) else .ok []

end Flowgraph.Value
