import Flowgraph.Table

/-! The data that flows through a workflow: inputs, outputs, variables and the payloads
they are read from. Whole numbers are unbounded and are told apart from floating-point ones. -/

namespace Flowgraph

inductive Value where
  | null
  | bool (b : Bool)
  | int (n : Int)
  | float (x : Float)
  | text (s : String)
  | list (items : List Value)
  | object (fields : List (String × Value))
  deriving Inhabited

/-- The fields of an object, in order. -/
abbrev Fields := Table Value

namespace Value

def isNull : Value → Bool
  | null => true
  | _ => false

/-- Emptiness and zero count as false, everything else as true. -/
def truthy : Value → Bool
  | null => false
  | bool b => b
  | int n => n ≠ 0
  | float x => x != 0
  | text s => s ≠ ""
  | list items => !items.isEmpty
  | object fields => !fields.isEmpty

def fields? : Value → Option Fields
  | object fields => some fields
  | _ => none

def items? : Value → Option (List Value)
  | list items => some items
  | _ => none

def text? : Value → Option String
  | text s => some s
  | _ => none

/-- A field of an object; none for every other value. -/
def field? (v : Value) (key : String) : Option Value :=
  v.fields?.bind (Table.get? · key)

def ofOption (toValue : α → Value) : Option α → Value
  | none => null
  | some a => toValue a

def ofTexts (texts : List String) : Value :=
  list (texts.map text)

def ofNat (n : Nat) : Value :=
  int n

end Value

end Flowgraph
