import Flowgraph.Decimal.Notation
import Flowgraph.Text.Quoted
import Flowgraph.Value

/-! The text of a value: its literal form, in which texts are quoted, and its display form,
in which a text stands for itself. -/

namespace Flowgraph

def boolText (b : Bool) : String :=
  if b then "True" else "False"

namespace Value

mutual

def literal : Value → String
  | null => "None"
  | bool b => boolText b
  | int n => toString n
  | float x => Decimal.render x
  | text s => Text.quoted s
  | list items => "[" ++ literalItems items ++ "]"
  | object fields => "\x7b" ++ literalFields fields ++ "\x7d"

def literalItems : List Value → String
  | [] => ""
  | [v] => literal v
  | v :: rest => literal v ++ ", " ++ literalItems rest

def literalFields : List (String × Value) → String
  | [] => ""
  | [(key, v)] => Text.quoted key ++ ": " ++ literal v
  | (key, v) :: rest => Text.quoted key ++ ": " ++ literal v ++ ", " ++ literalFields rest

end

/-- The form used where a value is inserted into text. -/
def display : Value → String
  | text s => s
  | v => literal v

end Value

end Flowgraph
