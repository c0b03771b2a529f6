/-! The expressions that guard steps and connections: literals, names, operators, comparisons,
calls, subscripts, comprehensions and anonymous functions. -/

namespace Flowgraph

inductive UnaryOp where
  | plus
  | minus
  | invert
  | negation
  deriving DecidableEq, Repr

inductive BinaryOp where
  | add
  | sub
  | mul
  | matMul
  | divide
  | floorDivide
  | modulo
  | power
  | shiftLeft
  | shiftRight
  | bitAnd
  | bitOr
  | bitXor
  deriving DecidableEq, Repr

inductive CompareOp where
  | equal
  | notEqual
  | less
  | lessEqual
  | greater
  | greaterEqual
  | member
  | notMember
  | same
  | notSame
  deriving DecidableEq, Repr

inductive Literal where
  | none
  | bool (b : Bool)
  | int (n : Int)
  | float (x : Float)
  | imaginary (x : Float)
  | text (s : String)
  | bytes (bs : List Nat)
  | ellipsis

/-- Where a comprehension puts the items it goes through. -/
inductive Target where
  | name (s : String)
  | group (parts : List Target)

inductive Parameter where
  /-- Given by place or by name. -/
  | plain
  /-- Takes the places that are left over. -/
  | rest
  /-- Given by name only. -/
  | named
  /-- Takes the names that are left over. -/
  | namedRest
  deriving DecidableEq

inductive Gathering where
  | list
  | set
  | stream
  deriving DecidableEq

inductive Expr where
  | literal (l : Literal)
  | name (s : String)
  | unary (op : UnaryOp) (e : Expr)
  | binary (op : BinaryOp) (a b : Expr)
  | both (a b : Expr)
  | either (a b : Expr)
  | compare (first : Expr) (rest : List (CompareOp × Expr))
  | choose (condition yes no : Expr)
  | tuple (items : List Expr)
  | list (items : List Expr)
  | set (items : List Expr)
  /-- Entries without a key are spread into the table. -/
  | table (entries : List (Option Expr × Expr))
  | item (e index : Expr)
  | slice (low high step : Option Expr)
  | member (e : Expr) (name : String)
  | call (f : Expr) (arguments : List Expr)
  /-- An argument or item that is spread over several places. -/
  | spread (e : Expr)
  | named (name : String) (e : Expr)
  | spreadNamed (e : Expr)
  | function (parameters : List (String × Parameter × Option Expr)) (body : Expr)
  | gather (shape : Gathering) (element : Expr) (clauses : List (Target × Expr × List Expr))
  | gatherTable (key value : Expr) (clauses : List (Target × Expr × List Expr))
  | assign (name : String) (e : Expr)
  | joined (parts : List Expr)
  | formatted (e : Expr) (conversion : Option Char) (spec : Option Expr)

end Flowgraph
