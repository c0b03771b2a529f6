import Flowgraph.Value.Collect
import Flowgraph.Value.Literal

/-! Issues found while a payload is read, and readings that collect all of them. -/

namespace Flowgraph

/-- One step of the way to the offending part of a payload. -/
inductive Segment where
  | field (name : String)
  | item (index : Nat)
  deriving DecidableEq, Repr

def Segment.text : Segment → String
  | field name => name
  | item index => toString index

/-- What is wrong with a part of a payload. -/
inductive Problem where
  | missing
  | notText
  | tooShort (minimum : Nat)
  | notInteger
  | integerSyntax
  | integerTooLong
  | fractional
  | notFinite
  | notFloat
  | floatSyntax
  | notBoolean
  | booleanSyntax
  | notObject
  | notRecord (model : String)
  | notFields
  | notList
  | notMember (names : List String)
  | notAbove (bound : Int)
  | below (bound : Int)
  | notMoment
  | momentSyntax (reason : String)
  | countSyntax (reason : String)
  | rule (reason : String)
  deriving DecidableEq, Repr

/-- Alternatives in quotes, the last one joined by `or`. -/
def alternatives : List String → String
  | [] => ""
  | [a] => "'" ++ a ++ "'"
  | [a, b] => "'" ++ a ++ "' or '" ++ b ++ "'"
  | a :: rest => "'" ++ a ++ "', " ++ alternatives rest

namespace Problem

def code : Problem → String
  | missing => "missing"
  | notText => "string_type"
  | tooShort _ => "string_too_short"
  | notInteger => "int_type"
  | integerSyntax => "int_parsing"
  | integerTooLong => "int_parsing_size"
  | fractional => "int_from_float"
  | notFinite => "finite_number"
  | notFloat => "float_type"
  | floatSyntax => "float_parsing"
  | notBoolean => "bool_type"
  | booleanSyntax => "bool_parsing"
  | notObject => "dict_type"
  | notRecord _ => "model_type"
  | notFields => "model_attributes_type"
  | notList => "list_type"
  | notMember _ => "enum"
  | notAbove _ => "greater_than"
  | below _ => "greater_than_equal"
  | notMoment => "datetime_type"
  | momentSyntax _ => "datetime_from_date_parsing"
  | countSyntax _ => "datetime_parsing"
  | rule _ => "value_error"

def message : Problem → String
  | missing => "Field required"
  | notText => "Input should be a valid string"
  | tooShort n =>
    "String should have at least " ++ toString n ++ (if n = 1 then " character" else " characters")
  | notInteger => "Input should be a valid integer"
  | integerSyntax => "Input should be a valid integer, unable to parse string as an integer"
  | integerTooLong => "Unable to parse input string as an integer, exceeded maximum size"
  | fractional => "Input should be a valid integer, got a number with a fractional part"
  | notFinite => "Input should be a finite number"
  | notFloat => "Input should be a valid number"
  | floatSyntax => "Input should be a valid number, unable to parse string as a number"
  | notBoolean => "Input should be a valid boolean"
  | booleanSyntax => "Input should be a valid boolean, unable to interpret input"
  | notObject => "Input should be a valid dictionary"
  | notRecord model => "Input should be a valid dictionary or instance of " ++ model
  | notFields => "Input should be a valid dictionary or object to extract fields from"
  | notList => "Input should be a valid list"
  | notMember names => "Input should be " ++ alternatives names
  | notAbove n => "Input should be greater than " ++ toString n
  | below n => "Input should be greater than or equal to " ++ toString n
  | notMoment => "Input should be a valid datetime"
  | momentSyntax reason => "Input should be a valid datetime or date, " ++ reason
  | countSyntax reason => "Input should be a valid datetime, " ++ reason
  | rule reason => "Value error, " ++ reason

/-- What a problem's message mentions, by name. -/
def particulars : Problem → Fields
  | tooShort n => [("min_length", .ofNat n)]
  | notRecord model => [("class_name", .text model)]
  | notMember names => [("expected", .text (alternatives names))]
  | notAbove n => [("gt", .int n)]
  | below n => [("ge", .int n)]
  | momentSyntax reason | countSyntax reason => [("error", .text reason)]
  | rule _ => [("error", .object [])]
  | _ => []

end Problem

structure Issue where
  location : List Segment
  problem : Problem
  /-- The offending part, as it was given. -/
  input : Value

namespace Issue

def under (segment : Segment) (i : Issue) : Issue :=
  { i with location := segment :: i.location }

/-- The location as one text, its segments joined by points. -/
def path (i : Issue) : String :=
  ".".intercalate (i.location.map Segment.text)

/-- The leading characters that fit in so many bytes. -/
def fitting (room : Nat) : List Char → List Char
  | [] => []
  | c :: rest => if c.utf8Size ≤ room then c :: fitting (room - c.utf8Size) rest else []

/-- A text of more than fifty bytes is shown by its ends. -/
def abridged (s : String) : String :=
  if s.utf8ByteSize ≤ 50 then s
  else
    String.ofList (fitting 25 s.toList) ++ "..." ++ String.ofList (fitting 24 s.toList.reverse).reverse

/-- The lines about an issue: where it is, what is wrong there with which part, and the page of the
manual about such problems. -/
def lines (manual : String) (i : Issue) : List String :=
  (if i.location.isEmpty then [] else [i.path])
    ++ ["  " ++ i.problem.message ++ " [type=" ++ i.problem.code
          ++ ", input_value=" ++ abridged i.input.literal ++ ", input_type=" ++ i.input.kindName ++ "]",
        "    For further information visit " ++ manual ++ i.problem.code]

/-- The message of the first issue. -/
def firstMessage (issues : List Issue) : String :=
  (issues.head?.map fun i => i.problem.message).getD ""

end Issue

/-- The outcome of reading a payload: what was read, or every issue in order. -/
inductive Reading (α : Type) where
  | accepted (a : α)
  | rejected (issues : List Issue)

namespace Reading

variable {α β : Type}

def reject (problem : Problem) (input : Value) : Reading α :=
  rejected [⟨[], problem, input⟩]

def map (f : α → β) : Reading α → Reading β
  | accepted a => accepted (f a)
  | rejected issues => rejected issues

/-- Both parts are read, and the issues of both are kept. -/
def apply (f : Reading (α → β)) (x : Reading α) : Reading β :=
  match f, x with
  | accepted g, accepted a => accepted (g a)
  | accepted _, rejected issues => rejected issues
  | rejected issues, accepted _ => rejected issues
  | rejected first, rejected second => rejected (first ++ second)

/-- A check on what was read. -/
def andThen (x : Reading α) (f : α → Reading β) : Reading β :=
  match x with
  | accepted a => f a
  | rejected issues => rejected issues

def under (segment : Segment) : Reading α → Reading α
  | accepted a => accepted a
  | rejected issues => rejected (issues.map (Issue.under segment))

def value? : Reading α → Option α
  | accepted a => some a
  | rejected _ => none

def issues : Reading α → List Issue
  | accepted _ => []
  | rejected issues => issues

instance : Applicative Reading where
  pure := accepted
  seq f x := apply f (x ())

@[simp] theorem map_eq (f : α → β) (x : Reading α) : f <$> x = apply (accepted f) x := rfl

@[simp] theorem seq_eq (f : Reading (α → β)) (x : Reading α) : f <*> x = apply f x := rfl

theorem apply_eq_accepted {f : Reading (α → β)} {x : Reading α} {b : β} :
    apply f x = accepted b ↔ ∃ g a, f = accepted g ∧ x = accepted a ∧ g a = b := by
  cases f <;> cases x <;> simp [apply]

theorem andThen_eq_accepted {x : Reading α} {f : α → Reading β} {b : β} :
    andThen x f = accepted b ↔ ∃ a, x = accepted a ∧ f a = accepted b := by
  cases x <;> simp [andThen]

theorem under_eq_accepted {s : Segment} {x : Reading α} {a : α} :
    under s x = accepted a ↔ x = accepted a := by
  cases x <;> simp [under]

end Reading

end Flowgraph
