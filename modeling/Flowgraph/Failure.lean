/-! Failures of evaluation: what kind of thing went wrong, and its text. -/

namespace Flowgraph

namespace Failure

inductive Kind where
  | badValue
  | badType
  | noAttribute
  | noKey
  | badIndex
  | noName
  | zeroDivision
  | overflow
  | runtime
  /-- What was being done has been cancelled. -/
  | cancelled
  deriving DecidableEq, Repr

def Kind.label : Kind → String
  | badValue => "ValueError"
  | badType => "TypeError"
  | noAttribute => "AttributeError"
  | noKey => "KeyError"
  | badIndex => "IndexError"
  | noName => "NameError"
  | zeroDivision => "ZeroDivisionError"
  | overflow => "OverflowError"
  | runtime => "RuntimeError"
  | cancelled => "CancelledError"

end Failure

structure Failure where
  kind : Failure.Kind
  message : String
  deriving DecidableEq, Repr

namespace Failure

/-- The message, or the kind when there is none. -/
def describe (f : Failure) : String :=
  if f.message = "" then f.kind.label else f.message

def badValue {α : Type} (message : String) : Except Failure α :=
  .error ⟨.badValue, message⟩

def badType {α : Type} (message : String) : Except Failure α :=
  .error ⟨.badType, message⟩

end Failure

end Flowgraph
