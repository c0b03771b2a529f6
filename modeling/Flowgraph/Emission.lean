import Flowgraph.Backoff
import Flowgraph.Dependency
import Flowgraph.Policy

/-! What it takes to emit a workflow in another form, and what comes of it. -/

namespace Flowgraph

structure Emitter where
  registry : Registry
  /-- Milliseconds for steps to which nothing else gives a time limit. -/
  defaultTimeout : Int := Policy.standardTimeout
  retryBase : Number := Backoff.standardBase
  retryCeiling : Number := Backoff.standardCeiling

/-- The form that was emitted, or what stood in the way. -/
structure Emission (α : Type) where
  form : Option α
  errors : List String := []
  warnings : List String := []

namespace Emission

def refused {α : Type} (errors : List String) : Emission α :=
  { form := none, errors }

def toWire {α : Type} (formName : String) (formValue : α → Value) (e : Emission α) : Value :=
  let form := e.form.map fun a => (formName, formValue a)
  .object <|
    ("success", .bool e.form.isSome) :: form.toList
      ++ [("errors", .ofTexts e.errors), ("warnings", .ofTexts e.warnings)]

end Emission

end Flowgraph
