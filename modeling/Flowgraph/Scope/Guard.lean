import Flowgraph.Expression.Eval
import Flowgraph.Scope.Reference

/-! Guards: expressions about the variables of a run. References between double braces become
names of their own, which stand for the values they lead to. -/

namespace Flowgraph

/-- A language of expressions about objects. An expression sees its names, functions among them, and the context;
it may change what it sees, and whether it is true is left open if it cannot be evaluated. -/
structure Language (α : Type) where
  functions : List String
  null : α
  run : (String → Option (String ⊕ α)) → String → Context α → Option Bool × Context α

/-- The name that stands for the reference number `n`. -/
def placeholder (n : Nat) : String :=
  "__ref" ++ toString n

namespace Context

variable {α : Type}

/-- The source with placeholders for references, and what each stands for. -/
def bindReferences (c : Context α) (null : α) (node : Option String) (bound : Table α) :
    List Template.Part → Except Failure (String × Table α)
  | [] => .ok ("", bound)
  | .plain cs :: rest => do
    let (tail, bound) ← bindReferences c null node bound rest
    pure (String.ofList cs ++ tail, bound)
  | .reference path :: rest => do
    let x := (← c.resolvePath node path).getD null
    let name := placeholder bound.length
    let (tail, bound) ← bindReferences c null node (bound ++ [(name, x)]) rest
    pure (name ++ tail, bound)

/-- Names of functions come before placeholders, and those before variables. -/
def visible (functions : List String) (bound names : Table α) (name : String) : Option (String ⊕ α) :=
  if functions.contains name then some (.inl name)
  else ((bound.get? name) <|> (names.get? name)).map .inr

/-- Whether a guard holds, and the context that is left. A blank guard holds; one that cannot be evaluated does
not. -/
def evaluate (c : Context α) (l : Language α) (node : Option String) (expression : String) :
    Except Failure Bool × Context α :=
  if Text.allBlank expression then (.ok true, c)
  else
    match c.bindReferences l.null node [] (Template.parts expression) with
    | .error f => (.error f, c)
    | .ok (source, bound) =>
      let (holds, left) := l.run (visible l.functions bound (c.names node)) source c
      (.ok (holds.getD false), left)

end Context

namespace Expression

def seen (names : String → Option (String ⊕ Value)) : Names :=
  fun name => (names name).map (Sum.elim .builtin Datum.ofValue)

/-- The expressions that runs evaluate. None of them changes anything. -/
def language : Language Value where
  functions := Datum.functionNames
  null := .null
  run names source c := ((evaluate (seen names) source).map Datum.truthy, c)

end Expression

/-- Whether a guard holds in a run. -/
def Scope.evaluate (s : Scope) (node : Option String) (expression : String) : Except Failure Bool :=
  (s.context.evaluate Expression.language node expression).1

end Flowgraph
