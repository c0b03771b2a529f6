import Flowgraph.Policy
import Flowgraph.Text.Quoted
import Flowgraph.Value.Literal

/-! The part of an emitted program that decides whether a step runs: statements over the state of
a run, and their lines. -/

namespace Flowgraph.Program

inductive Test where
  | aborted
  | succeeded (id : String)
  | failed (id : String)
  | refuted (expression : String)
  | unsatisfied
  deriving DecidableEq, Repr

inductive Statement where
  | ifHolds (test : Test) (body : List Statement)
  | setSatisfied (value : Bool)
  | skip (id : String)
  | leave
  /-- Call the step and record how it ended. -/
  | call (identifier id : String) (contained : Bool)

def Test.text : Test → String
  | aborted => "state.aborted"
  | succeeded id => "state.succeeded(" ++ Text.quoted id ++ ")"
  | failed id => "state.failed(" ++ Text.quoted id ++ ")"
  | refuted expression => "not state.check(" ++ Text.quoted expression ++ ")"
  | unsatisfied => "not satisfied"

def indent (depth : Nat) (line : String) : String :=
  String.ofList (List.replicate (4 * depth) ' ') ++ line

mutual

def Statement.lines (depth : Nat) : Statement → List String
  | .ifHolds test body => indent depth ("if " ++ test.text ++ ":") :: linesOf (depth + 1) body
  | .setSatisfied value => [indent depth ("satisfied = " ++ boolText value)]
  | .skip id => [indent depth ("state.skip(" ++ Text.quoted id ++ ")")]
  | .leave => [indent depth "return"]
  | .call identifier id contained =>
    [indent depth "try:",
     indent (depth + 1)
       ("state.record(" ++ Text.quoted id ++ ", await node_" ++ identifier ++ "(state))"),
     indent depth "except Exception as exc:",
     indent (depth + 1)
       ("state.fail(" ++ Text.quoted id ++ ", exc, contained=" ++ boolText contained ++ ")")]

def linesOf (depth : Nat) : List Statement → List String
  | [] => []
  | s :: rest => s.lines depth ++ linesOf depth rest

end

/-- Skip a step and be done. -/
def skipAndLeave (id : String) : List Statement :=
  [.skip id, .leave]

/-- What one incoming connection contributes. -/
def edgeStatement (id : String) (e : Edge) : Statement :=
  if e.type = .error then .ifHolds (.failed e.source) [.setSatisfied true]
  else
    match e.guard? with
    | some expression =>
      .ifHolds (.succeeded e.source)
        [.ifHolds (.refuted expression) (skipAndLeave id), .setSatisfied true]
    | none => .ifHolds (.succeeded e.source) [.setSatisfied true]

/-- Whether some path has led to a step: nothing to decide for one without connections. -/
def pathStatements (id : String) (incoming : List Edge) : List Statement :=
  if incoming.isEmpty then []
  else
    .setSatisfied false :: incoming.map (edgeStatement id)
      ++ [.ifHolds .unsatisfied (skipAndLeave id)]

def guardStatements (n : Node) : List Statement :=
  match n.guard? with
  | some expression => [.ifHolds (.refuted expression) (skipAndLeave n.id)]
  | none => []

/-- All that stands before the call of a step, and the call. -/
def stepStatements (w : Workflow) (g : Graph) (n : Node) (identifier : String) : List Statement :=
  .ifHolds .aborted (skipAndLeave n.id) :: pathStatements n.id (g.incoming n.id)
    ++ guardStatements n ++ [.call identifier n.id (Policy.contains w g n)]

end Flowgraph.Program
