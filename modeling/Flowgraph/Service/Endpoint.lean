/-! The endpoints of the service: which method and path leads where. -/

namespace Flowgraph

inductive Endpoint where
  | generate
  | createWorkflow
  | listWorkflows
  | workflow (id : String)
  | validate
  | edit (id : String)
  | run (id : String)
  | runsOf (id : String)
  | execution (id : String)
  | cancel (id : String)
  | compile (id : String)
  | capabilities
  | root
  | health
  deriving DecidableEq, Repr

namespace Endpoint

/-- The parts of a path, between its slashes. -/
def partsOf (path : String) : List String :=
  ((path.toList.splitOn '/').map String.ofList).drop 1

/-- The endpoints at a path, with the methods for them, in the order in which they are tried. -/
def at_ (path : String) : List (String × Endpoint) :=
  match partsOf path with
  | ["api", "v1", "workflows"] => [("POST", createWorkflow), ("GET", listWorkflows)]
  | ["api", "v1", "workflows", id] =>
    if id = "" then []
    else
      (if id = "generate" then [("POST", generate)] else [])
        ++ [("GET", workflow id)]
        ++ (if id = "validate" then [("POST", validate)] else [])
  | ["api", "v1", "workflows", id, what] =>
    if id = "" then []
    else
      match what with
      | "edit" => [("POST", edit id)]
      | "run" => [("POST", run id)]
      | "executions" => [("GET", runsOf id)]
      | "compile" => [("POST", compile id)]
      | _ => []
  | ["api", "v1", "executions", id] => if id = "" then [] else [("GET", execution id)]
  | ["api", "v1", "executions", id, "cancel"] => if id = "" then [] else [("POST", cancel id)]
  | ["api", "v1", "capabilities"] => [("GET", capabilities)]
  | [""] => [("GET", root)]
  | ["health"] => [("GET", health)]
  | _ => []

/-- What a method and a path lead to. -/
inductive Match where
  | found (e : Endpoint)
  | wrongMethod
  /-- The path leads somewhere when slashes are taken from its end, or one is added. -/
  | elsewhere
  | nowhere

def otherSpelling (path : String) : String :=
  if path.endsWith "/" then String.ofList (path.toList.reverse.dropWhile (· = '/')).reverse else path ++ "/"

def find (method path : String) : Match :=
  match at_ path with
  | [] => if path ≠ "/" && !(at_ (otherSpelling path)).isEmpty then .elsewhere else .nowhere
  | candidates =>
    match candidates.find? fun c => c.1 = method with
    | some (_, e) => .found e
    | none => .wrongMethod

end Endpoint

end Flowgraph
