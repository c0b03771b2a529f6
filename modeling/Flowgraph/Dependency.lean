import Flowgraph.Capability

/-! Dependencies of a workflow: whether every step has a capability, and one that supports what is
to be done with it. -/

namespace Flowgraph

/-- What is wrong with the capability of a step, if anything is. -/
def Registry.objection? (r : Registry) (target : Option CompileTarget) (n : Node) : Option String :=
  match r.find? n with
  | none =>
    some ("Node '" ++ n.id ++ "': unknown capability '" ++ n.capabilityName ++ "' for type '"
      ++ n.type.name ++ "'")
  | some c =>
    match target with
    | some t =>
      if c.supports t then none
      else
        some ("Node '" ++ n.id ++ "': capability '" ++ c.name ++ "' does not support target '"
          ++ t.name ++ "'")
    | none => none

/-- The objections to the steps of a workflow, in order. -/
def Registry.objections (r : Registry) (target : Option CompileTarget) (w : Workflow) : List String :=
  w.nodes.filterMap (r.objection? target)

def Registry.require (r : Registry) (target : Option CompileTarget) (w : Workflow) : Except Fault Unit :=
  let objections := r.objections target w
  if objections.isEmpty then .ok ()
  else
    .error <| Fault.of .dependency
      ("Workflow '" ++ w.id ++ "' has unresolved capabilities: " ++ "; ".intercalate objections)
      [("unresolved", .ofTexts objections),
       ("target", .ofOption (fun t => .text (CompileTarget.name t)) target)]

end Flowgraph
