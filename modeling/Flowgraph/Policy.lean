import Flowgraph.Graph

/-! Execution policies: the time limit and the retry budget of a step, and whether its failure
leaves the rest of a run going. -/

namespace Flowgraph

structure Policy where
  /-- Milliseconds for one attempt. -/
  timeout : Int
  /-- Further attempts after the first. -/
  retries : Nat
  deriving DecidableEq, Repr

namespace Policy

/-- The time limit, in milliseconds, when neither step nor workflow sets one. -/
def standardTimeout : Int := 30000

/-- The retry budget that retrying workflows give when none is configured. -/
def standardRetries : Nat := 3

/-- A step's own settings win over those of the workflow, which win over the standard. -/
def resolve (w : Workflow) (n : Node) (defaultTimeout : Int := standardTimeout) : Policy where
  timeout := ((n.runtime.timeout <|> w.settings.timeout).map Int.ofNat).getD defaultTimeout
  retries :=
    (n.runtime.retries <|> w.settings.maxRetries).getD
      (if w.settings.errorHandling = .retry then standardRetries else 0)

/-- A failure is contained by the step itself, by the workflow, or by an error connection. -/
def contains (w : Workflow) (g : Graph) (n : Node) : Bool :=
  n.runtime.continueOnError || w.settings.errorHandling = .continueOnError
    || (g.outgoing n.id).any fun e => e.type = .error

end Policy

end Flowgraph
