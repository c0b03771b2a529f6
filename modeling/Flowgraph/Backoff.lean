import Flowgraph.Number

/-! Waiting times between the attempts of a step: they grow by a constant factor up to a
ceiling, and may be shortened to a share between a half and the whole. -/

namespace Flowgraph

structure Backoff where
  base : Number
  ceiling : Number
  factor : Number
  /-- Where the share lies between a half (0) and the whole (1); none leaves waits as they are. -/
  jitter : Option Number
  deriving Inhabited

namespace Backoff

def standardBase : Number := .float 1.0

def standardCeiling : Number := .float 30.0

def standardFactor : Number := .float 2.0

/-- No wait at all. -/
def immediate : Backoff :=
  { base := .float 0.0, ceiling := .float 0.0, factor := standardFactor, jitter := none }

def make (base ceiling factor : Number) (jitter : Option Number) : Except Failure Backoff :=
  if base.less (.int 0) then Failure.badValue "base_delay cannot be negative"
  else if ceiling.less base then Failure.badValue "max_delay must be at least base_delay"
  else .ok { base, ceiling, factor, jitter }

/-- The share of a wait that jitter leaves. -/
def share (jitter : Number) : Except Failure Number := do
  let half ← jitter.mul (.float 0.5)
  (Number.float 0.5).add half

/-- Seconds to wait after failed attempt number `attempt`, counted from one. -/
def delay (b : Backoff) (attempt : Int) : Except Failure Number := do
  let growth ← b.factor.pow (.int (attempt - 1))
  let full ← b.base.mul growth
  let capped := full.min b.ceiling
  match b.jitter with
  | none => pure capped
  | some j => capped.mul (← share j)

end Backoff

end Flowgraph
