import Flowgraph.Document.Emit
import Flowgraph.Program

/-! Emitting a workflow for a target: as a document for an external tool, or as a program. -/

namespace Flowgraph

inductive Emitted where
  | document (e : Emission Document)
  | program (e : Emission String)

namespace Emitted

def succeeded : Emitted → Bool
  | document e => e.form.isSome
  | program e => e.form.isSome

def errors : Emitted → List String
  | document e => e.errors
  | program e => e.errors

def toWire : Emitted → Value
  | document e => e.toWire "document" Document.toWire
  | program e => e.toWire "code" Value.text

end Emitted

/-- Execution is no form in which a workflow can be emitted. -/
def Emitter.emit (e : Emitter) (target : CompileTarget) (w : Workflow) : Except Mishap Emitted :=
  match target with
  | .external => Mishap.ofFailure ((e.document w).map .document)
  | .runtime => Mishap.ofFailure ((e.program w).map .program)
  | .execute =>
    Mishap.raise .compilation ("Unsupported compile target: " ++ target.name)
      [("target", .text target.name)]

end Flowgraph
