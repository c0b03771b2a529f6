import Flowgraph.Emission
import Flowgraph.Naming
import Flowgraph.Program.Grammar
import Flowgraph.Program.Preamble
import Flowgraph.Program.Step
import Flowgraph.Text.Digit
import Flowgraph.Text.Word

/-! Programs that run a workflow on their own: a head line, a fixed preamble, the data of the
workflow, two functions for every step, and one that calls the steps stage by stage. -/

namespace Flowgraph

namespace Program

/-! Identifiers -/

def wordChar (c : Char) : Char :=
  if Text.isWord c then c else '_'

/-- The id of a step with everything but word characters replaced, and no digit in front. -/
def identifierBase (id : String) : String :=
  match id.toList.map wordChar with
  | [] => "node"
  | c :: rest => String.ofList (if Text.isDigit c then 'n' :: c :: rest else c :: rest)

def identifierSpelling (id : String) (k : Nat) : String :=
  if k = 0 then identifierBase id else identifierBase id ++ "_" ++ toString (k + 1)

/-- The identifiers of steps, in order. -/
def identifiers (order : List String) : Table String :=
  order.zip (freshNames identifierSpelling order [])

def identifierOf (names : Table String) (id : String) : String :=
  names.getD id ""

/-! Lines -/

def headLine (w : Workflow) : String :=
  "# Generated by autoflow from workflow " ++ Text.quoted w.name ++ " (" ++ w.id ++ "), version "
    ++ w.version

def functionNames : List String :=
  ["len", "str", "int", "float", "bool", "min", "max", "abs", "any", "all"]

def functionsLine : String :=
  let entries := functionNames.map fun name => Text.quoted name ++ ": " ++ name
  "_SAFE_FUNCTIONS = \x7b" ++ ", ".intercalate entries ++ "\x7d"

def defaultVariables (w : Workflow) : Fields :=
  Table.ofPairs (w.vars.map fun v => (v.name, v.value))

def delayLine (name : String) (delay : Number) : Except Failure String :=
  delay.toFloat.map fun x => name ++ " = " ++ Decimal.render x

/-- The data of a workflow. -/
def dataLines (e : Emitter) (w : Workflow) (order : List String) : Except Failure (List String) := do
  let base ← delayLine "RETRY_BASE_DELAY" e.retryBase
  let ceiling ← delayLine "RETRY_MAX_DELAY" e.retryCeiling
  pure
    ["",
     functionsLine,
     "WORKFLOW_ID = " ++ Text.quoted w.id,
     "NODE_IDS = " ++ (Value.ofTexts order).literal,
     "DEFAULT_VARIABLES = " ++ (Value.object (defaultVariables w)).literal,
     base,
     ceiling]

def callText (c : Capability) : String :=
  (Value.ofOption .text c.runtimeCall).literal

/-- The function that performs a step. -/
def nodeLines (e : Emitter) (w : Workflow) (n : Node) (c : Capability) (identifier : String) :
    List String :=
  let policy := Policy.resolve w n e.defaultTimeout
  ["",
   "",
   "async def node_" ++ identifier ++ "(state):",
   "    # " ++ Text.quoted n.label ++ " via " ++ callText c,
   "    inputs = state.resolve(" ++ (Value.object n.inputs).literal ++ ")",
   "    return await _with_policy(",
   "        lambda: state.invoke(" ++ callText c ++ ", " ++ Text.quoted n.id ++ ", inputs),",
   "        " ++ toString policy.timeout ++ ", " ++ toString policy.retries ++ ")"]

/-- The function that decides whether a step runs, and runs it. -/
def stepLines (w : Workflow) (g : Graph) (n : Node) (identifier : String) : List String :=
  "" :: "" :: ("async def step_" ++ identifier ++ "(state):")
    :: linesOf 1 (stepStatements w g n identifier)

def stageLine (names : Table String) (stage : List String) : String :=
  let calls := stage.map fun id => "step_" ++ identifierOf names id ++ "(state)"
  match calls with
  | [call] => "    await " ++ call
  | _ => "    await asyncio.gather(" ++ ", ".intercalate calls ++ ")"

def entryLines (names : Table String) (stages : List (List String)) : List String :=
  ["", "", "async def run(invoke, variables=None):", "    state = _RunState(invoke, variables)"]
    ++ stages.map (stageLine names) ++ ["    return state.result()"]

/-- All lines of the program of a workflow whose steps have been ordered. -/
def lines (e : Emitter) (w : Workflow) (g : Graph) (order : List String) :
    Except Failure (List String) := do
  let names := identifiers order
  let nodes := order.filterMap g.node?
  let data ← dataLines e w order
  let functions := nodes.flatMap fun n =>
    match e.registry.find? n with
    | some c => nodeLines e w n c (identifierOf names n.id)
    | none => []
  let steps := nodes.flatMap fun n => stepLines w g n (identifierOf names n.id)
  pure
    (headLine w :: preamble ++ data ++ functions ++ steps ++ entryLines names (g.stagesOf order))

/-- The characters of lines, each of which is ended. -/
def chars (lines : List String) : List Char :=
  lines.flatMap fun line => line.toList ++ ['\n']

/-! Faults -/

def splitLines (cs : List Char) : List (List Char) :=
  cs.splitOn '\n'

/-- What the head line spills into the next lines, when the texts in it have line ends. -/
def spill (head : String) : List (Nat × List Char) :=
  logicalLines 2 [] ((splitLines (Expression.unifyLines head.toList)).drop 1)

/-- The first fault of a program whose head is the given line. Only what the head spills has to be
read as statements, for all other lines are composed here. A line that is indented is noticed
before what is wrong with its surface, and other faults after all faults of the surface. -/
def fault? (head : String) (lines : List String) : Option SyntaxFault :=
  match surfaceFault? (chars lines), indentFault? (spill head) with
  | some f, some g => some (if g.line ≤ f.line then g else f)
  | some f, none => some f
  | none, _ => linesFault? (spill head)

def nullMessage : String :=
  "source code string cannot contain null bytes"

/-- What is wrong with a program, with the line where it is wrong. -/
def objection? (head : String) (lines : List String) : Option String :=
  if (chars lines).any fun c => c.toNat = 0 then some (nullMessage ++ " (line None)")
  else (fault? head lines).map fun f => f.message ++ " (line " ++ toString f.line ++ ")"

def invalidMessage (w : Workflow) (objection : String) : String :=
  "Generated code for workflow " ++ w.id ++ " is not valid Python: " ++ objection

end Program

/-- Emit a workflow as the text of a program, provided that text is a program. -/
def Emitter.program (e : Emitter) (w : Workflow) : Except Failure (Emission String) :=
  let objections := e.registry.objections (some .runtime) w
  if !objections.isEmpty then .ok (Emission.refused objections)
  else
    let g := Graph.ofWorkflow w
    match g.topologicalOrder with
    | .error blocked => .ok (Emission.refused [Graph.circularMessage blocked])
    | .ok order => do
      let lines ← Program.lines e w g order
      if w.id.toList.any fun c => c.toNat = 0 then Failure.badValue "embedded null character"
      else
        match Program.objection? (Program.headLine w) lines with
        | some objection => pure (Emission.refused [Program.invalidMessage w objection])
        | none => pure { form := some (String.ofList (Program.chars lines)) }

end Flowgraph
