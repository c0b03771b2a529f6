import Flowgraph.Edit
import Flowgraph.Text.Blank
import Flowgraph.Validation.Acceptance

/-! Suggested workflows. A suggestion service is asked for a workflow or for a step; what it gives
is checked before it is used. -/

namespace Flowgraph

/-- What comes of asking the service. -/
inductive Reply (α : Type) where
  | gave (a : α)
  /-- The service broke with an error of its own. -/
  | broke (message : String)
  | raised (f : Fault)

/-- What the service gives as a workflow: a draft with the reasons for it, or anything else. -/
inductive Proposal where
  | reasoned (draft : Draft Workflow) (reasons : Value)
  | raw (v : Value)

structure Suggester where
  suggestWorkflow (prompt : String) (context : Value) : Reply Proposal
  suggestNode (w : Workflow) (id : Value) (instruction : String) : Reply (Draft Node)

namespace Suggester

def fail {α : Type} (operation message : String) : Numbered α :=
  .of (Mishap.raise .suggestion message [("operation", .text operation)])

def receive {α : Type} (operation : String) : Reply α → Numbered α
  | .gave a => pure a
  | .broke message => fail operation ("Suggestion service failed: " ++ message)
  | .raised f => .of (.error (.fault f))

/-- How the refusal of a suggested workflow begins. -/
def invalidHead (operation : String) : String :=
  "Suggested workflow is invalid (" ++ operation ++ ")"

def check (operation : String) (w : Workflow) : Numbered Workflow :=
  .of (w.accept (invalidHead operation))

def standardVersion : String := "1.0.0"

/-- The payload of a draft, with an id and a version. -/
def completed (draft : Draft Workflow) : Numbered Fields := do
  let fs ← match draft with
    | .made w => pure w.wireFields
    | .raw v => Edit.ofFailure v.entries
  let fs ← if (fs.getD "id" .null).truthy then pure fs else do
    pure (fs.set "id" (.text (← Numbering.fullId)))
  pure (if (fs.getD "version" .null).truthy then fs else fs.set "version" (.text standardVersion))

def unpack : Proposal → Numbered (Draft Workflow × Value)
  | .reasoned draft reasons => pure (draft, reasons)
  | .raw v =>
    match v.members? with
    | some [draft, reasons] => pure (.raw draft, reasons)
    | _ => fail "generate" "Suggestion service returned a malformed response"

/-- Whether a prompt is worth asking. -/
def isPrompt (prompt : String) : Bool :=
  !Text.allBlank prompt

/-- Ask for a workflow, with the reasons for it. -/
def generate (s : Suggester) (prompt : String) (context : Value) : Numbered (Workflow × Value) := do
  if !isPrompt prompt then fail "generate" "Prompt cannot be empty"
  else
    let (draft, reasons) ← unpack (← receive "generate" (s.suggestWorkflow prompt context))
    let w ← .of (Workflow.acceptFields (invalidHead "generate") (← completed draft))
    pure (w, if reasons.truthy then reasons else .text "")

/-- Ask for a revision of a step, and put it in its place. -/
def editNode (s : Suggester) (w : Workflow) (id : Value) (instruction : String) : Numbered Workflow := do
  let draft ← receive "edit_node" (s.suggestNode w id instruction)
  check "edit_node" (← w.replaceNode id draft)

def nodeOf : Draft Node → Numbered Node
  | .made n => pure n
  | .raw v => do
    let fs ← Edit.withId "node" (← Edit.ofFailure v.entries)
    match Node.ofValue (.object fs) with
    | .accepted n => pure n
    | .rejected issues => fail "add_node" ("Suggested node is malformed: " ++ Issue.firstMessage issues)

/-- Ask for a further step, and add it: at the end, or behind another one. -/
def addNode (s : Suggester) (w : Workflow) (instruction : String) (after : Value) : Numbered Workflow := do
  let n ← nodeOf (← receive "add_node" (s.suggestNode w after instruction))
  let n ← if (w.node? n.id).isSome then do pure { n with id := ← Numbering.stamped "node" } else pure n
  check "add_node" (← w.addNode (.made n) after)

end Suggester

end Flowgraph
