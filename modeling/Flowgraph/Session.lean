import Flowgraph.Run

/-! Sessions: several runs on one engine and one clock. The runs share the table of active ids. A run
enters that table when it starts; when it ends, the entry of its id goes, also where a later run with
the same id has taken it over. They share the worker threads too, but here every call of an executor
finds one at once and takes no time of it. -/

namespace Flowgraph

namespace Session

inductive Course where
  | running (run : Run)
  | ended (log : ExecutionLog)
  /-- Whoever was waiting for the log has given up. -/
  | killed

structure Member where
  id : String
  course : Course

namespace Member

def isRunning (m : Member) : Bool :=
  match m.course with
  | .running _ => true
  | _ => false

/-- A run that has finished is only its log. -/
def close (m : Member) : Member :=
  match m.course with
  | .running run => if run.isFinished then { m with course := .ended run.log } else m
  | _ => m

def onRun (f : Run → Run) (m : Member) : Member :=
  match m.course with
  | .running run => close { m with course := .running (f run) }
  | _ => m

def log? (m : Member) : Option ExecutionLog :=
  match m.course with
  | .running run => some run.log
  | .ended log => some log
  | .killed => none

end Member

end Session

structure Session where
  engine : Engine
  /-- Microseconds from the engine's epoch. -/
  now : Nat
  /-- All runs, in the order in which they were started. -/
  members : List Session.Member
  /-- The active ids, each with the position of its run among the members. -/
  active : Table Nat

namespace Session

def make (engine : Engine) : Session :=
  { engine, now := 0, members := [], active := [] }

def time (s : Session) : Moment :=
  s.engine.moment s.now

/-- Replace the members; the ids of those that have ended are no longer active. -/
def withMembers (s : Session) (members : List Member) : Session :=
  let ended := (s.members.zip members).filter fun p => p.1.isRunning && !p.2.isRunning
  let active := ended.foldl (fun (t : Table Nat) p => t.erase p.1.id) s.active
  { s with members, active }

/-- Let all runs go on to an instant, or to their ends. -/
def advance (s : Session) (horizon : Option Nat) : Session :=
  let s := s.withMembers (s.members.map (Member.onRun (Run.advance s.engine horizon)))
  { s with now := max s.now (horizon.getD s.now) }

/-- Start a run in the present instant. -/
def start (s : Session) (id : String) (w : Workflow) (inputs secrets : Fields) : Session :=
  let run := (Run.start w inputs secrets id s.time).begin s.engine s.now
  let member := Member.close ⟨id, .running run⟩
  let active := if member.isRunning then s.active.set id s.members.length else s.active.erase id
  { s with members := s.members ++ [member], active }

/-- Record a run that was refused; it was never active. -/
def refuse (s : Session) (id workflowId : String) (problems : List String) : Session :=
  { s with members := s.members ++ [⟨id, .ended (refusal id workflowId problems s.time)⟩] }

/-- Start a run of a workflow that is valid, or refuse it. -/
def launch (s : Session) (id : String) (w : Workflow) (inputs secrets : Fields) : Session :=
  if w.validate.valid then s.start id w inputs secrets
  else s.refuse id w.id w.validate.messages

/-- Start a run of a raw workflow, or refuse it. -/
def submit (s : Session) (id : String) (v : Value) (inputs secrets : Fields) (validated : Bool) : Session :=
  match prepareWorkflow v validated with
  | .ok w => s.start id w inputs secrets
  | .error problems => s.refuse id (claimedId v) problems

def isActive (s : Session) (id : String) : Bool :=
  s.active.contains id

/-- Change one run by its position. -/
def onMember (s : Session) (index : Nat) (f : Member → Member) : Session :=
  s.withMembers (s.members.modify index f)

/-- Cancel the active run of an id, and tell whether there was one. -/
def cancel (s : Session) (id : String) : Session × Bool :=
  match s.active.get? id with
  | none => (s, false)
  | some index => (s.onMember index (Member.onRun (Run.cancel s.time)), true)

def shutdown (s : Session) : Session :=
  s.active.keys.foldl (fun s id => (s.cancel id).1) s

/-- The instant at which a run ends if it is left alone; the present one when it has ended. -/
def endOf (s : Session) (index : Nat) : Nat :=
  match (s.members[index]?).map Member.course with
  | some (.running run) =>
    match (run.advance s.engine none).log.endTime with
    | some time => (time.micros - s.engine.epoch.micros).toNat
    | none => s.now
  | _ => s.now

/-- The position of the last run with an id. -/
def lastIndex? (s : Session) (id : String) : Option Nat :=
  ((List.range s.members.length).filter fun i => (s.members[i]?).any fun m => m.id = id).getLast?

/-- Give up on the last run with an id, and tell whether it was still running. -/
def kill (s : Session) (id : String) : Session × Bool :=
  match s.lastIndex? id with
  | none => (s, false)
  | some index =>
    if (s.members[index]?).any Member.isRunning then
      (s.onMember index fun m => { m with course := .killed }, true)
    else (s, false)

/-- The last run with each id. -/
def latest (s : Session) : Table Member :=
  Table.ofPairs (s.members.map fun m => (m.id, m))

/-! Scripts -/

inductive Event where
  | start (id : String) (workflow : Value) (inputs : Fields)
  | cancel (id : String)
  | kill (id : String)
  | active (id : Option String)
  | shutdown

inductive Answer where
  | done
  | flag (answer : Bool)
  | activity (all : List String) (one : Option Bool)

/-- Carry out an event in the present instant. -/
def perform (s : Session) : Event → Session × Answer
  | .start id workflow inputs => (s.submit id workflow inputs [] false, .done)
  | .cancel id =>
    let (s, answer) := s.cancel id
    (s, .flag answer)
  | .kill id =>
    let (s, answer) := s.kill id
    (s, .flag answer)
  | .active id => (s, .activity s.active.keys (id.map s.isActive))
  | .shutdown => (s.shutdown, .done)

/-- Carry out events, each after everything else that happens by its instant. -/
def play (s : Session) : List (Nat × Event) → Session × List Answer
  | [] => (s, [])
  | (at_, event) :: rest =>
    let (s, answer) := (s.advance (some at_)).perform event
    let (s, answers) := s.play rest
    (s, answer :: answers)

end Session

end Flowgraph
