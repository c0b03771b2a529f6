import Flowgraph.Expression.Marks
import Flowgraph.Log.Level
import Flowgraph.Moment
import Flowgraph.Text.LetterCase
import Flowgraph.Text.Word
import Flowgraph.Value.Json

/-! Log entries and their two forms: a line from a template, behind which the fields of the present
context stand, and one JSON object. -/

namespace Flowgraph

/-- The fields of the present context, and those to go back to. -/
structure LogContext where
  fields : Fields := []
  saved : List Fields := []

namespace LogContext

def add (c : LogContext) (fs : Fields) : LogContext :=
  { c with fields := c.fields.merge fs }

/-- Add fields until the matching `pop?`. -/
def push (c : LogContext) (fs : Fields) : LogContext :=
  { fields := c.fields.merge fs, saved := c.fields :: c.saved }

def pop? (c : LogContext) : Option LogContext :=
  match c.saved with
  | [] => none
  | fields :: saved => some { fields, saved }

end LogContext

structure LogEntry where
  level : LogLevel
  logger : String
  template : String
  args : List Value := []
  context : Fields := []
  extra : Fields := []

namespace LogEntry

/-- A single table is looked up in by name; without data the template stands for itself. -/
def message (e : LogEntry) : Except Failure String :=
  match e.args with
  | [] => .ok e.template
  | [.object []] => Marks.fill e.template { items := [.table []] }
  | [.object fs] => Marks.fill e.template (Marks.sourceOf (Datum.ofValue (.object fs)))
  | args => Marks.fill e.template { items := args.map Datum.ofValue }

def contextText (fs : Fields) : String :=
  if fs.isEmpty then ""
  else " [" ++ " ".intercalate (fs.map fun f => f.1 ++ "=" ++ f.2.display) ++ "]"

/-- Date and time with thousandths of a second. -/
def clockText (m : Moment) : String :=
  let micros := m.micros.fmod Moment.microsPerSecond
  ({ m with micros := m.micros - micros } : Moment).textWith " " ++ "," ++ Moment.padded 3 (micros / 1000)

/-- What a line's template can name. -/
def parts (e : LogEntry) (message : String) (now : Moment) : Fields :=
  [("name", .text e.logger), ("msg", .text e.template), ("levelname", .text e.level.name),
   ("levelno", .ofNat e.level.weight), ("message", .text message), ("asctime", .text (clockText now))]

def line (e : LogEntry) (template : String) (now : Moment) : Except Failure String := do
  let parts := Value.object (e.parts (← e.message) now)
  match Marks.fill template (Marks.sourceOf (Datum.ofValue parts)) with
  | .ok s => .ok (s ++ contextText e.context)
  | .error f =>
    if f.kind = .noKey then Failure.badValue ("Formatting field not found in record: " ++ f.message)
    else .error f

/-- Fields of the context stand over those of the entry, and extra fields over both. -/
def structured (e : LogEntry) (now : Moment) : Except Failure String := do
  let entry : Fields :=
    [("timestamp", .text (now.text ++ "Z")), ("level", .text e.level.name), ("logger", .text e.logger),
     ("message", .text (← e.message))]
  .ok (Json.renderWith Json.spaced (.object ((entry.merge e.context).merge e.extra)))

end LogEntry

/-! Attempts of steps -/

namespace LogEntry

def attempt (component : String) (level : LogLevel) (text : String) (extra : Fields) : LogEntry :=
  { level, logger := "autoflow.retry." ++ component, template := text, extra }

def cause (f : Failure) : Fields :=
  [("error_type", .text f.kind.label), ("error_message", .text f.message)]

def attemptFailed (component node : String) (f : Failure) (number limit : Int) (delay : Number) :
    Except Failure LogEntry := do
  let seconds ← (Datum.ofNumber delay).format ".2f"
  .ok <| attempt component .warning
    ("Node " ++ node ++ " attempt " ++ toString number ++ "/" ++ toString limit
      ++ " failed, retrying in " ++ seconds ++ "s")
    ([("node_id", .text node), ("attempt", .int number), ("max_attempts", .int limit)] ++ cause f)

def recovered (component node : String) (used : Int) : LogEntry :=
  attempt component .info ("Node " ++ node ++ " succeeded after " ++ toString used ++ " attempts")
    [("node_id", .text node), ("attempts_used", .int used)]

def exhausted (component node : String) (f : Failure) (used : Int) : LogEntry :=
  attempt component .error ("Node " ++ node ++ " failed after " ++ toString used ++ " attempts")
    ([("node_id", .text node), ("attempts_used", .int used)] ++ cause f)

end LogEntry

/-! Setting up -/

/-- Where entries go and in which form. -/
structure LogSetup where
  /-- Entries below this weight are dropped. -/
  threshold : Nat
  structured : Bool
  template : String
  toFile : Bool

namespace LogSetup

def bareTemplate : String := "%(message)s"

def standardTemplate : String := "%(asctime)s - %(name)s - %(levelname)s - %(message)s"

def thresholds : Table Nat :=
  LogLevel.all.map (fun l => (l.name, l.weight)) ++ [("WARN", 30), ("FATAL", 50), ("NOTSET", 0)]

/-- Whether a named mark stands at the front. -/
def isNamedMark (cs : List Char) : Bool :=
  match cs with
  | '%' :: '(' :: rest =>
    let name := rest.takeWhile fun c => c = '_' || Text.isWord c
    match rest.drop name.length with
    | ')' :: body =>
      let (_, body) := Marks.readExtent (body.dropWhile Marks.isFlag)
      let body := match body with
        | '.' :: tail => (Marks.readExtent tail).2
        | _ => body
      !name.isEmpty && (body.head?.map Char.toLower).any "diouxefgcrsa%".toList.contains
    | _ => false
  | _ => false

def hasMark : List Char → Bool
  | [] => false
  | c :: rest => isNamedMark (c :: rest) || hasMark rest

/-- The template of lines; one that says nothing of the entry is refused. -/
def checkTemplate (template : String) : Except Failure String :=
  if hasMark template.toList then .ok template
  else Failure.badValue ("Invalid format '" ++ template ++ "' for '%' style")

/-- Set up logging; an empty template is the standard one. -/
def make (level : String) (structured : Bool) (template : String) (toFile : Bool) : Except Failure LogSetup := do
  let template ←
    if structured then .ok bareTemplate
    else checkTemplate (if template = "" then standardTemplate else template)
  match thresholds.get? (Text.upper level) with
  | some threshold => .ok { threshold, structured, template, toFile }
  | none => .error ⟨.noAttribute, "unknown level " ++ Text.quoted level⟩

/-- Libraries that say much are kept at warnings unless everything is wanted. -/
def noisyThreshold (s : LogSetup) : Nat :=
  if s.threshold = LogLevel.debug.weight then LogLevel.debug.weight else LogLevel.warning.weight

end LogSetup

end Flowgraph
