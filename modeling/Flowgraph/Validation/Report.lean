import Flowgraph.Value

/-! Validation reports: errors, which make a workflow invalid, and warnings, which do not. -/

namespace Flowgraph

/-- A remark about one place of a payload. -/
structure Finding where
  path : String
  message : String
  deriving DecidableEq, Repr

def Finding.text (f : Finding) : String :=
  f.path ++ ": " ++ f.message

structure Report where
  errors : List Finding := []
  warnings : List Finding := []
  deriving DecidableEq, Repr

namespace Report

def empty : Report := {}

def error (path message : String) : Report :=
  { errors := [⟨path, message⟩] }

def warning (path message : String) : Report :=
  { warnings := [⟨path, message⟩] }

def errorIf (flawed : Bool) (path message : String) : Report :=
  if flawed then error path message else empty

def warningIf (flawed : Bool) (path message : String) : Report :=
  if flawed then warning path message else empty

def append (a b : Report) : Report :=
  { errors := a.errors ++ b.errors, warnings := a.warnings ++ b.warnings }

instance : Append Report := ⟨append⟩

def join (reports : List Report) : Report :=
  reports.foldr append empty

def valid (r : Report) : Bool :=
  r.errors.isEmpty

def messages (r : Report) : List String :=
  r.errors.map Finding.text

def findingToWire (f : Finding) : Value :=
  .object [("path", .text f.path), ("message", .text f.message)]

def toWire (r : Report) : Value :=
  .object
    [("valid", .bool r.valid),
     ("errors", .list (r.errors.map findingToWire)),
     ("warnings", .list (r.warnings.map findingToWire))]

@[simp] theorem errors_append (a b : Report) : (a ++ b).errors = a.errors ++ b.errors := rfl

@[simp] theorem warnings_append (a b : Report) : (a ++ b).warnings = a.warnings ++ b.warnings := rfl

theorem valid_append (a b : Report) : (a ++ b).valid = (a.valid && b.valid) := by
  cases a with | mk ae aw => cases ae <;> simp [valid]

theorem valid_errorIf (flawed : Bool) (path message : String) :
    (errorIf flawed path message).valid = !flawed := by
  cases flawed <;> rfl

theorem valid_join (reports : List Report) : (join reports).valid = reports.all valid := by
  induction reports with
  | nil => rfl
  | cons r rest ih =>
    have : join (r :: rest) = r ++ join rest := rfl
    simp [this, valid_append, ih]

end Report

end Flowgraph
