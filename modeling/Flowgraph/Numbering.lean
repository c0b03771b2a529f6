import Flowgraph.Fault

/-! Generated ids. They are numbered one after another, and a number that has been given away is
gone, also when what it was for fails. -/

namespace Flowgraph

/-- Work that takes numbers and may fail. -/
abbrev Numbered (α : Type) :=
  ExceptT Mishap (StateM Nat) α

namespace Numbering

/-- Twelve hexadecimal digits. -/
def stamp (n : Nat) : String :=
  let digits := Nat.toDigits 16 n
  String.ofList (List.replicate (12 - digits.length) '0' ++ digits)

/-- Thirty-two hexadecimal digits in five groups, of which the first twelve count. -/
def full (n : Nat) : String :=
  let digits := (stamp n).toList
  String.ofList (digits.take 8 ++ '-' :: digits.drop 8) ++ "-0000-0000-000000000000"

/-- Take the next number. -/
def next : Numbered Nat := do
  let n ← get
  set (n + 1)
  pure (n + 1)

def stamped (kind : String) : Numbered String := do
  pure (kind ++ "-" ++ stamp (← next))

def fullId : Numbered String := do
  pure (full (← next))

end Numbering

namespace Numbered

def run {α : Type} (x : Numbered α) (count : Nat) : Except Mishap α × Nat :=
  StateT.run (ExceptT.run x) count

def of {α : Type} (r : Except Mishap α) : Numbered α :=
  ExceptT.mk (pure r)

end Numbered

end Flowgraph
