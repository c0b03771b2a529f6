import Flowgraph.Environment.Binding
import Flowgraph.Table

/-! Environments: named texts from outside. A file adds the names that are not there yet; its
values may refer to other names in braces behind a dollar sign. -/

namespace Flowgraph

abbrev Environment := Table String

namespace Environment

/-- A reference behind its opening brace: the name, and what stands for it when it is unknown. -/
def readReference (cs : List Char) : Option (String × String × List Char) :=
  let name := cs.takeWhile fun c => c ≠ '\x7d' && c ≠ ':'
  match cs.drop name.length with
  | '\x7d' :: rest => some (String.ofList name, "", rest)
  | ':' :: '-' :: body =>
    let fallback := body.takeWhile (· ≠ '\x7d')
    match body.drop fallback.length with
    | _ :: rest => some (String.ofList name, String.ofList fallback, rest)
    | [] => none
  | _ => none

def expandChars (lookup : String → Option String) : Nat → List Char → List Char
  | 0, _ => []
  | _, [] => []
  | fuel + 1, '$' :: '\x7b' :: body =>
    match readReference body with
    | some (name, fallback, rest) =>
      ((lookup name).getD fallback).toList ++ expandChars lookup fuel rest
    | none => '$' :: expandChars lookup fuel ('\x7b' :: body)
  | fuel + 1, c :: rest => c :: expandChars lookup fuel rest

/-- A value with its references replaced. -/
def expand (lookup : String → Option String) (s : String) : String :=
  String.ofList (expandChars lookup s.length s.toList)

/-- What a name stands for in a file: what is there already, or what the file has given so far.
A name without a value stands for the empty text. -/
def lookupWith (env : Environment) (given : Table (Option String)) (name : String) : Option String :=
  match env.get? name with
  | some s => some s
  | none => (given.get? name).map fun v => v.getD ""

def resolveBinding (env : Environment) (given : Table (Option String)) (b : Binding) :
    Table (Option String) :=
  given.set b.key (b.value.map (expand (lookupWith env given)))

/-- The bindings of a file with their references replaced. -/
def resolved (env : Environment) (bindings : List Binding) : Table (Option String) :=
  bindings.foldl (resolveBinding env) []

def addMissing (env : Environment) (entry : String × Option String) : Environment :=
  match entry.2 with
  | some s => if env.contains entry.1 then env else env.set entry.1 s
  | none => env

/-- Load the text of a file. -/
def load (env : Environment) (text : String) : Environment :=
  (resolved env (Binding.ofText text)).foldl addMissing env

end Environment

end Flowgraph
