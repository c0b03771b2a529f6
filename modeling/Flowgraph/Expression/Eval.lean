import Flowgraph.Expression.Function
import Flowgraph.Expression.Parser

/-! Evaluation of expressions. The names of a run are visible outside functions and comprehensions
only; inside them there are the names they bind themselves. -/

namespace Flowgraph.Expression

open Flowgraph.Datum (Arguments)

/-- The names bound by enclosing functions and comprehensions. -/
structure Locals where
  inFunction : Bool
  bound : Table Datum

/-- What evaluation remembers besides the names it starts from. -/
structure Memory where
  /-- Names given a value outside functions and comprehensions. -/
  assigned : Table Datum := []
  /-- Names that are visible everywhere. -/
  shared : Table Datum := [("__builtins__", .table [])]
  locals : Option Locals := none

abbrev Eval := StateT Memory (Except Failure)

def raise {α : Type} (kind : Failure.Kind) (message : String) : Eval α :=
  throw ⟨kind, message⟩

/-- The names that evaluation starts from. -/
abbrev Names := String → Option Datum

def lookUp (names : Names) (s : String) : Eval Datum := do
  let m ← get
  let found :=
    match m.locals with
    | none => (m.assigned.get? s <|> names s) <|> m.shared.get? s
    | some l => l.bound.get? s <|> m.shared.get? s
  match found with
  | some d => pure d
  | none => raise .noName s

/-- Names given a value in a comprehension outlive it. -/
def assign (s : String) (d : Datum) : Eval Unit :=
  modify fun m =>
    match m.locals with
    | none => { m with assigned := m.assigned.set s d }
    | some l =>
      if l.inFunction then { m with locals := some { l with bound := l.bound.set s d } }
      else { m with shared := m.shared.set s d }

def bindName (s : String) (d : Datum) : Eval Unit :=
  modify fun m =>
    { m with locals := m.locals.map fun l => { l with bound := l.bound.set s d } }

/-- Run with other local names, then return to the present ones. -/
def within {α : Type} (locals : Locals) (body : Eval α) : Eval α := do
  let before := (← get).locals
  modify fun m => { m with locals := some locals }
  let a ← body
  modify fun m => { m with locals := before }
  pure a

def enclosing : Eval Locals := do
  pure (((← get).locals).getD ⟨false, []⟩)

mutual

def bindTarget : Target → Datum → Eval Unit
  | .name s, d => bindName s d
  | .group parts, d => do bindTargets parts (← d.allItems)

def bindTargets : List Target → List Datum → Eval Unit
  | [], [] => pure ()
  | t :: ts, d :: ds => do
    bindTarget t d
    bindTargets ts ds
  | _, _ => raise .badValue "wrong number of values to unpack"

end

/-- What a loop has yielded, and the failure that ended it early. -/
abbrev Yield := List Datum × Option Failure

/-- Go through items and gather what each yields, up to the first failure. -/
def collect (body : Datum → Eval Yield) : List Datum → Option Failure → Eval Yield
  | [], fault => pure ([], fault)
  | d :: rest, fault => fun m =>
    match body d m with
    | .error f => .ok (([], some f), m)
    | .ok ((xs, some f), m) => .ok ((xs, some f), m)
    | .ok ((xs, none), m) => (collect body rest fault m).map fun (r, m) => ((xs ++ r.1, r.2), m)

def complete : Yield → Eval (List Datum)
  | (xs, none) => pure xs
  | (_, some f) => throw f

def distinctData (ds : List Datum) : List Datum :=
  ds.foldl (fun kept d => if Datum.within d kept then kept else kept ++ [d]) []

def setOf (ds : List Datum) : Eval Datum :=
  if ds.all Datum.hashable then pure (.set (distinctData ds)) else raise .badType "unhashable"

def putKey (entries : List (Datum × Datum)) (k v : Datum) : Eval (List (Datum × Datum)) :=
  if k.hashable then pure (Datum.putEntry entries k v) else raise .badType "unhashable"

/-- Whether two expressions stand for one and the same thing. -/
def alike : Expr → Expr → Bool
  | .name s, .name t => s = t
  | .literal a, .literal b =>
    let x := Datum.ofLiteral a
    let y := Datum.ofLiteral b
    x.kind = y.kind && Datum.same x y
  | _, _ => false

def asciiText (s : String) : String :=
  String.ofList <| s.toList.flatMap fun c =>
    let n := c.toNat
    if n < 127 then [c]
    else if n < 256 then ['\\', 'x'] ++ Text.hex 2 n
    else if n < 65536 then ['\\', 'u'] ++ Text.hex 4 n
    else ['\\', 'U'] ++ Text.hex 8 n

def convert (conversion : Option Char) (d : Datum) : Datum :=
  match conversion with
  | some 's' => .text d.display
  | some 'r' => .text d.literal
  | some 'a' => .text (asciiText d.literal)
  | _ => d

/-- Give parameters their arguments. -/
def bindParameters (parameters : List (String × Parameter × Option Datum)) (a : Arguments) :
    Except Failure (Table Datum) := do
  let plain := parameters.filter fun p => p.2.1 = .plain
  let free := parameters.filter fun p => p.2.1 = .plain || p.2.1 = .named
  let rest := (parameters.find? fun p => p.2.1 = .rest).filter fun p => p.1 ≠ ""
  let namedRest := parameters.find? fun p => p.2.1 = .namedRest
  let extra := a.places.drop plain.length
  let extraNames := a.names.filter fun n => !free.any fun p => p.1 = n.1
  let taken := plain.take a.places.length
  let twice := taken.any fun p => a.names.any fun n => n.1 = p.1
  if (!extra.isEmpty && rest.isNone) || (!extraNames.isEmpty && namedRest.isNone) || twice then
    Failure.badType "wrong arguments"
  else
    let bound ← free.mapM fun p =>
      let byPlace := (plain.findIdx? fun q => q.1 = p.1).bind fun i => a.places[i]?
      let byName := (a.names.find? fun n => n.1 = p.1).map Prod.snd
      match (byPlace <|> byName) <|> p.2.2 with
      | some d => pure (p.1, d)
      | none => Failure.badType "missing argument"
    let restBound := rest.toList.map fun p => (p.1, Datum.tuple extra)
    let namedBound := namedRest.toList.map fun p =>
      (p.1, Datum.table (extraNames.map fun n => (Datum.text n.1, n.2)))
    pure (bound ++ restBound ++ namedBound)

def addNamed (a : Arguments) (s : String) (d : Datum) : Eval Arguments :=
  if a.names.any fun n => n.1 = s then raise .badType "argument given twice"
  else pure { a with names := a.names ++ [(s, d)] }

mutual

def eval (names : Names) : Nat → Expr → Eval Datum
  | 0, _ => raise .runtime "evaluation goes too deep"
  | n + 1, e =>
    match e with
    | .literal l => pure (Datum.ofLiteral l)
    | .name s => lookUp names s
    | .unary op e => do
      let d ← eval names n e
      Datum.unary op d
    | .binary op a b => do
      let x ← eval names n a
      let y ← eval names n b
      Datum.binary op x y
    | .both a b => do
      let x ← eval names n a
      if x.truthy then eval names n b else pure x
    | .either a b => do
      let x ← eval names n a
      if x.truthy then pure x else eval names n b
    | .compare first rest => do
      let x ← eval names n first
      comparisonChain names n first x rest
    | .choose condition yes no => do
      let c ← eval names n condition
      if c.truthy then eval names n yes else eval names n no
    | .tuple items => do pure (.tuple (← evalItems names n items))
    | .list items => do pure (.list (← evalItems names n items))
    | .set items => do setOf (← evalItems names n items)
    | .table entries => do pure (.table (← evalEntries names n [] entries))
    | .item e index => do
      let d ← eval names n e
      let i ← eval names n index
      Datum.item d i
    | .slice low high step => do
      let a ← evalOption names n low
      let b ← evalOption names n high
      let c ← evalOption names n step
      pure (.slice a b c)
    | .member e s => do
      let d ← eval names n e
      Datum.member d s
    | .call f arguments => do
      let d ← eval names n f
      let a ← evalArguments names n ⟨[], []⟩ arguments
      apply names n d a
    | .function parameters body => do
      let ps ← parameters.mapM fun p => do
        match p.2.2 with
        | none => pure (p.1, p.2.1, none)
        | some e => do pure (p.1, p.2.1, some (← eval names n e))
      pure (.function ps body (← enclosing).bound)
    | .gather shape element clauses => do
      let y ← gather names n (do pure [← eval names n element]) clauses
      match shape with
      | .stream => pure (.stream y.1 y.2)
      | .list => do pure (.list (← complete y))
      | .set => do setOf (← complete y)
    | .gatherTable key value clauses => do
      let pair : Eval (List Datum) := do
        let k ← eval names n key
        let v ← eval names n value
        if k.hashable then pure [k, v] else raise .badType "unhashable"
      let y ← gather names n (do pure [Datum.tuple (← pair)]) clauses
      let pairs ← complete y
      let entries ← pairs.foldlM
        (fun es p => match p with
          | .tuple [k, v] => putKey es k v
          | _ => pure es)
        []
      pure (.table entries)
    | .assign s e => do
      let d ← eval names n e
      assign s d
      pure d
    | .joined parts => do
      let ds ← parts.mapM (eval names n)
      pure (.text (String.join (ds.map Datum.display)))
    | .formatted e conversion spec => do
      let d ← eval names n e
      let spec ← evalOption names n spec
      let s ← (convert conversion d).format (if spec.truthy then spec.display else "")
      pure (.text s)
    | .spread _ | .named _ _ | .spreadNamed _ => raise .badType "misplaced argument"

def evalOption (names : Names) : Nat → Option Expr → Eval Datum
  | 0, _ => raise .runtime "evaluation goes too deep"
  | _, none => pure .none
  | n + 1, some e => eval names n e

/-- Each operand is evaluated once, and none after a comparison that fails. -/
def comparisonChain (names : Names) : Nat → Expr → Datum → List (CompareOp × Expr) → Eval Datum
  | 0, _, _, _ => raise .runtime "evaluation goes too deep"
  | _, _, _, [] => pure (.bool true)
  | n + 1, left, x, (op, right) :: rest => do
    let y ← eval names n right
    let holds ←
      match op with
      | .same => pure (alike left right || Datum.identical x y)
      | .notSame => pure (!(alike left right || Datum.identical x y))
      | _ => Datum.compare op x y
    if !holds then pure (.bool false)
    else if rest.isEmpty then pure (.bool true)
    else comparisonChain names n right y rest

def evalItems (names : Names) : Nat → List Expr → Eval (List Datum)
  | 0, _ => raise .runtime "evaluation goes too deep"
  | n + 1, items => do
    let parts ← items.mapM fun e =>
      match e with
      | .spread e => do
        let d ← eval names n e
        let xs ← d.allItems
        pure xs
      | e => do pure [← eval names n e]
    pure parts.flatten

def evalEntries (names : Names) : Nat → List (Datum × Datum) → List (Option Expr × Expr) →
    Eval (List (Datum × Datum))
  | 0, _, _ => raise .runtime "evaluation goes too deep"
  | n + 1, start, entries =>
    entries.foldlM
      (fun es entry => do
        match entry with
        | (some k, v) => do
          let k ← eval names n k
          let v ← eval names n v
          putKey es k v
        | (none, e) => do
          match ← eval names n e with
          | .table more => pure (more.foldl (fun es p => Datum.putEntry es p.1 p.2) es)
          | _ => raise .badType "not a table")
      start

def evalArguments (names : Names) : Nat → Arguments → List Expr → Eval Arguments
  | 0, _, _ => raise .runtime "evaluation goes too deep"
  | n + 1, start, arguments =>
    arguments.foldlM
      (fun a e => do
        match e with
        | .spread e => do
          let d ← eval names n e
          let xs ← d.allItems
          pure { a with places := a.places ++ xs }
        | .named s e => do addNamed a s (← eval names n e)
        | .spreadNamed e => do
          match ← eval names n e with
          | .table entries =>
            entries.foldlM
              (fun a p => match p.1 with
                | .text s => addNamed a s p.2
                | _ => raise .badType "names must be texts")
              a
          | _ => raise .badType "not a table"
        | e => do pure { a with places := a.places ++ [← eval names n e] })
      start

def apply (names : Names) : Nat → Datum → Arguments → Eval Datum
  | 0, _, _ => raise .runtime "evaluation goes too deep"
  | n + 1, f, a =>
    match f with
    | .builtin name =>
      if name = "min" || name = "max" then do
        let (xs, key, standard) ← Datum.extremeArguments a
        let keyed ← xs.mapM fun x => do
          match key with
          | none => pure (x, x)
          | some k => do pure (← apply names n k ⟨[x], []⟩, x)
        match keyed with
        | first :: rest => Datum.extreme (Datum.surpassing name) first rest
        | [] =>
          match standard with
          | some d => pure d
          | none => raise .badValue "empty sequence"
      else Datum.callBuiltin name a
    | .method self name => Datum.callMethod self name a
    | .function parameters body closure => do
      let bound ← bindParameters parameters a
      within ⟨true, bound ++ closure⟩ (eval names n body)
    | _ => raise .badType "not callable"

/-- Run the clauses of a comprehension. What the first one goes through is evaluated outside. -/
def gather (names : Names) : Nat → Eval (List Datum) → List (Target × Expr × List Expr) → Eval Yield
  | 0, _, _ => raise .runtime "evaluation goes too deep"
  | _, _, [] => pure ([], none)
  | n + 1, element, (t, source, conditions) :: rest => do
    let d ← eval names n source
    let (xs, fault) ← d.items
    let locals ← enclosing
    within locals (gatherClause names n element t xs fault conditions rest)

def gatherClause (names : Names) : Nat → Eval (List Datum) → Target → List Datum → Option Failure →
    List Expr → List (Target × Expr × List Expr) → Eval Yield
  | 0, _, _, _, _, _, _ => raise .runtime "evaluation goes too deep"
  | n + 1, element, t, xs, fault, conditions, rest =>
    collect
      (fun x => do
        bindTarget t x
        let keep ← conditions.foldlM
          (fun keep c => do if keep then pure (← eval names n c).truthy else pure false)
          true
        if !keep then pure ([], none)
        else
          match rest with
          | [] => do pure (← element, none)
          | (t, source, conditions) :: rest => do
            let d ← eval names n source
            let (xs, fault) ← d.items
            gatherClause names n element t xs fault conditions rest)
      xs fault

end

/-- How deep evaluation may go for a source text. -/
def depthFor (source : String) : Nat :=
  4000 + 4 * source.length

def evaluate (names : Names) (source : String) : Option Datum := do
  let e ← parse source
  match (eval names (depthFor source) e).run {} with
  | .ok (d, _) => some d
  | .error _ => none

end Flowgraph.Expression
