import Flowgraph.Expression.Parser
import Flowgraph.Program.Lexical

/-! Lines of simple statements: assignments, imports, expressions and the like, with what is wrong
with a line when it is none. -/

namespace Flowgraph.Program

open Expression

abbrev Statements := Except String (List Token)

def invalidSyntax : String :=
  "invalid syntax"

def orInvalid {α : Type} (o : Option α) : Except String α :=
  match o with
  | some a => .ok a
  | none => .error invalidSyntax

def atEnd : List Token → Bool
  | [] | .line :: _ | .op ";" :: _ => true
  | _ => false

/-- Expressions with commas between them, as one. -/
def expressionList (fuel : Nat) (ts : List Token) : Except String (Ahead Expr) := do
  let (first, ts) ← orInvalid (expression fuel ts)
  if atOp "," ts then
    let (more, ts) ← orInvalid (expressionsRest (ts.length + 1) fuel ts)
    pure (.tuple (first :: more), ts)
  else pure (first, ts)

/-! Assignments -/

mutual

/-- What an expression is called that cannot be assigned to. -/
def unassignable? : Expr → Option String
  | .name _ | .member _ _ | .item _ _ => none
  | .tuple items | .list items => unassignableOf items
  | .spread e => unassignable? e
  | .literal .none => some "None"
  | .literal (.bool b) => some (if b then "True" else "False")
  | .literal .ellipsis => some "ellipsis"
  | .literal _ => some "literal"
  | .call _ _ => some "function call"
  | .compare _ _ => some "comparison"
  | .choose _ _ _ => some "conditional expression"
  | .function _ _ => some "lambda"
  | .table _ => some "dict literal"
  | .set _ => some "set display"
  | .gather .list _ _ => some "list comprehension"
  | .gather .set _ _ => some "set comprehension"
  | .gather .stream _ _ => some "generator expression"
  | .gatherTable _ _ _ => some "dict comprehension"
  | .joined _ | .formatted _ _ _ => some "f-string expression"
  | .assign _ _ => some "named expression"
  | _ => some "expression"

def unassignableOf : List Expr → Option String
  | [] => none
  | e :: rest => (unassignable? e).or (unassignableOf rest)

end

/-- Whether a suggestion to compare is made when an expression is assigned to. -/
def suggestsComparison : Expr → Bool
  | .tuple _ | .list _ | .gather .stream _ _ => false
  | .literal .none | .literal (.bool _) => false
  | .compare _ _ | .both _ _ | .either _ _ | .choose _ _ _ | .function _ _ => false
  | .unary .negation _ => false
  | _ => true

/-- The values after a target, each of which may be a target for the next. -/
def assignment (fuel : Nat) : Nat → Bool → Expr → List Token → Statements
  | 0, _, _, _ => .error invalidSyntax
  | steps + 1, first, target, ts =>
    match expect "=" ts with
    | none => if atEnd ts then .ok ts else .error invalidSyntax
    | some rest => do
      let (value, rest) ← expressionList fuel rest
      match unassignable? target with
      | none => assignment fuel steps false value rest
      | some kind =>
        if first && suggestsComparison target && !atOp "=" rest then
          .error ("cannot assign to " ++ kind ++ " here. Maybe you meant '==' instead of '='?")
        else .error ("cannot assign to " ++ kind)

def updateOperators : List String :=
  ["+=", "-=", "*=", "/=", "//=", "%=", "@=", "&=", "|=", "^=", ">>=", "<<=", "**="]

/-- An expression, an assignment, or a declaration of a kind. -/
def expressionStatement (fuel : Nat) (ts : List Token) : Statements := do
  let (e, rest) ← expressionList fuel ts
  match rest with
  | .op ":" :: tail =>
    let (_, tail) ← orInvalid (expression fuel tail)
    match expect "=" tail with
    | none => if atEnd tail then .ok tail else .error invalidSyntax
    | some tail => do
      let (_, tail) ← expressionList fuel tail
      if atEnd tail then .ok tail else .error invalidSyntax
  | .op s :: tail =>
    if updateOperators.contains s then
      match unassignable? e with
      | some kind => .error ("'" ++ kind ++ "' is an illegal expression for augmented assignment")
      | none => do
        let (_, tail) ← expressionList fuel tail
        if atEnd tail then .ok tail else .error invalidSyntax
    else assignment fuel (rest.length + 1) true e rest
  | _ => assignment fuel (rest.length + 1) true e rest

/-! Other statements -/

def dottedName : List Token → Except String (List Token)
  | .name s :: .op "." :: rest => if isKeyword s then .error invalidSyntax else dottedName rest
  | .name s :: rest => if isKeyword s then .error invalidSyntax else .ok rest
  | _ => .error invalidSyntax

/-- A new name for what is imported. -/
def renamed (ts : List Token) : Except String (List Token) :=
  match expectWord "as" ts with
  | none => .ok ts
  | some (.name s :: rest) => if isKeyword s then .error invalidSyntax else .ok rest
  | some _ => .error invalidSyntax

/-- Items with commas between them. -/
def commaList (item : List Token → Except String (List Token)) : Nat → List Token → Statements
  | 0, _ => .error invalidSyntax
  | steps + 1, ts => do
    let ts ← item ts
    match expect "," ts with
    | none => .ok ts
    | some ts => commaList item steps ts

def plainName : List Token → Except String (List Token)
  | .name s :: rest => if isKeyword s then .error invalidSyntax else .ok rest
  | _ => .error invalidSyntax

/-- What is imported from a module: everything, or names, in brackets or not. -/
def importedNames (ts : List Token) : Statements :=
  let names := commaList (fun ts => do renamed (← plainName ts)) (ts.length + 1)
  match ts with
  | .op "*" :: rest => .ok rest
  | .op "(" :: rest => do orInvalid (expect ")" (← names rest))
  | _ => names ts

def skipDots : List Token → List Token
  | .op "." :: rest | .op "..." :: rest => skipDots rest
  | ts => ts

def importFrom (ts : List Token) : Statements := do
  let after := skipDots ts
  let after ← if after.length < ts.length && atWord "import" after then pure after else dottedName after
  importedNames (← orInvalid (expectWord "import" after))

def optionalExpressions (fuel : Nat) (ts : List Token) : Statements :=
  if atEnd ts then .ok ts else (expressionList fuel ts).map Prod.snd

/-- A statement that stands in a wrong place, provided it is one. -/
def misplaced (message : String) (r : Statements) : Statements := do
  let ts ← r
  if atEnd ts then .error message else .error invalidSyntax

/-- One simple statement. -/
def statement (fuel : Nat) (ts : List Token) : Statements :=
  match ts with
  | .name "pass" :: rest => .ok rest
  | .name "break" :: rest => misplaced "'break' outside loop" (.ok rest)
  | .name "continue" :: rest => misplaced "'continue' not properly in loop" (.ok rest)
  | .name "return" :: rest => misplaced "'return' outside function" (optionalExpressions fuel rest)
  | .name "import" :: rest =>
    commaList (fun ts => do renamed (← dottedName ts)) (rest.length + 1) rest
  | .name "from" :: rest => importFrom rest
  | .name "global" :: rest => commaList plainName (rest.length + 1) rest
  | .name "nonlocal" :: rest =>
    misplaced "nonlocal declaration not allowed at module level" (commaList plainName (rest.length + 1) rest)
  | .name "del" :: rest => do
    let (e, rest) ← expressionList fuel rest
    match unassignable? e with
    | none => .ok rest
    | some kind => .error ("cannot delete " ++ kind)
  | .name "assert" :: rest => (expressionList fuel rest).map Prod.snd
  | .name "raise" :: rest => do
    let rest ← optionalExpressions fuel rest
    match expectWord "from" rest with
    | none => .ok rest
    | some rest => do pure (← orInvalid (expression fuel rest)).2
  | _ => expressionStatement fuel ts

/-- Statements with semicolons between them, up to the end of the line. -/
def statements (fuel : Nat) : Nat → List Token → Option String
  | 0, _ => none
  | steps + 1, ts =>
    match statement fuel ts with
    | .error message => some message
    | .ok rest =>
      match rest with
      | [] | .line :: _ | [.op ";"] | .op ";" :: .line :: _ => none
      | .op ";" :: rest => statements fuel steps rest
      | _ => some invalidSyntax

/-! Lines -/

/-- Whether a line that is neither empty nor a comment starts with a gap. -/
def isIndented (cs : List Char) : Bool :=
  match lineStart cs with
  | .refused => true
  | _ => false

/-- What is wrong with one line; empty lines and comments are always right. -/
def lineFault? (cs : List Char) : Option String :=
  match (cs.dropWhile isGap).head? with
  | none | some '#' | some '\n' => none
  | _ =>
    if isIndented cs then some "unexpected indent"
    else
      match scan (2 * cs.length + 2) true 0 cs with
      | none => some invalidSyntax
      | some [.line] => none
      | some ts => statements (24 * (cs.length + 4)) (ts.length + 1) ts

/-- Whether a line goes on in the next one. -/
def isOpen (cs : List Char) : Bool :=
  match surface (cs.length + 1) 1 [] (cs ++ ['\n']) with
  | .ok [] => cs.getLast? = some '\\'
  | _ => true

/-- Logical lines with the numbers of their first lines; `before` is what has been read of the
present one. An empty line follows the last. -/
def logicalLines (line : Nat) (before : List Char) : List (List Char) → List (Nat × List Char)
  | [] => if before.isEmpty then [] else [(line, before ++ ['\n', '\n'])]
  | cs :: rest =>
    let whole := if before.isEmpty then cs else before ++ ['\n'] ++ cs
    if isOpen whole then logicalLines line whole rest
    else (line, whole) :: logicalLines (line + 1 + lineBreaks whole) [] rest

def indentFault? (lines : List (Nat × List Char)) : Option SyntaxFault :=
  (lines.find? fun l => isIndented l.2).map fun l => ⟨"unexpected indent", l.1⟩

def linesFault? (lines : List (Nat × List Char)) : Option SyntaxFault :=
  lines.findSome? fun l => (lineFault? l.2).map fun message => ⟨message, l.1⟩

end Flowgraph.Program
