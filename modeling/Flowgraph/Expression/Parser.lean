import Flowgraph.Expression.Quotation

/-! From tokens to expressions. Operators bind in the usual order, powers to the right and all
others to the left; the fuel bounds the depth and is computed from the number of tokens. -/

namespace Flowgraph.Expression

/-- What was read, and the tokens after it. -/
abbrev Ahead (α : Type) := α × List Token

def keywords : List String :=
  ["False", "None", "True", "and", "as", "assert", "async", "await", "break", "class", "continue", "def", "del",
   "elif", "else", "except", "finally", "for", "from", "global", "if", "import", "in", "is", "lambda", "nonlocal",
   "not", "or", "pass", "raise", "return", "try", "while", "with", "yield"]

def isKeyword (s : String) : Bool :=
  keywords.contains s

/-- Drop one operator token. -/
def expect (op : String) : List Token → Option (List Token)
  | .op s :: rest => if s = op then some rest else none
  | _ => none

def expectWord (word : String) : List Token → Option (List Token)
  | .name s :: rest => if s = word then some rest else none
  | _ => none

def atOp (op : String) (ts : List Token) : Bool :=
  (expect op ts).isSome

def atWord (word : String) (ts : List Token) : Bool :=
  (expectWord word ts).isSome

/-- Binary operators by how tightly they bind, loosest first. -/
def binaryOps : List (List (String × BinaryOp)) :=
  [[("|", .bitOr)], [("^", .bitXor)], [("&", .bitAnd)], [("<<", .shiftLeft), (">>", .shiftRight)],
   [("+", .add), ("-", .sub)],
   [("*", .mul), ("/", .divide), ("//", .floorDivide), ("%", .modulo), ("@", .matMul)]]

def unaryOp? (s : String) : Option UnaryOp :=
  match s with
  | "+" => some .plus
  | "-" => some .minus
  | "~" => some .invert
  | _ => none

def operatorIn (ops : List (String × BinaryOp)) : List Token → Option (Ahead BinaryOp)
  | .op s :: rest => (ops.find? fun entry => entry.1 = s).map fun entry => (entry.2, rest)
  | _ => none

def compareOp? : List Token → Option (Ahead CompareOp)
  | .op "==" :: rest => some (.equal, rest)
  | .op "!=" :: rest => some (.notEqual, rest)
  | .op "<" :: rest => some (.less, rest)
  | .op "<=" :: rest => some (.lessEqual, rest)
  | .op ">" :: rest => some (.greater, rest)
  | .op ">=" :: rest => some (.greaterEqual, rest)
  | .name "in" :: rest => some (.member, rest)
  | .name "not" :: .name "in" :: rest => some (.notMember, rest)
  | .name "is" :: .name "not" :: rest => some (.notSame, rest)
  | .name "is" :: rest => some (.same, rest)
  | _ => none

/-- The quotations at the front. -/
def quotations : List Token → List Quotation × List Token
  | .quotation q :: rest =>
    let (qs, tail) := quotations rest
    (q :: qs, tail)
  | ts => ([], ts)

/-- Adjacent plain quotations are one literal. -/
def joinQuotations (qs : List Quotation) : Option Literal := do
  let bodies ← qs.mapM decode
  let cs := bodies.flatten
  if qs.all Quotation.bytes then
    if qs.all fun q => q.body.all fun c => c.toNat < 128 then some (.bytes (cs.map Char.toNat)) else none
  else if qs.any Quotation.bytes then none
  else some (.text (String.ofList cs))

/-- Names that are given a value inside the tokens. -/
def assignedNames : List Token → List String
  | .name s :: .op ":=" :: rest => s :: assignedNames rest
  | _ :: rest => assignedNames rest
  | [] => []

def consumed (before after : List Token) : List Token :=
  before.take (before.length - after.length)

mutual

def targetNames : Target → List String
  | .name s => [s]
  | .group parts => targetsNames parts

def targetsNames : List Target → List String
  | [] => []
  | t :: rest => targetNames t ++ targetsNames rest

end

/-- Positional arguments come before named ones, and no name comes twice. -/
def wellOrdered (arguments : List Expr) (next : Expr) : Bool :=
  let named := arguments.any fun a => match a with
    | .named _ _ => true
    | _ => false
  let spreadNamed := arguments.any fun a => match a with
    | .spreadNamed _ => true
    | _ => false
  match next with
  | .named s _ => !arguments.any fun a => match a with
    | .named t _ => s = t
    | _ => false
  | .spreadNamed _ => true
  | .spread _ => !spreadNamed
  | _ => !named && !spreadNamed

mutual

def expression : Nat → List Token → Option (Ahead Expr)
  | 0, _ => none
  | n + 1, ts =>
    if atWord "lambda" ts then function n (ts.drop 1)
    else do
      let (yes, ts) ← disjunction n ts
      match expectWord "if" ts with
      | none => some (yes, ts)
      | some ts =>
        let (condition, ts) ← disjunction n ts
        let ts ← expectWord "else" ts
        let (no, ts) ← expression n ts
        some (.choose condition yes no, ts)

/-- An expression, or one that is given a name. -/
def named : Nat → List Token → Option (Ahead Expr)
  | 0, _ => none
  | n + 1, ts =>
    match ts with
    | .name s :: .op ":=" :: rest =>
      if isKeyword s || s = "__debug__" then none
      else (expression n rest).map fun (e, rest) => (.assign s e, rest)
    | _ => expression n ts

def disjunction : Nat → List Token → Option (Ahead Expr)
  | 0, _ => none
  | n + 1, ts => do
    let (a, ts) ← conjunction n ts
    match expectWord "or" ts with
    | none => some (a, ts)
    | some ts => (disjunction n ts).map fun (b, ts) => (.either a b, ts)

def conjunction : Nat → List Token → Option (Ahead Expr)
  | 0, _ => none
  | n + 1, ts => do
    let (a, ts) ← inversion n ts
    match expectWord "and" ts with
    | none => some (a, ts)
    | some ts => (conjunction n ts).map fun (b, ts) => (.both a b, ts)

def inversion : Nat → List Token → Option (Ahead Expr)
  | 0, _ => none
  | n + 1, ts =>
    match expectWord "not" ts with
    | some ts => (inversion n ts).map fun (e, ts) => (.unary .negation e, ts)
    | none => do
      let (first, ts) ← binary n 0 ts
      let (rest, ts) ← comparisons n ts
      some (if rest.isEmpty then first else .compare first rest, ts)

def comparisons : Nat → List Token → Option (Ahead (List (CompareOp × Expr)))
  | 0, _ => none
  | n + 1, ts =>
    match compareOp? ts with
    | none => some ([], ts)
    | some (op, ts) => do
      let (e, ts) ← binary n 0 ts
      let (rest, ts) ← comparisons n ts
      some ((op, e) :: rest, ts)

/-- An operand and the operators of one level, and of the tighter ones, after it. -/
def binary : Nat → Nat → List Token → Option (Ahead Expr)
  | 0, _, _ => none
  | n + 1, level, ts =>
    match binaryOps[level]? with
    | none => unary n ts
    | some ops => do
      let (a, ts) ← binary n (level + 1) ts
      binaryRest n level ops a ts

def binaryRest : Nat → Nat → List (String × BinaryOp) → Expr → List Token → Option (Ahead Expr)
  | 0, _, _, _, _ => none
  | n + 1, level, ops, a, ts =>
    match operatorIn ops ts with
    | none => some (a, ts)
    | some (op, ts) => do
      let (b, ts) ← binary n (level + 1) ts
      binaryRest n level ops (.binary op a b) ts

def unary : Nat → List Token → Option (Ahead Expr)
  | 0, _ => none
  | n + 1, ts =>
    match ts with
    | .op s :: rest =>
      match unaryOp? s with
      | some op => (unary n rest).map fun (e, rest) => (.unary op e, rest)
      | none => power n ts
    | _ => power n ts

def power : Nat → List Token → Option (Ahead Expr)
  | 0, _ => none
  | n + 1, ts => do
    let (e, ts) ← atom n ts
    let (e, ts) ← trailers n e ts
    match expect "**" ts with
    | none => some (e, ts)
    | some ts => (unary n ts).map fun (b, ts) => (.binary .power e b, ts)

/-- Members, subscripts and calls after an expression. -/
def trailers : Nat → Expr → List Token → Option (Ahead Expr)
  | 0, _, _ => none
  | n + 1, e, ts =>
    match ts with
    | .op "." :: .name s :: rest => if isKeyword s then none else trailers n (.member e s) rest
    | .op "(" :: rest => do
      let (args, rest) ← arguments n [] rest
      trailers n (.call e args) rest
    | .op "[" :: rest => do
      let (index, rest) ← subscript n rest
      let rest ← expect "]" rest
      trailers n (.item e index) rest
    | _ => some (e, ts)

/-- Arguments up to the closing bracket. -/
def arguments : Nat → List Expr → List Token → Option (Ahead (List Expr))
  | 0, _, _ => none
  | n + 1, before, ts =>
    match expect ")" ts with
    | some ts => some (before, ts)
    | none => do
      let (a, ts) ← argument n ts
      if !wellOrdered before a then none
      else if atWord "for" ts then
        -- a comprehension must be the only argument
        if !before.isEmpty then none
        else do
          let (cs, ts) ← clauses n ts
          let ts ← expect ")" ts
          some ([.gather .stream a cs], ts)
      else if atOp ")" ts then some (before ++ [a], ts.drop 1)
      else do
        let ts ← expect "," ts
        arguments n (before ++ [a]) ts

def argument : Nat → List Token → Option (Ahead Expr)
  | 0, _ => none
  | n + 1, ts =>
    match ts with
    | .op "*" :: rest => (expression n rest).map fun (e, rest) => (.spread e, rest)
    | .op "**" :: rest => (expression n rest).map fun (e, rest) => (.spreadNamed e, rest)
    | .name s :: .op "=" :: rest =>
      if isKeyword s then none else (expression n rest).map fun (e, rest) => (.named s e, rest)
    | _ => named n ts

/-- What stands between square brackets after an expression: one index or slice, or several. -/
def subscript : Nat → List Token → Option (Ahead Expr)
  | 0, _ => none
  | n + 1, ts => do
    let (first, ts) ← subscriptPart n ts
    match first, expect "," ts with
    | .spread _, none => some (.tuple [first], ts)
    | _, none => some (first, ts)
    | _, some ts => do
      let (rest, ts) ← subscriptParts n ts
      some (.tuple (first :: rest), ts)

def subscriptParts : Nat → List Token → Option (Ahead (List Expr))
  | 0, _ => none
  | n + 1, ts =>
    if atOp "]" ts then some ([], ts)
    else do
      let (e, ts) ← subscriptPart n ts
      match expect "," ts with
      | none => some ([e], ts)
      | some ts => (subscriptParts n ts).map fun (rest, ts) => (e :: rest, ts)

def subscriptPart : Nat → List Token → Option (Ahead Expr)
  | 0, _ => none
  | n + 1, ts =>
    match ts with
    | .op ":" :: rest => sliceRest n none rest
    | .op "*" :: rest => (binary n 0 rest).map fun (e, rest) => (.spread e, rest)
    | _ => do
      let (e, rest) ← named n ts
      match expect ":" rest with
      | none => some (e, rest)
      | some rest => sliceRest n (some e) rest

def sliceRest : Nat → Option Expr → List Token → Option (Ahead Expr)
  | 0, _, _ => none
  | n + 1, low, ts => do
    let (high, ts) ← sliceBound n ts
    match expect ":" ts with
    | none => some (.slice low high none, ts)
    | some ts => (sliceBound n ts).map fun (step, ts) => (.slice low high step, ts)

def sliceBound : Nat → List Token → Option (Ahead (Option Expr))
  | 0, _ => none
  | n + 1, ts =>
    if atOp ":" ts || atOp "]" ts || atOp "," ts then some (none, ts)
    else (expression n ts).map fun (e, ts) => (some e, ts)

def atom : Nat → List Token → Option (Ahead Expr)
  | 0, _ => none
  | n + 1, ts =>
    match ts with
    | .name "True" :: rest | .name "__debug__" :: rest => some (.literal (.bool true), rest)
    | .name "False" :: rest => some (.literal (.bool false), rest)
    | .name "None" :: rest => some (.literal .none, rest)
    | .name s :: rest => if isKeyword s then none else some (.name s, rest)
    | .literal l :: rest => some (.literal l, rest)
    | .op "..." :: rest => some (.literal .ellipsis, rest)
    | .op "(" :: rest => inRound n rest
    | .op "[" :: rest => inSquare n rest
    | .op "\x7b" :: rest => inCurly n rest
    | .quotation _ :: _ =>
      let (qs, rest) := quotations ts
      if qs.any Quotation.formatted then
        if qs.any Quotation.bytes then none
        else (joined n qs).map fun parts => (.joined parts, rest)
      else (joinQuotations qs).map fun l => (.literal l, rest)
    | _ => none

def inRound : Nat → List Token → Option (Ahead Expr)
  | 0, _ => none
  | n + 1, ts =>
    match expect ")" ts with
    | some ts => some (.tuple [], ts)
    | none => do
      let (e, rest) ← element n ts
      match e, rest with
      | .spread _, .op ")" :: _ => none
      | _, .op ")" :: rest => some (e, rest)
      | _, .op "," :: rest => do
        let (es, rest) ← elements n ")" rest
        some (.tuple (e :: es), rest)
      | _, _ => do
        let (e, rest) ← gathered n .stream e ts rest
        some (e, ← expect ")" rest)

def inSquare : Nat → List Token → Option (Ahead Expr)
  | 0, _ => none
  | n + 1, ts =>
    match expect "]" ts with
    | some ts => some (.list [], ts)
    | none => do
      let (e, rest) ← element n ts
      match rest with
      | .op "]" :: rest => some (.list [e], rest)
      | .op "," :: rest => do
        let (es, rest) ← elements n "]" rest
        some (.list (e :: es), rest)
      | _ => do
        let (e, rest) ← gathered n .list e ts rest
        some (e, ← expect "]" rest)

def inCurly : Nat → List Token → Option (Ahead Expr)
  | 0, _ => none
  | n + 1, ts =>
    match ts with
    | .op "\x7d" :: rest => some (.table [], rest)
    | .op "**" :: _ => (entries n ts).map fun (es, rest) => (.table es, rest)
    | _ => do
      let (e, rest) ← element n ts
      match e, rest with
      | _, .op "\x7d" :: rest => some (.set [e], rest)
      | _, .op "," :: rest => do
        let (es, rest) ← elements n "\x7d" rest
        some (.set (e :: es), rest)
      | .assign _ _, .op ":" :: _ | .spread _, .op ":" :: _ => none
      | _, .op ":" :: rest => do
        let (v, rest) ← expression n rest
        match rest with
        | .op "\x7d" :: rest => some (.table [(some e, v)], rest)
        | .op "," :: rest => do
          let (es, rest) ← entries n rest
          some (.table ((some e, v) :: es), rest)
        | _ => do
          let (cs, after) ← clauses n rest
          let names := (cs.map fun c => targetNames c.1).flatten
          if (assignedNames (consumed ts after)).any names.contains then none
          else some (.gatherTable e v cs, ← expect "\x7d" after)
      | _, _ => do
        let (e, rest) ← gathered n .set e ts rest
        some (e, ← expect "\x7d" rest)

/-- A comprehension whose element has been read; `start` are the tokens from its beginning. -/
def gathered : Nat → Gathering → Expr → List Token → List Token → Option (Ahead Expr)
  | 0, _, _, _, _ => none
  | n + 1, shape, e, start, ts =>
    match e with
    | .spread _ => none
    | _ => do
      let (cs, after) ← clauses n ts
      let names := (cs.map fun c => targetNames c.1).flatten
      if (assignedNames (consumed start after)).any names.contains then none
      else some (.gather shape e cs, after)

/-- An item of a display, or several spread from one. -/
def element : Nat → List Token → Option (Ahead Expr)
  | 0, _ => none
  | n + 1, ts =>
    match expect "*" ts with
    | some ts => (binary n 0 ts).map fun (e, ts) => (.spread e, ts)
    | none => named n ts

/-- Items up to a closing bracket. -/
def elements : Nat → String → List Token → Option (Ahead (List Expr))
  | 0, _, _ => none
  | n + 1, close, ts =>
    match expect close ts with
    | some ts => some ([], ts)
    | none => do
      let (e, ts) ← element n ts
      match expect close ts with
      | some ts => some ([e], ts)
      | none => do
        let ts ← expect "," ts
        let (es, ts) ← elements n close ts
        some (e :: es, ts)

/-- Entries of a table up to the closing bracket. -/
def entries : Nat → List Token → Option (Ahead (List (Option Expr × Expr)))
  | 0, _ => none
  | n + 1, ts =>
    match expect "\x7d" ts with
    | some ts => some ([], ts)
    | none => do
      let (e, ts) ← entry n ts
      match expect "\x7d" ts with
      | some ts => some ([e], ts)
      | none => do
        let ts ← expect "," ts
        let (es, ts) ← entries n ts
        some (e :: es, ts)

def entry : Nat → List Token → Option (Ahead (Option Expr × Expr))
  | 0, _ => none
  | n + 1, ts =>
    match expect "**" ts with
    | some ts => (binary n 0 ts).map fun (e, ts) => ((none, e), ts)
    | none => do
      let (k, ts) ← expression n ts
      let ts ← expect ":" ts
      let (v, ts) ← expression n ts
      some ((some k, v), ts)

/-- The clauses of a comprehension; names may not be assigned in what they go through. -/
def clauses : Nat → List Token → Option (Ahead (List (Target × Expr × List Expr)))
  | 0, _ => none
  | n + 1, ts => do
    let ts ← expectWord "for" ts
    let (t, ts) ← target n ts
    let ts ← expectWord "in" ts
    let (source, rest) ← disjunction n ts
    if !(assignedNames (consumed ts rest)).isEmpty then none
    else
      let (conditions, rest) ← clauseConditions n rest
      if atWord "for" rest then
        (clauses n rest).map fun (cs, rest) => ((t, source, conditions) :: cs, rest)
      else some ([(t, source, conditions)], rest)

def clauseConditions : Nat → List Token → Option (Ahead (List Expr))
  | 0, _ => none
  | n + 1, ts =>
    match expectWord "if" ts with
    | none => some ([], ts)
    | some ts => do
      let (e, ts) ← disjunction n ts
      let (es, ts) ← clauseConditions n ts
      some (e :: es, ts)

/-- One target, or several with commas between them. -/
def target : Nat → List Token → Option (Ahead Target)
  | 0, _ => none
  | n + 1, ts => do
    let (t, ts) ← targetPart n ts
    if atOp "," ts then
      let (more, ts) ← targetRest n ts
      some (.group (t :: more), ts)
    else some (t, ts)

def targetRest : Nat → List Token → Option (Ahead (List Target))
  | 0, _ => none
  | n + 1, ts =>
    match expect "," ts with
    | none => some ([], ts)
    | some ts =>
      if atWord "in" ts || atOp ")" ts || atOp "]" ts then some ([], ts)
      else do
        let (t, ts) ← targetPart n ts
        let (more, ts) ← targetRest n ts
        some (t :: more, ts)

def targetPart : Nat → List Token → Option (Ahead Target)
  | 0, _ => none
  | n + 1, ts =>
    match ts with
    | .name s :: rest => if isKeyword s || s = "__debug__" then none else some (.name s, rest)
    | .op "(" :: .op ")" :: rest | .op "[" :: .op "]" :: rest => some (.group [], rest)
    | .op "(" :: rest => do
      let (t, rest) ← target n rest
      some (t, ← expect ")" rest)
    | .op "[" :: rest => do
      let (t, rest) ← target n rest
      let rest ← expect "]" rest
      match t with
      | .group _ => some (t, rest)
      | .name _ => some (.group [t], rest)
    | _ => none

/-- The rest of an anonymous function after its keyword. -/
def function : Nat → List Token → Option (Ahead Expr)
  | 0, _ => none
  | n + 1, ts => do
    let (ps, ts) ← parameters n [] ts
    let (body, ts) ← expression n ts
    some (.function ps body, ts)

/-- Parameters up to the colon. -/
def parameters : Nat → List (String × Parameter × Option Expr) → List Token →
    Option (Ahead (List (String × Parameter × Option Expr)))
  | 0, _, _ => none
  | n + 1, before, ts =>
    match expect ":" ts with
    | some ts => some (before, ts)
    | none => do
      let (p, ts) ← parameter n before ts
      let fresh := !before.any fun q => q.1 ≠ "" && q.1 = p.1
      let ordered := p.2.2.isSome || p.2.1 ≠ .plain || before.all fun q => q.2.1 ≠ .plain || q.2.2.isNone
      let last := before.all fun q => q.2.1 ≠ .namedRest
      if !fresh || !ordered || !last then none
      else if atOp ":" ts then some (before ++ [p], ts.drop 1)
      else do
        let ts ← expect "," ts
        parameters n (before ++ [p]) ts

/-- A parameter; after one that takes the rest, all others are given by name. -/
def parameter : Nat → List (String × Parameter × Option Expr) → List Token →
    Option (Ahead (String × Parameter × Option Expr))
  | 0, _, _ => none
  | n + 1, before, ts =>
    let restTaken := before.any fun q => q.2.1 = .rest
    match ts with
    | .op "**" :: .name s :: rest => if isKeyword s then none else some ((s, .namedRest, none), rest)
    | .op "*" :: .op "," :: .name s :: rest =>
      if restTaken || isKeyword s then none else some (("", .rest, none), .op "," :: .name s :: rest)
    | .op "*" :: .name s :: rest =>
      if restTaken || isKeyword s then none else some ((s, .rest, none), rest)
    | .name s :: rest =>
      let kind := if restTaken then Parameter.named else .plain
      if isKeyword s then none
      else
        match expect "=" rest with
        | none => some ((s, kind, none), rest)
        | some rest => (expression n rest).map fun (e, rest) => ((s, kind, some e), rest)
    | _ => none

/-- The parts of quotations of which some hold expressions in braces. -/
def joined : Nat → List Quotation → Option (List Expr)
  | 0, _ => none
  | _, [] => some []
  | n + 1, q :: rest => do
    let others ← joined n rest
    if q.formatted then
      let (ps, _) ← pieces q.raw (q.body.length + 1) 0 q.body
      let parts ← fields n ps
      some (parts ++ others)
    else
      let cs ← decode q
      some (.literal (.text (String.ofList cs)) :: others)

def fields : Nat → List Piece → Option (List Expr)
  | 0, _ => none
  | _, [] => some []
  | n + 1, p :: rest => do
    let others ← fields n rest
    match p with
    | .plain cs => some (.literal (.text (String.ofList cs)) :: others)
    | .field source echo conversion spec => do
      let ts ← tokens ('(' :: source ++ [')'])
      let (e, ts) ← atom n ts
      match ts with
      | [.line] =>
        let spec ←
          match spec with
          | none => some none
          | some ps => (fields n ps).map fun parts => some (Expr.joined parts)
        let conversion := if echo.isSome && conversion.isNone && spec.isNone then some 'r' else conversion
        let front := echo.toList.map fun cs => Expr.literal (.text (String.ofList cs))
        some (front ++ .formatted e conversion spec :: others)
      | _ => none

end

def expressionsRest : Nat → Nat → List Token → Option (Ahead (List Expr))
  | 0, _, _ => none
  | steps + 1, fuel, ts =>
    match expect "," ts with
    | none => some ([], ts)
    | some ts =>
      match ts with
      | .line :: _ | [] => some ([], ts)
      | _ => do
        let (e, ts) ← expression fuel ts
        let (es, ts) ← expressionsRest steps fuel ts
        some (e :: es, ts)

/-- The expression that a text stands for. Expressions with commas between them form a tuple. -/
def parse (source : String) : Option Expr := do
  let cs := source.toList
  let ts ← tokens cs
  let fuel := 24 * (cs.length + 4)
  let (first, rest) ← expression fuel ts
  let whole ←
    if atOp "," rest then do
      let (es, rest) ← expressionsRest (cs.length + 1) fuel rest
      some (Expr.tuple (first :: es), rest)
    else some (first, rest)
  if whole.2.all fun t => match t with
    | .line => true
    | _ => false
  then some whole.1 else none

end Flowgraph.Expression
