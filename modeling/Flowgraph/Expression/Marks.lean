import Flowgraph.Expression.Format

/-! Text with marks that data are put into. A mark is a percent sign, an optional name in brackets,
flags, a width, a precision and a letter. Named marks look their data up, the others take them in
order. -/

namespace Flowgraph

namespace Marks

/-- A width or a precision: written out, or taken from the data. -/
inductive Extent where
  | given (n : Nat)
  | taken

structure Mark where
  name : Option String := none
  flags : List Char := []
  width : Extent := .given 0
  precision : Option Extent := none
  letter : Char
  /-- Where the letter is in the text. -/
  position : Nat

inductive Piece where
  | plain (c : Char)
  | mark (m : Mark)
  | broken (message : String)

/-- The data that are still to be put in, and what named data are looked up in. -/
structure Source where
  items : List Datum
  table : Option Datum := none

/-! Reading marks -/

/-- The name up to the bracket that closes it. -/
def readName : Nat → List Char → List Char → Option (List Char × List Char)
  | _, _, [] => none
  | depth, acc, c :: rest =>
    if c = ')' then
      match depth with
      | 0 => some (acc.reverse, rest)
      | d + 1 => readName d (c :: acc) rest
    else readName (if c = '(' then depth + 1 else depth) (c :: acc) rest

def readExtent : List Char → Extent × List Char
  | '*' :: rest => (.taken, rest)
  | cs => (.given (Format.natOf (cs.takeWhile Format.digit?)), cs.dropWhile Format.digit?)

def isFlag (c : Char) : Bool :=
  ['-', '+', ' ', '#', '0'].contains c

/-- The part of a mark behind its name, in a text of which `total` characters are counted. -/
def readBody (total : Nat) (name : Option String) (cs : List Char) : Piece × List Char :=
  let flags := cs.takeWhile isFlag
  let (width, cs) := readExtent (cs.dropWhile isFlag)
  let (precision, cs) := match cs with
    | '.' :: rest =>
      let (p, tail) := readExtent rest
      (some p, tail)
    | _ => (none, cs)
  let cs := match cs with
    | 'h' :: rest | 'l' :: rest | 'L' :: rest => rest
    | _ => cs
  match cs with
  | [] => (.broken "incomplete format", [])
  | letter :: rest =>
    (.mark { name, flags, width, precision, letter, position := total - rest.length - 1 }, rest)

def readMark (total : Nat) : List Char → Piece × List Char
  | '(' :: rest =>
    match readName 0 [] rest with
    | none => (.broken "incomplete format key", [])
    | some (name, body) => readBody total (some (String.ofList name)) body
  | cs => readBody total none cs

def pieces (total : Nat) : Nat → List Char → List Piece
  | 0, _ => []
  | _, [] => []
  | fuel + 1, '%' :: rest =>
    let (piece, tail) := readMark total rest
    piece :: pieces total fuel tail
  | fuel + 1, c :: rest => .plain c :: pieces total fuel rest

/-! Putting data in -/

def Source.next (s : Source) : Except Failure (Datum × Source) :=
  match s.items with
  | d :: rest => .ok (d, { s with items := rest })
  | [] => Failure.badType "not enough arguments for format string"

/-- From here on the named datum is the only one that is left. -/
def Source.named (s : Source) (name : String) : Except Failure Source :=
  match s.table with
  | none => Failure.badType "format requires a mapping"
  | some (.table entries) =>
    match entries.find? fun e => e.1.same (.text name) with
    | some e => .ok { s with items := [e.2] }
    | none => .error ⟨.noKey, Text.quoted name⟩
  | some _ => Failure.badType "indices must be integers"

/-- An extent, and whether it was negative. -/
def Source.extent (s : Source) : Extent → Except Failure (Nat × Bool × Source)
  | .given n => .ok (n, false, s)
  | .taken => do
    let (d, s) ← s.next
    match d.whole? with
    | some n => .ok (n.natAbs, n < 0, s)
    | none => Failure.badType "* wants int"

def wholeOf (letter : Char) (d : Datum) : Except Failure Int :=
  match d.number? with
  | some (.int n) => .ok n
  | some (.float x) =>
    if letter = 'x' || letter = 'X' || letter = 'o' then
      Failure.badType
        ("%" ++ String.singleton letter ++ " format: an integer is required, not " ++ d.kind)
    else (Number.float x).truncate
  | none =>
    Failure.badType
      ("%" ++ String.singleton letter ++ " format: "
        ++ (if letter = 'x' || letter = 'X' || letter = 'o' then "an integer" else "a real number")
        ++ " is required, not " ++ d.kind)

def wholeParts (f : Format) (letter : Char) (n : Int) : List Char × List Char :=
  let (radix, mark) := match letter with
    | 'x' => (16, ['0', 'x'])
    | 'X' => (16, ['0', 'X'])
    | 'o' => (8, ['0', 'o'])
    | _ => (10, [])
  let ds := Nat.toDigits radix n.natAbs
  let ds := if letter = 'X' then ds.map Char.toUpper else ds
  (f.signOf (n < 0) ++ (if f.alternate then mark else []),
   List.replicate (f.precision.getD 0 - ds.length) '0' ++ ds)

def charOf (d : Datum) : Except Failure (List Char) :=
  match d with
  | .text s => if s.length = 1 then .ok s.toList else Failure.badType "%c requires int or char"
  | _ =>
    match d.whole? with
    | none => Failure.badType "%c requires int or char"
    | some n =>
      if 0 ≤ n && n.toNat.isValidChar then .ok [Char.ofNat n.toNat]
      else .error ⟨.overflow, "%c arg not in range(0x110000)"⟩

/-- The text in which everything outside ASCII is escaped. -/
def asciiText (s : String) : List Char :=
  s.toList.flatMap fun c =>
    if c.toNat < 128 then [c]
    else if c.toNat < 256 then ['\\', 'x'] ++ Text.hex 2 c.toNat
    else if c.toNat < 65536 then ['\\', 'u'] ++ Text.hex 4 c.toNat
    else ['\\', 'U'] ++ Text.hex 8 c.toNat

def put (m : Mark) (f : Format) (d : Datum) : Except Failure (List Char) :=
  let words (cs : List Char) : Except Failure (List Char) :=
    let kept := match f.precision with
      | some n => cs.take n
      | none => cs
    let f : Format := { f with fill := ' ', align := if f.align = some '=' then none else f.align }
    .ok (f.pad '>' [] kept)
  match m.letter with
  | 's' => words d.display.toList
  | 'r' => words d.literal.toList
  | 'a' => words (asciiText d.literal)
  | 'c' => do words (← charOf d)
  | 'd' | 'i' | 'u' | 'x' | 'X' | 'o' => do
    let (front, body) := wholeParts f m.letter (← wholeOf m.letter d)
    .ok (f.pad '>' front body)
  | 'e' | 'E' | 'f' | 'F' | 'g' | 'G' =>
    match d.number? with
    | none => Failure.badType ("must be real number, not " ++ d.kind)
    | some n => do
      let f : Format := { f with letter := some m.letter }
      f.formatFloat (← n.toFloat)
  | c =>
    Failure.badValue
      ("unsupported format character '" ++ String.singleton c ++ "' (0x"
        ++ String.ofList (Nat.toDigits 16 c.toNat) ++ ") at index " ++ toString m.position)

def formatOf (m : Mark) (width : Nat) (left : Bool) (precision : Option Nat) : Format :=
  let has (c : Char) := m.flags.contains c
  let left := left || has '-'
  { fill := if has '0' && !left then '0' else ' '
    align := if left then some '<' else if has '0' then some '=' else none
    sign := if has '+' then some '+' else if has ' ' then some ' ' else none
    alternate := has '#'
    width, precision }

def fillMark (m : Mark) (s : Source) : Except Failure (List Char × Source) := do
  let s ← match m.name with
    | none => .ok s
    | some name => s.named name
  let (width, left, s) ← s.extent m.width
  let (precision, s) ← match m.precision with
    | none => .ok (none, s)
    | some e => do
      let (n, negative, s) ← s.extent e
      .ok (some (if negative then 0 else n), s)
  if m.letter = '%' then .ok (['%'], s)
  else
    let (d, s) ← s.next
    let cs ← put m (formatOf m width left precision) d
    .ok (cs, s)

def fillPieces : Source → List Piece → Except Failure (List Char)
  | s, [] =>
    if s.items.isEmpty || s.table.isSome then .ok []
    else Failure.badType "not all arguments converted during string formatting"
  | s, .plain c :: rest => (fillPieces s rest).map (c :: ·)
  | _, .broken message :: _ => Failure.badValue message
  | s, .mark m :: rest => do
    let (cs, s) ← fillMark m s
    (fillPieces s rest).map (cs ++ ·)

/-- A text with data put in. -/
def fill (s : String) (source : Source) : Except Failure String :=
  let cs := s.toList
  (fillPieces source (pieces cs.length cs.length cs)).map String.ofList

/-- What a single datum fills: a tuple gives its items, and a table can be looked up in. -/
def sourceOf : Datum → Source
  | .tuple items => { items }
  | d =>
    { items := [d]
      table := match d with
        | .table _ | .list _ | .bytes _ => some d
        | _ => none }

end Marks

end Flowgraph
