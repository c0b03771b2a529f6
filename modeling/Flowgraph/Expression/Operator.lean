import Flowgraph.Expression.Complex
import Flowgraph.Expression.Marks

/-! Operators on data: arithmetic, bits, order, membership and subscripts. -/

namespace Flowgraph.Datum

abbrev Outcome := Except Failure Datum

def mismatch {α : Type} : Except Failure α :=
  Failure.badType "unsupported operand"

def unhashable {α : Type} : Except Failure α :=
  Failure.badType "unhashable"

/-- Results may not grow beyond this many items. -/
def sizeLimit : Nat := 10000000

def ofComplex (c : Complex) : Datum :=
  complex c.re c.im

def asComplex (d : Datum) : Except Failure Complex :=
  match d.complex? with
  | some (re, im) => .ok ⟨re, im⟩
  | .none => if d.number?.isSome then .error Number.tooLarge else mismatch

/-- Arithmetic on numbers of any kind. -/
def numeric (onReals : Number → Number → Except Failure Number)
    (onComplex : Complex → Complex → Except Failure Complex) (a b : Datum) : Outcome :=
  match a.number?, b.number? with
  | some x, some y => (onReals x y).map ofNumber
  | _, _ =>
    if (a.isComplex || b.isComplex) then do
      let x ← asComplex a
      let y ← asComplex b
      (onComplex x y).map ofComplex
    else mismatch

/-- A number whose power with a fractional exponent is not real. -/
def isNegativeRoot (x y : Number) : Bool :=
  match y with
  | .float e => x.less (.int 0) && Decimal.isFinite e && Float.floor e != e
  | .int _ => false

/-- A whole power with too many digits. -/
def isHuge (x y : Number) : Bool :=
  match x, y with
  | .int a, .int e => 1 < a.natAbs && (sizeLimit : Int) < e * (a.natAbs.log2 + 1 : Nat)
  | _, _ => false

def power (a b : Datum) : Outcome :=
  match a.number?, b.number? with
  | some x, some y =>
    if isNegativeRoot x y then do
      (Complex.powGeneral (← asComplex a) (← asComplex b)).map ofComplex
    else if isHuge x y then .error ⟨.overflow, "result too large"⟩
    else (x.pow y).map ofNumber
  | _, _ => numeric Number.pow Complex.pow a b

def repeatItems {α : Type} (items : List α) (count : Int) : Except Failure (List α) :=
  let n := count.toNat
  if (Nat.pow 2 63 : Int) ≤ count || count < -Nat.pow 2 63 then .error ⟨.overflow, "count too large"⟩
  else if items.isEmpty then .ok []
  else if sizeLimit < items.length * n then .error ⟨.overflow, "result too large"⟩
  else .ok (List.replicate n items).flatten

/-- A sequence repeated; none when the datum is not one. -/
def repeated? (d : Datum) (count : Int) : Option Outcome :=
  match d with
  | text s => some ((repeatItems s.toList count).map fun cs => text (String.ofList cs))
  | bytes bs => some ((repeatItems bs count).map bytes)
  | list items => some ((repeatItems items count).map list)
  | tuple items => some ((repeatItems items count).map tuple)
  | _ => .none

def add (a b : Datum) : Outcome :=
  match a, b with
  | text s, text t => .ok (text (s ++ t))
  | bytes x, bytes y => .ok (bytes (x ++ y))
  | list xs, list ys => .ok (list (xs ++ ys))
  | tuple xs, tuple ys => .ok (tuple (xs ++ ys))
  | _, _ => numeric Number.add (fun x y => .ok (x.add y)) a b

def mul (a b : Datum) : Outcome :=
  match a.whole?, b.whole? with
  | .none, some n =>
    match repeated? a n with
    | some r => r
    | .none => numeric Number.mul (fun x y => .ok (x.mul y)) a b
  | some n, .none =>
    match repeated? b n with
    | some r => r
    | .none => numeric Number.mul (fun x y => .ok (x.mul y)) a b
  | _, _ => numeric Number.mul (fun x y => .ok (x.mul y)) a b

def within (x : Datum) (items : List Datum) : Bool :=
  items.any (same x)

def sub (a b : Datum) : Outcome :=
  match a, b with
  | set xs, set ys => .ok (set (xs.filter fun x => !within x ys))
  | _, _ => numeric Number.sub (fun x y => .ok (x.sub y)) a b

def divide : Datum → Datum → Outcome :=
  numeric Number.divide Complex.divide

def floorDivide : Datum → Datum → Outcome :=
  numeric Number.floorDivide fun _ _ => mismatch

/-- The remainder of numbers; of a text, the text with data put into its marks. -/
def modulo (a b : Datum) : Outcome :=
  match a with
  | text s => (Marks.fill s (Marks.sourceOf b)).map text
  | _ => numeric Number.modulo (fun _ _ => mismatch) a b

/-! Bits -/

/-- The bits of a negative number are those of its complement, inverted. -/
def complement (n : Int) : Int := -n - 1

def withoutBits (m n : Nat) : Nat :=
  m ^^^ (m &&& n)

def landInt (a b : Int) : Int :=
  match decide (a < 0), decide (b < 0) with
  | false, false => (a.toNat &&& b.toNat : Nat)
  | true, false => withoutBits b.toNat (complement a).toNat
  | false, true => withoutBits a.toNat (complement b).toNat
  | true, true => complement ((complement a).toNat ||| (complement b).toNat : Nat)

def lorInt (a b : Int) : Int :=
  complement (landInt (complement a) (complement b))

def lxorInt (a b : Int) : Int :=
  landInt (lorInt a b) (complement (landInt a b))

def ofBits (onBools : Bool → Bool → Bool) (onInts : Int → Int → Int) (a b : Datum) : Outcome :=
  match a, b with
  | bool x, bool y => .ok (bool (onBools x y))
  | _, _ =>
    match a.whole?, b.whole? with
    | some x, some y => .ok (int (onInts x y))
    | _, _ => mismatch

def putEntry (entries : List (Datum × Datum)) (k v : Datum) : List (Datum × Datum) :=
  if entries.any fun e => same e.1 k then entries.map fun e => if same e.1 k then (e.1, v) else e
  else entries ++ [(k, v)]

def bitAnd (a b : Datum) : Outcome :=
  match a, b with
  | set xs, set ys => .ok (set (xs.filter fun x => within x ys))
  | _, _ => ofBits (· && ·) landInt a b

def bitOr (a b : Datum) : Outcome :=
  match a, b with
  | set xs, set ys => .ok (set (xs ++ ys.filter fun y => !within y xs))
  | table xs, table ys => .ok (table (ys.foldl (fun es e => putEntry es e.1 e.2) xs))
  | _, _ => ofBits (· || ·) lorInt a b

def bitXor (a b : Datum) : Outcome :=
  match a, b with
  | set xs, set ys =>
    .ok (set (xs.filter (fun x => !within x ys) ++ ys.filter fun y => !within y xs))
  | _, _ => ofBits (fun x y => x != y) lxorInt a b

def shift (left : Bool) (a b : Datum) : Outcome :=
  match a.whole?, b.whole? with
  | some x, some n =>
    if n < 0 then Failure.badValue "negative shift count"
    else if left then
      if x = 0 then .ok (int 0)
      else if (sizeLimit : Int) < n then .error ⟨.overflow, "too many digits in integer"⟩
      else .ok (int (x * Nat.pow 2 n.toNat))
    else if (x.natAbs.log2 : Int) < n then .ok (int (if x < 0 then -1 else 0))
    else .ok (int (x.fdiv (Nat.pow 2 n.toNat)))
  | _, _ => mismatch

def binary : BinaryOp → Datum → Datum → Outcome
  | .add => add
  | .sub => sub
  | .mul => mul
  | .matMul => fun _ _ => mismatch
  | .divide => divide
  | .floorDivide => floorDivide
  | .modulo => modulo
  | .power => power
  | .shiftLeft => shift true
  | .shiftRight => shift false
  | .bitAnd => bitAnd
  | .bitOr => bitOr
  | .bitXor => bitXor

def unary (op : UnaryOp) (d : Datum) : Outcome :=
  match op with
  | .negation => .ok (bool (!d.truthy))
  | .invert =>
    match d.whole? with
    | some n => .ok (int (complement n))
    | .none => mismatch
  | .plus =>
    match d.number?, d with
    | some n, _ => .ok (ofNumber n)
    | .none, complex _ _ => .ok d
    | .none, _ => mismatch
  | .minus =>
    match d.number?, d with
    | some n, _ => .ok (ofNumber n.neg)
    | .none, complex re im => .ok (complex (-re) (-im))
    | .none, _ => mismatch

/-! Order and membership -/

def isSubset (xs ys : List Datum) : Bool :=
  xs.all fun x => within x ys

/-- The first pair of items that differ. -/
def firstDifference : List Datum → List Datum → Option (Datum × Datum)
  | x :: xs, y :: ys => if same x y then firstDifference xs ys else some (x, y)
  | _, _ => .none

/-- How two numbers, or two texts, or two lengths are compared. -/
structure Relation where
  onNumbers : Number → Number → Bool
  onTexts : List Nat → List Nat → Bool
  onLengths : Nat → Nat → Bool
  onSets : List Datum → List Datum → Bool

def codes (s : String) : List Nat :=
  s.toList.map Char.toNat

def less : Relation where
  onNumbers := Number.less
  onTexts a b := a < b
  onLengths m n := m < n
  onSets xs ys := isSubset xs ys && xs.length < ys.length

def lessEqual : Relation where
  onNumbers a b := a.less b || a.equal b
  onTexts a b := a < b || a = b
  onLengths m n := m ≤ n
  onSets xs ys := isSubset xs ys

/-- Sequences are ordered by their first items that differ; `depth` bounds their nesting. -/
def ordered (r : Relation) : Nat → Datum → Datum → Except Failure Bool
  | 0, _, _ => mismatch
  | depth + 1, a, b =>
    let items (xs ys : List Datum) : Except Failure Bool :=
      match firstDifference xs ys with
      | some (x, y) => ordered r depth x y
      | .none => .ok (r.onLengths xs.length ys.length)
    match a, b with
    | text s, text t => .ok (r.onTexts (codes s) (codes t))
    | bytes x, bytes y => .ok (r.onTexts x y)
    | list xs, list ys => items xs ys
    | tuple xs, tuple ys => items xs ys
    | set xs, set ys => .ok (r.onSets xs ys)
    | _, _ =>
      match a.number?, b.number? with
      | some x, some y => .ok (r.onNumbers x y)
      | _, _ => mismatch

def depthLimit : Nat := 1000

def isLess (a b : Datum) : Except Failure Bool :=
  ordered less depthLimit a b

mutual

/-- Whether a datum can be a member of a set or a key of a table. -/
def hashable : Datum → Bool
  | list _ | set _ | table _ | slice _ _ _ => false
  | tuple items => allHashable items
  | _ => true

def allHashable : List Datum → Bool
  | [] => true
  | d :: rest => hashable d && allHashable rest

end

/-- The items that going through a datum yields, and the failure that ends them early. -/
def items : Datum → Except Failure (List Datum × Option Failure)
  | list xs | tuple xs | set xs => .ok (xs, .none)
  | stream xs fault => .ok (xs, fault)
  | text s => .ok (s.toList.map fun c => text (String.singleton c), .none)
  | bytes bs => .ok (bs.map fun b => int (Int.ofNat b), .none)
  | table entries => .ok (entries.map Prod.fst, .none)
  | _ => Failure.badType "not iterable"

/-- All items; the failure that ends them early is raised. -/
def allItems (d : Datum) : Except Failure (List Datum) := do
  match ← d.items with
  | (xs, .none) => .ok xs
  | (_, some f) => .error f

def infixOf {α : Type} [BEq α] (xs ys : List α) : Bool :=
  match ys with
  | [] => xs.isEmpty
  | _ :: rest => xs.isPrefixOf ys || infixOf xs rest

def isMember (x container : Datum) : Except Failure Bool :=
  match container with
  | text t =>
    match x with
    | text s => .ok (infixOf s.toList t.toList)
    | _ => mismatch
  | bytes bs =>
    match x, x.whole? with
    | bytes part, _ => .ok (infixOf part bs)
    | _, some n =>
      if 0 ≤ n && n < 256 then .ok (bs.any fun b => (b : Int) = n)
      else Failure.badValue "byte must be in range(0, 256)"
    | _, .none => mismatch
  | list ys | tuple ys => .ok (within x ys)
  | set ys =>
    match x with
    | set _ => .ok (within x ys)
    | _ => if x.hashable then .ok (within x ys) else unhashable
  | table entries =>
    if x.hashable then .ok (within x (entries.map Prod.fst)) else unhashable
  | stream ys fault =>
    if within x ys then .ok true
    else
      match fault with
      | some f => .error f
      | .none => .ok false
  | _ => Failure.badType "not iterable"

/-- Things that exist once are the same whenever they are equal: the constants, small whole
numbers, the empty tuple, and texts of at most one character of the first 256. -/
def identical : Datum → Datum → Bool
  | none, none => true
  | ellipsis, ellipsis => true
  | bool a, bool b => a = b
  | int a, int b => a = b && -5 ≤ a && a ≤ 256
  | text s, text t => s = t && s.length ≤ 1 && s.toList.all (·.toNat < 256)
  | tuple [], tuple [] => true
  | builtin a, builtin b => a = b
  | _, _ => false

def compare (op : CompareOp) (a b : Datum) : Except Failure Bool :=
  match op with
  | .equal => .ok (same a b)
  | .notEqual => .ok (!same a b)
  | .less => ordered less depthLimit a b
  | .lessEqual => ordered lessEqual depthLimit a b
  | .greater => ordered less depthLimit b a
  | .greaterEqual => ordered lessEqual depthLimit b a
  | .member => isMember a b
  | .notMember => (isMember a b).map (!·)
  | .same => .ok (identical a b)
  | .notSame => .ok (!identical a b)

/-! Subscripts -/

def sliceBound (d : Datum) : Except Failure (Option Int) :=
  match d, d.whole? with
  | none, _ => .ok .none
  | _, some n => .ok (some n)
  | _, .none => Failure.badType "slice indices must be whole numbers"

/-- A bound counted from the end when negative, and kept within the sequence. -/
def clampBound (length low high : Int) (n : Int) : Int :=
  let m := if n < 0 then n + length else n
  if m < low then low else if high < m then high else m

/-- Places from `start` in steps up to before `stop`; `count` bounds their number. -/
def placesFrom : Nat → Int → Int → Int → List Nat
  | 0, _, _, _ => []
  | count + 1, start, stop, step =>
    if (0 < step && start < stop) || (step < 0 && stop < start) then
      start.toNat :: placesFrom count (start + step) stop step
    else []

def slicePlaces (length : Nat) (low high step : Datum) : Except Failure (List Nat) := do
  let step := (← sliceBound step).getD 1
  let low ← sliceBound low
  let high ← sliceBound high
  let n : Int := length
  if step = 0 then Failure.badValue "slice step cannot be zero"
  else if 0 < step then
    let start := (low.map (clampBound n 0 n)).getD 0
    let stop := (high.map (clampBound n 0 n)).getD n
    .ok (placesFrom length start stop step)
  else
    let start := (low.map (clampBound n (-1) (n - 1))).getD (n - 1)
    let stop := (high.map (clampBound n (-1) (n - 1))).getD (-1)
    .ok (placesFrom length start stop step)

/-- The place of an index; negative ones count from the end. -/
def place? (length : Nat) (n : Int) : Option Nat :=
  let m := if n < 0 then n + length else n
  if 0 ≤ m && m < length then some m.toNat else .none

def atIndex {α : Type} (items : List α) (one : α → Datum) (several : List α → Datum) (index : Datum) :
    Outcome :=
  match index, index.whole? with
  | slice a b c, _ => do
    let places ← slicePlaces items.length a b c
    .ok (several (places.filterMap fun i => items[i]?))
  | _, some n =>
    match (place? items.length n).bind fun i => items[i]? with
    | some x => .ok (one x)
    | .none => .error ⟨.badIndex, "index out of range"⟩
  | _, .none => Failure.badType "indices must be integers or slices"

def item (d index : Datum) : Outcome :=
  match d with
  | text s =>
    atIndex s.toList (fun c => text (String.singleton c)) (fun cs => text (String.ofList cs)) index
  | bytes bs => atIndex bs (fun b => int (Int.ofNat b)) bytes index
  | list xs => atIndex xs id list index
  | tuple xs => atIndex xs id tuple index
  | table entries =>
    if !index.hashable then unhashable
    else
      match entries.find? fun e => same e.1 index with
      | some e => .ok e.2
      | .none => .error ⟨.noKey, index.literal⟩
  | _ => Failure.badType "not subscriptable"

end Flowgraph.Datum
