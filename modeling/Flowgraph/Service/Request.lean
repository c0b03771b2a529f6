import Flowgraph.Value.Json

/-! Requests: a method, an address and maybe a body. Bytes outside the plain characters of an
address are written as a percent sign and two hexadecimal digits. -/

namespace Flowgraph

/-- What comes with a request. -/
inductive Body where
  | absent
  | data (v : Value)
  | text (s : String)

structure Request where
  method : String
  path : String
  query : List (String × String)
  body : Body

namespace Address

/-- The bytes of an address; what is no escape stands for itself. -/
def bytesOf : List Char → List UInt8
  | '%' :: a :: b :: rest =>
    match Json.hexValue? a, Json.hexValue? b with
    | some x, some y => UInt8.ofNat (16 * x + y) :: bytesOf rest
    | _, _ => '%'.toUInt8 :: bytesOf (a :: b :: rest)
  | c :: rest => c.toString.toUTF8.toList ++ bytesOf rest
  | [] => []

/-- The first character of some bytes, and how many of them it takes. -/
def firstChar? (bytes : List UInt8) : Option (Char × Nat) :=
  [1, 2, 3, 4].findSome? fun n =>
    let front := bytes.take n
    if front.length < n then none
    else
      match String.fromUTF8? ⟨front.toArray⟩ with
      | some s => s.toList.head?.map fun c => (c, n)
      | none => none

/-- The text of some bytes; a byte that is part of no character becomes a mark. -/
def decode : Nat → List UInt8 → List Char
  | 0, _ => []
  | _, [] => []
  | fuel + 1, bytes =>
    match firstChar? bytes with
    | some (c, n) => c :: decode fuel (bytes.drop n)
    | none => Char.ofNat 0xFFFD :: decode fuel (bytes.drop 1)

def unescape (s : String) : String :=
  let bytes := bytesOf s.toList
  String.ofList (decode bytes.length bytes)

/-- A name and its value; plus signs stand for spaces. -/
def pair (part : String) : String × String :=
  let cs := part.toList.map fun c => if c = '+' then ' ' else c
  let name := cs.takeWhile (· ≠ '=')
  (unescape (String.ofList name), unescape (String.ofList (cs.drop (name.length + 1))))

def pairs (s : String) : List (String × String) :=
  ((s.splitOn "&").filter (· ≠ "")).map pair

end Address

namespace Request

/-- A request for an address with a query. -/
def make (method address : String) (body : Body) : Request :=
  let address := address.toList.takeWhile (· ≠ '#')
  let path := address.takeWhile (· ≠ '?')
  { method
    path := Address.unescape (String.ofList path)
    query := Address.pairs (String.ofList (address.drop (path.length + 1)))
    body }

/-- The last value of a name in the query. -/
def parameter? (r : Request) (name : String) : Option String :=
  (r.query.reverse.find? fun p => p.1 = name).map Prod.snd

end Request

end Flowgraph
