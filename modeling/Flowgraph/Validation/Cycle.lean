/-! Cycles of a directed graph, found by depth-first search: a neighbour on the way from the
start to the current node closes a cycle. Each cycle is reported once. -/

namespace Flowgraph

/-- A directed graph on named nodes; parallel links count. -/
structure Links where
  nodes : List String
  arcs : List (String × String)

namespace Links

def after (g : Links) (id : String) : List String :=
  (g.arcs.filter fun arc => arc.1 = id).map Prod.snd

end Links

/-- What a search has settled: nodes left for good, and the cycles found so far. -/
structure CycleSearch where
  left : List String := []
  found : List (List String) := []

namespace CycleSearch

def record (s : CycleSearch) (cycle : List String) : CycleSearch :=
  if s.found.contains cycle then s else { s with found := s.found ++ [cycle] }

/-- The part of a way, newest node first, that `id` closes. -/
def closing (id : String) (way : List String) : List String :=
  id :: (way.takeWhile (· ≠ id)).reverse ++ [id]

/-- Search from the newest node of `way`; ways longer than `steps` are not followed. -/
def visit (g : Links) : Nat → List String → CycleSearch → CycleSearch
  | steps + 1, current :: earlier, s =>
    let way := current :: earlier
    let s := (g.after current).foldl
      (fun s id =>
        if way.contains id then s.record (closing id way)
        else if s.left.contains id then s
        else visit g steps (id :: way) s)
      s
    { s with left := current :: s.left }
  | _, _, s => s

end CycleSearch

/-- The cycles closed by a depth-first search from each node in order. -/
def Links.cycles (g : Links) : List (List String) :=
  (g.nodes.foldl
    (fun s id => if s.left.contains id then s else CycleSearch.visit g g.nodes.length [id] s)
    ({} : CycleSearch)).found

end Flowgraph
