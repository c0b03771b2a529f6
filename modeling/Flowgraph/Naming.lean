/-! Fresh names: of the spellings of a name, the first that is not taken. Among one more spellings
than there are taken names, one is free if all spellings differ. -/

namespace Flowgraph

def freshName (taken : List String) (spelling : Nat → String) : String :=
  let spellings := (List.range (taken.length + 1)).map spelling
  (spellings.find? fun s => !taken.contains s).getD (spelling 0)

/-- Names for a list of things, each fresh among those before it. -/
def freshNames {α : Type} (spelling : α → Nat → String) (things : List α) (taken : List String) :
    List String :=
  match things with
  | [] => []
  | a :: rest =>
    let name := freshName taken (spelling a)
    name :: freshNames spelling rest (taken ++ [name])

end Flowgraph
