/-! Tables: finite maps that remember the order in which their keys first came.
Writing a known key keeps its place, writing a new one appends it. -/

namespace Flowgraph

/-- An ordered table from text keys. -/
abbrev Table (α : Type) := List (String × α)

namespace Table

variable {α β : Type}

def get? (t : Table α) (key : String) : Option α :=
  match t with
  | [] => none
  | (k, v) :: rest => if k = key then some v else get? rest key

def contains (t : Table α) (key : String) : Bool :=
  (get? t key).isSome

def keys (t : Table α) : List String :=
  t.map Prod.fst

def values (t : Table α) : List α :=
  t.map Prod.snd

def getD (t : Table α) (key : String) (fallback : α) : α :=
  (get? t key).getD fallback

def set (t : Table α) (key : String) (value : α) : Table α :=
  match t with
  | [] => [(key, value)]
  | (k, v) :: rest => if k = key then (k, value) :: rest else (k, v) :: set rest key value

def erase (t : Table α) (key : String) : Table α :=
  t.filter fun entry => entry.1 ≠ key

/-- Write every entry of `new` over `t`, in order. -/
def merge (t new : Table α) : Table α :=
  new.foldl (fun acc entry => set acc entry.1 entry.2) t

/-- A list of pairs as a table: a later pair replaces the value of an earlier one. -/
def ofPairs (pairs : List (String × α)) : Table α :=
  merge [] pairs

def modify (t : Table α) (key : String) (f : α → α) : Table α :=
  t.map fun entry => if entry.1 = key then (entry.1, f entry.2) else entry

def mapValues (t : Table α) (f : α → β) : Table β :=
  t.map fun entry => (entry.1, f entry.2)

theorem get?_nil (key : String) : get? ([] : Table α) key = none := rfl

theorem get?_set_self (t : Table α) (key : String) (value : α) :
    get? (set t key value) key = some value := by
  induction t with
  | nil => simp [set, get?]
  | cons entry rest ih =>
    by_cases h : entry.1 = key
    · simp [set, get?, h]
    · simp [set, get?, h, ih]

theorem get?_set_ne (t : Table α) {key other : String} (value : α) (h : other ≠ key) :
    get? (set t key value) other = get? t other := by
  induction t with
  | nil => simp [set, get?, h.symm]
  | cons entry rest ih =>
    by_cases hk : entry.1 = key
    · have : entry.1 ≠ other := fun e => h (e.symm.trans hk)
      simp [set, get?, hk, h.symm]
    · by_cases ho : entry.1 = other
      · simp [set, get?, ho, h]
      · simp [set, get?, hk, ho, ih]

theorem get?_set (t : Table α) (key other : String) (value : α) :
    get? (set t key value) other = if other = key then some value else get? t other := by
  by_cases h : other = key
  · subst h; simp [get?_set_self]
  · simp [h, get?_set_ne t value h]

theorem get?_erase_self (t : Table α) (key : String) : get? (erase t key) key = none := by
  induction t with
  | nil => rfl
  | cons entry rest ih =>
    by_cases h : entry.1 = key
    · simpa [erase, h] using ih
    · simpa [erase, h, get?] using ih

theorem get?_erase_ne (t : Table α) {key other : String} (h : other ≠ key) :
    get? (erase t key) other = get? t other := by
  induction t with
  | nil => rfl
  | cons entry rest ih =>
    by_cases hk : entry.1 = key
    · have hne : key ≠ other := fun e => h e.symm
      simpa [erase, hk, get?, hne] using ih
    · by_cases ho : entry.1 = other
      · simp [erase, get?, ho, h]
      · simpa [erase, hk, get?, ho] using ih

end Table

end Flowgraph
