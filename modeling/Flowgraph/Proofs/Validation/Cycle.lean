import Flowgraph.Validation.Cycle
import Mathlib.Data.List.Perm.Subperm
import Mathlib.Logic.Relation
import Mathlib.Tactic

/-! The search for cycles finds one exactly when there is one. The nodes of a way lead to its newest
one, so that what is recorded is a cycle; and as long as nothing is recorded, all that a node leads to
is left before the node itself is. -/

namespace Flowgraph

open Relation (TransGen ReflTransGen)

namespace Links

def Leads (g : Links) (a b : String) : Prop :=
  (a, b) ∈ g.arcs

def Acyclic (g : Links) : Prop :=
  ∀ id, ¬ TransGen g.Leads id id

def WellFormed (g : Links) : Prop :=
  ∀ a b, g.Leads a b → a ∈ g.nodes ∧ b ∈ g.nodes

theorem mem_after {g : Links} {a b : String} : b ∈ g.after a ↔ g.Leads a b := by
  simp only [after, List.mem_map, List.mem_filter, decide_eq_true_eq, Leads]
  constructor
  · rintro ⟨⟨x, y⟩, ⟨h, rfl⟩, rfl⟩
    exact h
  · intro h
    exact ⟨(a, b), ⟨h, rfl⟩, rfl⟩

def IsWay (g : Links) : List String → Prop
  | [] => True
  | [_] => True
  | b :: a :: rest => g.Leads a b ∧ g.IsWay (a :: rest)

/-- Nodes that have been left, the last one first: all that a node leads to was left before it. -/
def Settled (g : Links) : List String → Prop
  | [] => True
  | id :: rest => (∀ x, g.Leads id x → x ∈ rest) ∧ g.Settled rest

theorem IsWay.reaches {g : Links} {b : String} {rest : List String} (h : g.IsWay (b :: rest)) :
    ∀ a ∈ b :: rest, ReflTransGen g.Leads a b := by
  induction rest generalizing b with
  | nil =>
    intro a ha
    rw [List.mem_singleton.1 ha]
  | cons c rest ih =>
    intro a ha
    rcases List.mem_cons.1 ha with rfl | ha
    · exact ReflTransGen.refl
    · exact (ih h.2 a ha).tail h.1

/-- Nodes that have been left do not lead back to themselves. -/
theorem Settled.acc {g : Links} {ids : List String} (h : g.Settled ids) :
    ∀ id ∈ ids, Acc (fun x a => g.Leads a x) id := by
  induction ids with
  | nil =>
    intro id hid
    cases hid
  | cons a rest ih =>
    intro id hid
    rcases List.mem_cons.1 hid with rfl | hid
    · exact Acc.intro _ fun x hx => ih h.2 x (h.1 x hx)
    · exact ih h.2 id hid

theorem not_cycle_of_acc {g : Links} {id : String} (h : Acc (fun x a => g.Leads a x) id) :
    ¬ TransGen g.Leads id id := by
  induction h with
  | intro a _ ih =>
    intro hcycle
    obtain ⟨b, hab, hba⟩ := TransGen.head'_iff.1 hcycle
    exact ih b hab (TransGen.tail' hba hab)

end Links

namespace CycleSearch

open Links

def follow (g : Links) (steps : Nat) (way : List String) (s : CycleSearch) (id : String) : CycleSearch :=
  if way.contains id then s.record (closing id way)
  else if s.left.contains id then s
  else visit g steps (id :: way) s

theorem visit_succ (g : Links) (steps : Nat) (current : String) (earlier : List String) (s : CycleSearch) :
    visit g (steps + 1) (current :: earlier) s =
      { (g.after current).foldl (follow g steps (current :: earlier)) s with
        left := current :: ((g.after current).foldl (follow g steps (current :: earlier)) s).left } := rfl

theorem found_record_ne_nil (s : CycleSearch) (cycle : List String) : (s.record cycle).found ≠ [] := by
  unfold record
  split_ifs with h
  · intro hnil
    rw [hnil] at h
    cases h
  · simp

/-- Going on without any cycle found, a search has left these nodes too. -/
structure Leaves (g : Links) (s t : CycleSearch) (ids : List String) : Prop where
  found : s.found = []
  settled : g.Settled s.left → g.Settled t.left
  kept : ∀ id ∈ s.left, id ∈ t.left
  left : ∀ id ∈ ids, id ∈ t.left

section
variable {g : Links} {step : CycleSearch → String → CycleSearch} {ids : List String}

/-- Nothing is found one by one, so nothing is found in all. -/
theorem found_foldl (h : ∀ s, ∀ id ∈ ids, (step s id).found = s.found) (s : CycleSearch) :
    (ids.foldl step s).found = s.found := by
  induction ids generalizing s with
  | nil => rfl
  | cons a rest ih =>
    rw [List.foldl_cons, ih fun s id hid => h s id (List.mem_cons_of_mem _ hid)]
    exact h s a (List.mem_cons_self ..)

theorem leaves_foldl (h : ∀ s, ∀ id ∈ ids, (step s id).found = [] → Leaves g s (step s id) [id])
    (s : CycleSearch) (hfound : (ids.foldl step s).found = []) : Leaves g s (ids.foldl step s) ids := by
  induction ids generalizing s with
  | nil => exact ⟨hfound, id, fun _ => id, List.forall_mem_nil _⟩
  | cons a rest ih =>
    rw [List.foldl_cons] at hfound ⊢
    have hrest := ih (fun s id hid => h s id (List.mem_cons_of_mem _ hid)) (step s a) hfound
    have hfirst := h s a (List.mem_cons_self ..) hrest.found
    refine ⟨hfirst.found, fun hs => hrest.settled (hfirst.settled hs), fun id hid => ?_, fun id hid => ?_⟩
    · exact hrest.kept id (hfirst.kept id hid)
    · rcases List.mem_cons.1 hid with rfl | hid
      · exact hrest.kept _ (hfirst.left _ (List.mem_singleton_self _))
      · exact hrest.left id hid

end

/-- A search in an acyclic graph finds nothing. -/
theorem found_visit {g : Links} (hg : g.Acyclic) (steps : Nat) (way : List String) (hway : g.IsWay way)
    (s : CycleSearch) : (visit g steps way s).found = s.found := by
  induction steps generalizing way s with
  | zero => rfl
  | succ steps ih =>
    cases way with
    | nil => rfl
    | cons current earlier =>
      rw [visit_succ]
      refine found_foldl (fun s id hid => ?_) s
      have hlead := mem_after.1 hid
      unfold follow
      split_ifs with hclosed hleft
      · have hreach := hway.reaches id (by simpa using hclosed)
        exact absurd (TransGen.tail' hreach hlead) (hg id)
      · rfl
      · exact ih (id :: current :: earlier) ⟨hlead, hway⟩ s

/-- A search that finds nothing leaves the node where it starts, and before that all that it leads to. -/
theorem leaves_visit {g : Links} (hg : g.WellFormed) (steps : Nat) (current : String) (earlier : List String)
    (hnodup : (current :: earlier).Nodup) (hnodes : ∀ id ∈ current :: earlier, id ∈ g.nodes)
    (hsteps : g.nodes.length < steps + (current :: earlier).length) (s : CycleSearch)
    (hfound : (visit g steps (current :: earlier) s).found = []) :
    Leaves g s (visit g steps (current :: earlier) s) [current] := by
  induction steps generalizing current earlier s with
  | zero =>
    have hle := (List.subperm_of_subset hnodup hnodes).length_le
    omega
  | succ steps ih =>
    rw [visit_succ] at hfound ⊢
    have hall := leaves_foldl (g := g) (fun s id hid hnone => ?_) s hfound
    · refine ⟨hall.found, fun hs => ⟨fun x hx => ?_, hall.settled hs⟩, fun id hid => ?_, fun id hid => ?_⟩
      · exact hall.left x (mem_after.2 hx)
      · exact List.mem_cons_of_mem _ (hall.kept id hid)
      · rw [List.mem_singleton.1 hid]
        exact List.mem_cons_self ..
    · have hlead := mem_after.1 hid
      unfold follow at hnone ⊢
      split_ifs at hnone ⊢ with hclosed hleft
      · exact absurd hnone (found_record_ne_nil s _)
      · refine ⟨hnone, fun hs => hs, fun _ hx => hx, fun x hx => ?_⟩
        rw [List.mem_singleton.1 hx]
        simpa using hleft
      · have hnew : id ∉ current :: earlier := by simpa using hclosed
        refine ih id (current :: earlier) (List.nodup_cons.2 ⟨hnew, hnodup⟩) (fun x hx => ?_) ?_ s hnone
        · rcases List.mem_cons.1 hx with rfl | hx
          · exact (hg _ _ hlead).2
          · exact hnodes x hx
        · simp only [List.length_cons] at hsteps ⊢
          omega

end CycleSearch

namespace Links

open CycleSearch

theorem cycles_eq_nil_iff {g : Links} (hg : g.WellFormed) : g.cycles = [] ↔ g.Acyclic := by
  constructor
  · intro h
    have hall := leaves_foldl (g := g) (fun s id hid hnone => ?_) {} h
    · intro id hcycle
      obtain ⟨b, hab, -⟩ := TransGen.head'_iff.1 hcycle
      have hleft := hall.left id (hg id b hab).1
      exact not_cycle_of_acc ((hall.settled trivial).acc id hleft) hcycle
    · split_ifs at hnone ⊢ with hleft
      · refine ⟨hnone, fun hs => hs, fun _ hx => hx, fun x hx => ?_⟩
        rw [List.mem_singleton.1 hx]
        simpa using hleft
      · refine leaves_visit hg _ id [] (List.nodup_singleton id) (fun x hx => ?_) ?_ s hnone
        · rw [List.mem_singleton.1 hx]
          exact hid
        · rw [List.length_singleton]
          omega
  · intro h
    refine (found_foldl (fun s id _ => ?_) {}).trans rfl
    split_ifs
    · rfl
    · exact found_visit h _ [id] trivial s

end Links

end Flowgraph
