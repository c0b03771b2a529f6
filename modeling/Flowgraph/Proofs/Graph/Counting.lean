import Flowgraph.Proofs.Graph

/-! The dependency order as a loop that counts. Each node has a count of the distinct sources that are not
placed; the nodes whose count has come to zero are ready. The loop sorts the ready nodes by the node list,
places the first, and counts its targets down. The counts are right at every moment, so that the ready nodes
are those that are free to be placed; and the loop comes to an end with the order found by looking through
the node list for the first free node again and again. -/

namespace Flowgraph

open Relation (ReflTransGen)

/-- The loop under way. -/
structure Counting where
  remaining : String → Int
  ready : List String
  order : List String

namespace Counting

def start (g : Graph) : Counting :=
  { remaining := fun id => (g.sources id).length
    ready := g.nodeIds.filter fun id => ((g.sources id).length : Int) = 0
    order := [] }

def release (c : Counting) (target : String) : Counting :=
  { c with
    remaining := fun id => if id = target then c.remaining target - 1 else c.remaining id
    ready := if c.remaining target - 1 = 0 then c.ready ++ [target] else c.ready }

def next (g : Graph) (c : Counting) : Option Counting :=
  match g.sortByPosition c.ready with
  | [] => none
  | id :: rest => some ((g.targets id).foldl release { c with ready := rest, order := c.order ++ [id] })

def Runs (g : Graph) : Counting → Counting → Prop :=
  ReflTransGen fun c d => c.next g = some d

structure Ends (g : Graph) (c d : Counting) : Prop where
  runs : Runs g c d
  halts : d.next g = none

/-- Counting down distinct targets, each once. -/
theorem foldl_release {targets : List String} (hnodup : targets.Nodup) (c : Counting) :
    targets.foldl release c =
      { remaining := fun id => if id ∈ targets then c.remaining id - 1 else c.remaining id
        ready := c.ready ++ targets.filter fun id => c.remaining id - 1 = 0
        order := c.order } := by
  induction targets generalizing c with
  | nil => simp
  | cons target rest ih =>
    obtain ⟨hnew, hrest⟩ := List.nodup_cons.1 hnodup
    have hsame : ∀ id ∈ rest, (c.release target).remaining id = c.remaining id := by
      intro id hid
      have hne : id ≠ target := by
        rintro rfl
        exact hnew hid
      simp [release, hne]
    rw [List.foldl_cons, ih hrest]
    simp only [Counting.mk.injEq]
    refine ⟨funext fun id => ?_, ?_, rfl⟩
    · by_cases hid : id ∈ rest
      · rw [if_pos hid, if_pos (List.mem_cons_of_mem _ hid), hsame id hid]
      · by_cases htarget : id = target
        · subst htarget
          simp [hid, release]
        · simp [hid, htarget, release]
    · rw [List.filter_congr (fun id hid => by rw [hsame id hid])]
      by_cases hzero : c.remaining target - 1 = 0 <;> simp [release, hzero]

def missing (g : Graph) (order : List String) (id : String) : List String :=
  (g.sources id).filter fun s => s ∉ order

section
variable {g : Graph} {order rest : List String} {c d : Counting} {id placed : String}

theorem mem_missing {s : String} : s ∈ missing g order id ↔ g.Leads s id ∧ s ∉ order := by
  simp [missing, Graph.mem_sources]

theorem missing_eq_nil : missing g order id = [] ↔ ∀ s ∈ g.sources id, s ∈ order := by
  simp [missing]

/-- Placing a node leaves it no longer missing. -/
theorem missing_concat : missing g (order ++ [placed]) id = (missing g order id).erase placed := by
  have hnodup : (missing g order id).Nodup := (g.nodup_sources id).filter _
  rw [hnodup.erase_eq_filter, missing, missing, List.filter_filter]
  refine List.filter_congr fun s _ => ?_
  rw [Bool.eq_iff_iff]
  simp [and_comm]

theorem length_missing_concat (hnew : placed ∉ order) :
    ((missing g (order ++ [placed]) id).length : Int) =
      if id ∈ g.targets placed then ((missing g order id).length : Int) - 1 else (missing g order id).length := by
  rw [missing_concat]
  split_ifs with htarget
  · have hmem : placed ∈ missing g order id := mem_missing.2 ⟨Graph.mem_targets.1 htarget, hnew⟩
    have hpos := List.length_pos_of_mem hmem
    rw [List.length_erase_of_mem hmem]
    omega
  · have hmem : placed ∉ missing g order id := fun h => htarget (Graph.mem_targets.2 (mem_missing.1 h).1)
    rw [List.erase_of_not_mem hmem]

/-- The counts are right, and the ready nodes are those that are free to be placed. -/
structure Sound (g : Graph) (c : Counting) : Prop where
  placing : g.Placing c.order
  remaining : ∀ id, c.remaining id = (missing g c.order id).length
  nodup : c.ready.Nodup
  ready : ∀ id, id ∈ c.ready ↔ id ∈ g.nodeIds ∧ id ∉ c.order ∧ missing g c.order id = []

theorem sound_start (hg : g.WellFormed) : (start g).Sound g where
  placing := ⟨List.nodup_nil, by simp [start], g.sourcesFirst_nil⟩
  remaining := by simp [start, missing]
  nodup := hg.nodup.filter _
  ready := by simp [start, missing]

/-- The first of the ready nodes is the first node of the list that is free to be placed. -/
theorem Sound.next?_eq (h : c.Sound g) (hready : g.sortByPosition c.ready = placed :: rest) :
    g.next? c.order = some placed := by
  have hmem : ∀ id, id ∈ placed :: rest ↔ id ∈ g.nodeIds ∧ id ∉ c.order ∧ missing g c.order id = [] := by
    intro id
    rw [← hready, Graph.mem_sortByPosition, h.ready]
  have hlisted : g.Listed (placed :: rest) := by
    rw [← hready]
    exact Graph.listed_sortByPosition h.nodup fun id hid => ((h.ready id).1 hid).1
  obtain ⟨hnode, hnew, hnone⟩ := (hmem placed).1 (List.mem_cons_self ..)
  obtain ⟨before, after, hids, hbefore⟩ := List.eq_append_cons_of_mem hnode
  refine List.find?_eq_some_iff_append.2 ⟨?_, before, after, hids, fun id hid => ?_⟩
  · simpa [hnew] using missing_eq_nil.1 hnone
  · -- a free node that stands before the first ready one would be ready itself
    by_contra hfree
    have hfree : id ∉ c.order ∧ missing g c.order id = [] := by
      rw [missing_eq_nil]
      simpa using hfree
    have hid' : id ∈ g.nodeIds := by simp [hids, hid]
    have hlt : g.position id < g.position placed := by
      rw [Graph.position, Graph.position, hids, List.idxOf_append_of_mem hid, List.idxOf_append_of_notMem hbefore]
      have := List.idxOf_lt_length_of_mem hid
      omega
    rcases List.mem_cons.1 ((hmem id).2 ⟨hid', hfree⟩) with rfl | hrest
    · exact absurd hlt (Nat.lt_irrefl _)
    · have := List.rel_of_pairwise_cons hlisted hrest
      omega

theorem Sound.next?_eq_none (h : c.Sound g) (hnext : c.next g = none) : g.next? c.order = none := by
  cases hfree : g.next? c.order with
  | none => rfl
  | some id =>
    obtain ⟨hnode, hnew, hsources⟩ := Graph.next?_some hfree
    have hready : id ∈ g.sortByPosition c.ready := by
      rw [Graph.mem_sortByPosition, h.ready, missing_eq_nil]
      exact ⟨hnode, hnew, hsources⟩
    unfold Counting.next at hnext
    split at hnext
    · next hnone =>
      rw [hnone] at hready
      cases hready
    · cases hnext

theorem Sound.next (h : c.Sound g) (hg : g.WellFormed) (hnext : c.next g = some d) :
    ∃ placed, g.next? c.order = some placed ∧ d.order = c.order ++ [placed] ∧ d.Sound g := by
  unfold Counting.next at hnext
  split at hnext
  · cases hnext
  next placed rest hready =>
  have hplaced := h.next?_eq hready
  obtain ⟨-, hnew, hsources⟩ := Graph.next?_some hplaced
  have hperm : (placed :: rest).Perm c.ready := hready ▸ g.perm_sortByPosition c.ready
  obtain ⟨hfirst, hrest⟩ := List.nodup_cons.1 (hperm.nodup_iff.2 h.nodup)
  have hmem : ∀ id, id ∈ rest ↔ id ≠ placed ∧ id ∈ g.nodeIds ∧ id ∉ c.order ∧ missing g c.order id = [] := by
    intro id
    rw [← h.ready, ← hperm.mem_iff, List.mem_cons]
    constructor
    · intro hid
      refine ⟨?_, Or.inr hid⟩
      rintro rfl
      exact hfirst hid
    · rintro ⟨hne, rfl | hid⟩
      · exact absurd rfl hne
      · exact hid
  -- a target of the placed node misses it, so that it is neither placed nor ready
  have htarget : ∀ id ∈ g.targets placed, placed ∈ missing g c.order id := fun id hid =>
    mem_missing.2 ⟨Graph.mem_targets.1 hid, hnew⟩
  rw [foldl_release (g.nodup_targets placed)] at hnext
  obtain rfl := Option.some.inj hnext
  refine ⟨placed, hplaced, rfl, h.placing.concat hplaced, fun id => ?_, ?_, fun id => ?_⟩
  · simp only [h.remaining, length_missing_concat hnew]
  · refine hrest.append ((g.nodup_targets placed).filter _) fun id hid htargets => ?_
    have hmiss := htarget id (List.mem_filter.1 htargets).1
    rw [((hmem id).1 hid).2.2.2] at hmiss
    cases hmiss
  · simp only [List.mem_append, List.mem_filter, hmem, List.mem_singleton, decide_eq_true_eq, h.remaining]
    rw [missing_concat]
    by_cases hid : id ∈ g.targets placed
    · have hmiss := htarget id hid
      have hleads := Graph.mem_targets.1 hid
      have hunplaced : id ∉ c.order := fun hin =>
        (mem_missing.1 hmiss).2 (h.placing.sourcesFirst.mem hin placed (Graph.mem_sources.2 hleads))
      have hne : id ≠ placed := by
        rintro rfl
        exact hnew (hsources id (Graph.mem_sources.2 hleads))
      have hlength := List.length_erase_of_mem hmiss
      have hpos := List.length_pos_of_mem hmiss
      have hcount : ((missing g c.order id).length : Int) - 1 = 0 ↔ (missing g c.order id).erase placed = [] := by
        rw [← List.length_eq_zero_iff]
        omega
      have hnonempty : missing g c.order id ≠ [] := List.ne_nil_of_mem hmiss
      simp [hcount, hid, hunplaced, hne, hnonempty, (hg.leads_mem hleads).2]
    · have hmiss : placed ∉ missing g c.order id := fun hm => hid (Graph.mem_targets.2 (mem_missing.1 hm).1)
      rw [List.erase_of_not_mem hmiss]
      simp only [hid, false_and, or_false]
      tauto

/-- The loop places what looking for the first free node again and again places. -/
theorem Sound.runs_extend (hg : g.WellFormed) (steps : Nat) (h : c.Sound g)
    (hsteps : g.nodeIds.length ≤ c.order.length + steps) :
    ∃ d, Ends g c d ∧ d.order = g.extend steps c.order := by
  induction steps generalizing c with
  | zero =>
    refine ⟨c, ⟨.refl, ?_⟩, rfl⟩
    cases hnext : c.next g with
    | none => rfl
    | some d =>
      obtain ⟨placed, -, hd, hsound⟩ := h.next hg hnext
      have hle := (List.subperm_of_subset hsound.placing.nodup hsound.placing.subset).length_le
      rw [hd, List.length_append, List.length_singleton] at hle
      omega
  | succ steps ih =>
    cases hnext : c.next g with
    | none =>
      refine ⟨c, ⟨.refl, hnext⟩, ?_⟩
      rw [Graph.extend, h.next?_eq_none hnext]
    | some d =>
      obtain ⟨placed, hplaced, hd, hsound⟩ := h.next hg hnext
      obtain ⟨e, hends, he⟩ := ih hsound (by rw [hd, List.length_append, List.length_singleton]; omega)
      refine ⟨e, ⟨.head hnext hends.runs, hends.halts⟩, ?_⟩
      rw [he, hd, Graph.extend, hplaced]

/-- The loop comes to an end. It has placed all nodes when there is a dependency order, which is then the order
in which it placed them; else the nodes that it has not placed are those that cannot be placed. -/
theorem ends_start (hg : g.WellFormed) : ∃ d, Ends g (start g) d ∧ g.topologicalOrder =
    if d.order.length = g.nodeIds.length then .ok d.order else .error (g.nodeIds.filter fun id => id ∉ d.order) := by
  obtain ⟨d, hends, hd⟩ := (sound_start hg).runs_extend hg g.nodes.length (by simp [Graph.nodeIds])
  have hplacing : g.Placing d.order := by
    rw [hd]
    exact (g.placing_order).1
  have hblocked : (g.nodeIds.filter fun id => id ∉ d.order) = [] ↔ d.order.length = g.nodeIds.length := by
    have hsub : d.order.Subperm g.nodeIds := List.subperm_of_subset hplacing.nodup hplacing.subset
    rw [List.filter_eq_nil_iff]
    constructor
    · intro hall
      refine le_antisymm hsub.length_le (List.subperm_of_subset hg.nodup fun id hid => ?_).length_le
      simpa using hall id hid
    · intro hlength id hid
      simpa using (hsub.perm_of_length_le hlength.ge).mem_iff.2 hid
  have horder : g.topologicalOrder = if (g.nodeIds.filter fun id => id ∉ d.order) = [] then .ok d.order
      else .error (g.nodeIds.filter fun id => id ∉ d.order) := by
    rw [hd]
    simp [Graph.topologicalOrder, start]
  refine ⟨d, hends, ?_⟩
  rw [horder]
  exact if_congr hblocked rfl rfl

end

end Counting

end Flowgraph
