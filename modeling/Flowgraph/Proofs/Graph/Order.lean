import Flowgraph.Proofs.Graph.Counting
import Mathlib.Data.List.Dedup

/-! The dependency order among all orders. Each node that it places is the first of the node list that could
be placed, so that wherever another order first differs, that one goes on with a later node of the list. And
the nodes that cannot be placed are those on a cycle and those behind one. -/

namespace Flowgraph

open Relation (TransGen ReflTransGen)

namespace Workflow

def Connects (w : Workflow) (a b : String) : Prop :=
  ∃ e ∈ w.edges, (e.source = a ∧ e.target = b) ∧ a ∈ w.nodeIds ∧ b ∈ w.nodeIds

/-- An order of the distinct ids in which every connection leads onward. -/
structure Arranges (w : Workflow) (order : List String) : Prop where
  perm : order.Perm w.nodeIds.dedup
  onward : ∀ a b, w.Connects a b → order.idxOf a < order.idxOf b

def place (w : Workflow) (id : String) : Nat :=
  w.nodeIds.idxOf id

/-- The node lies on a cycle, or a cycle leads to it. -/
def Entangled (w : Workflow) (id : String) : Prop :=
  ∃ c, TransGen w.Connects c c ∧ ReflTransGen w.Connects c id

end Workflow

theorem distinct_concat (ids : List String) (id : String) :
    distinct (ids ++ [id]) = if id ∈ ids then distinct ids else distinct ids ++ [id] := by
  have hstep : distinct (ids ++ [id]) =
      if (distinct ids).contains id then distinct ids else distinct ids ++ [id] :=
    List.foldl_concat ..
  rw [hstep]
  simp

/-- Distinct members stand in the order of their first places. -/
theorem pairwise_distinct (ids : List String) : (distinct ids).Pairwise fun a b => ids.idxOf a < ids.idxOf b := by
  induction ids using List.reverseRecOn with
  | nil => exact List.Pairwise.nil
  | append_singleton ids id ih =>
    have hkept : (distinct ids).Pairwise fun a b => (ids ++ [id]).idxOf a < (ids ++ [id]).idxOf b := by
      refine ih.imp_of_mem fun ha hb hlt => ?_
      rwa [List.idxOf_append_of_mem (mem_distinct.1 ha), List.idxOf_append_of_mem (mem_distinct.1 hb)]
    rw [distinct_concat]
    split_ifs with hid
    · exact hkept
    · refine List.pairwise_append.2 ⟨hkept, List.pairwise_singleton _ _, fun a ha b hb => ?_⟩
      obtain rfl := List.mem_singleton.1 hb
      rw [List.idxOf_append_of_mem (mem_distinct.1 ha), List.idxOf_append_of_notMem hid]
      exact Nat.lt_add_right _ (List.idxOf_lt_length_of_mem (mem_distinct.1 ha))

theorem distinct_perm_dedup (ids : List String) : (distinct ids).Perm ids.dedup :=
  (List.perm_ext_iff_of_nodup (nodup_distinct ids) (List.nodup_dedup ids)).2 fun id => by simp

namespace Graph

section
variable {g : Graph} {order placed other : List String} {id : String}

/-- What stands before a place is what has a smaller index. -/
theorem sourcesFirst_iff_idxOf (hnodup : order.Nodup) :
    g.SourcesFirst order ↔ ∀ a b, g.Leads a b → b ∈ order → order.idxOf a < order.idxOf b := by
  constructor
  · intro h a b hab hb
    obtain ⟨before, after, rfl, hbefore⟩ := List.eq_append_cons_of_mem hb
    have ha := h before b after rfl a (mem_sources.2 hab)
    rw [List.idxOf_append_of_mem ha, List.idxOf_append_of_notMem hbefore]
    exact Nat.lt_add_right _ (List.idxOf_lt_length_of_mem ha)
  · rintro h before id after rfl s hs
    have hid : id ∉ before := fun hid =>
      List.disjoint_of_nodup_append hnodup hid (List.mem_cons_self ..)
    have hlt := h s id (mem_sources.1 hs) (by simp)
    rw [List.idxOf_append_of_notMem hid, List.idxOf_cons_self] at hlt
    by_contra hs'
    rw [List.idxOf_append_of_notMem hs'] at hlt
    omega

/-! Each time the first free node -/

/-- At every place of the order stands the first node that could be placed after those before it. -/
def Greedy (g : Graph) (order : List String) : Prop :=
  ∀ before id after, order = before ++ id :: after → g.next? before = some id

theorem Greedy.concat (h : g.Greedy placed) (hn : g.next? placed = some id) : g.Greedy (placed ++ [id]) := by
  intro before x after hx
  rcases List.eq_nil_or_concat after with rfl | ⟨rest, y, rfl⟩
  · obtain ⟨rfl, hid⟩ := List.append_inj' hx rfl
    obtain rfl : id = x := by simpa using hid
    exact hn
  · have hx' : placed ++ [id] = (before ++ x :: rest) ++ [y] := by simpa using hx
    obtain ⟨rfl, -⟩ := List.append_inj' hx' rfl
    exact h before x rest rfl

theorem greedy_extend (steps : Nat) (h : g.Greedy placed) : g.Greedy (g.extend steps placed) := by
  induction steps generalizing placed with
  | zero => exact h
  | succ steps ih =>
    unfold extend
    cases hn : g.next? placed with
    | none => exact h
    | some id => exact ih (h.concat hn)

theorem greedy_topologicalOrder (h : g.topologicalOrder = .ok order) : g.Greedy order := by
  have hnil : g.Greedy [] := by
    intro before id after hnil
    simp at hnil
  simp only [topologicalOrder] at h
  split at h
  · obtain rfl := Except.ok.inj h
    exact greedy_extend _ hnil
  · cases h

/-- Where another order first differs, it goes on with a node that stands later in the node list. -/
theorem Greedy.lt_of_differs {r : String → String → Prop} (hr : g.nodeIds.Pairwise r) (h : g.Greedy order)
    (hother : g.Orders other) {before rest rest' : List String} {x y : String}
    (hx : order = before ++ x :: rest) (hy : other = before ++ y :: rest') (hne : x ≠ y) : r x y := by
  have hnew : y ∉ before := fun hmem =>
    List.disjoint_of_nodup_append (hy ▸ hother.nodup) hmem (List.mem_cons_self ..)
  have hnode : y ∈ g.nodeIds := (hother.mem y).1 (by simp [hy])
  have hfree : ∀ s ∈ g.sources y, s ∈ before := hother.sourcesFirst before y rest' hy
  obtain ⟨-, earlier, later, hids, hearlier⟩ := List.find?_eq_some_iff_append.1 (h before x rest hx)
  rw [hids] at hnode hr
  rcases List.mem_append.1 hnode with hmem | hmem
  · have hbusy : y ∈ before ∨ ∃ s ∈ g.sources y, s ∉ before := by
      simpa using hearlier y hmem
    rcases hbusy with hin | ⟨s, hs, hout⟩
    · exact absurd hin hnew
    · exact absurd (hfree s hs) hout
  · rcases List.mem_cons.1 hmem with rfl | hmem
    · exact absurd rfl hne
    · exact List.rel_of_pairwise_cons (List.pairwise_append.1 hr).2.1 hmem

/-- Lists of equal length that, wherever they first differ, differ in favour of the one. -/
theorem map_le_of_differs {f : String → Nat} {ids ids' : List String} (hlength : ids.length = ids'.length)
    (h : ∀ before x rest y rest', ids = before ++ x :: rest → ids' = before ++ y :: rest' → x ≠ y → f x < f y) :
    ids.map f ≤ ids'.map f := by
  induction ids generalizing ids' with
  | nil =>
    rw [List.length_eq_zero_iff.1 hlength.symm]
  | cons x rest ih =>
    cases ids' with
    | nil => simp at hlength
    | cons y rest' =>
      rw [List.map_cons, List.map_cons]
      by_cases hxy : x = y
      · subst hxy
        have hrest : rest.map f ≤ rest'.map f := by
          refine ih (by simpa using hlength) fun before a after b after' ha hb => ?_
          exact h (x :: before) a after b after' (by simp [ha]) (by simp [hb])
        rcases hrest.lt_or_eq with hlt | heq
        · exact le_of_lt (List.Lex.cons hlt)
        · rw [heq]
      · exact le_of_lt (List.Lex.rel (h [] x rest y rest' rfl rfl hxy))

/-! What cannot be placed -/

theorem not_clear_iff : ¬ g.Clear id ↔ ∃ c, TransGen g.Leads c c ∧ ReflTransGen g.Leads c id := by
  simp [Clear]

/-- A placed node has been placed behind all that lead to it, so that no cycle does. -/
theorem Placing.clear (h : g.Placing placed) (hid : id ∈ placed) : g.Clear id := by
  intro c hcycle hreach
  have hback : ∀ {a b}, ReflTransGen g.Leads a b → b ∈ placed → a ∈ placed := by
    intro a b hab hb
    induction hab using ReflTransGen.head_induction_on with
    | refl => exact hb
    | head hac _ ih => exact h.sourcesFirst.mem ih _ (mem_sources.2 hac)
  have hlt : ∀ {a b}, TransGen g.Leads a b → b ∈ placed → placed.idxOf a < placed.idxOf b := by
    have hidx := (sourcesFirst_iff_idxOf h.nodup).1 h.sourcesFirst
    intro a b hab hb
    induction hab with
    | single hab => exact hidx _ _ hab hb
    | tail _ hbc ih => exact (ih (hback (.single hbc) hb)).trans (hidx _ _ hbc hb)
  exact Nat.lt_irrefl _ (hlt hcycle (hback hreach hid))

/-- A graph that has a dependency order is acyclic. -/
theorem Orders.acyclic (hg : g.WellFormed) (h : g.Orders order) : g.Acyclic := by
  intro id hcycle
  obtain ⟨b, hab, -⟩ := TransGen.head'_iff.1 hcycle
  have hplacing : g.Placing order := ⟨h.nodup, fun id hid => (h.mem id).1 hid, h.sourcesFirst⟩
  exact hplacing.clear ((h.mem id).2 (hg.leads_mem hab).1) id hcycle .refl

theorem mem_blocked_iff (hg : g.WellFormed) {blocked : List String} (h : g.topologicalOrder = .error blocked) :
    id ∈ blocked ↔ id ∈ g.nodeIds ∧ ¬ g.Clear id := by
  obtain ⟨hplacing, hstuck⟩ := placing_order g
  simp only [topologicalOrder] at h
  split at h
  · cases h
  · obtain rfl := Except.error.inj h
    simp only [List.mem_filter, Bool.not_eq_true', List.contains_eq_mem, decide_eq_false_iff_not]
    refine and_congr_right fun hid => not_congr ⟨hplacing.clear, Clear.placed_of_stuck hg hstuck id hid⟩

end

/-! The graph of a workflow -/

section
variable {w : Workflow}

theorem leads_ofWorkflow_connects : (ofWorkflow w).Leads = w.Connects := by
  funext a b
  rw [eq_iff_iff]
  constructor
  · rintro ⟨e, he, rfl, rfl⟩
    obtain ⟨he, hends⟩ := mem_edges_ofWorkflow.1 he
    exact ⟨e, he, ⟨rfl, rfl⟩, hends⟩
  · rintro ⟨e, he, ⟨rfl, rfl⟩, hends⟩
    exact ⟨e, mem_edges_ofWorkflow.2 ⟨he, hends⟩, rfl, rfl⟩

theorem arranges_iff_orders {order : List String} : w.Arranges order ↔ (ofWorkflow w).Orders order := by
  have hperm : order.Perm w.nodeIds.dedup ↔ order.Nodup ∧ ∀ id, id ∈ order ↔ id ∈ (ofWorkflow w).nodeIds := by
    constructor
    · intro h
      exact ⟨h.nodup_iff.2 (List.nodup_dedup _), fun id => by simp [h.mem_iff]⟩
    · rintro ⟨hnodup, hmem⟩
      exact (List.perm_ext_iff_of_nodup hnodup (List.nodup_dedup _)).2 fun id => by simp [hmem]
  constructor
  · rintro ⟨h, honward⟩
    obtain ⟨hnodup, hmem⟩ := hperm.1 h
    refine ⟨hnodup, hmem, (sourcesFirst_iff_idxOf hnodup).2 fun a b hab _ => honward a b ?_⟩
    rwa [← leads_ofWorkflow_connects]
  · rintro ⟨hnodup, hmem, hsources⟩
    refine ⟨hperm.2 ⟨hnodup, hmem⟩, fun a b hab => ?_⟩
    rw [← leads_ofWorkflow_connects] at hab
    exact (sourcesFirst_iff_idxOf hnodup).1 hsources a b hab
      ((hmem b).2 ((ofWorkflow_wellFormed w).leads_mem hab).2)

theorem pairwise_place (w : Workflow) : (ofWorkflow w).nodeIds.Pairwise fun a b => w.place a < w.place b := by
  rw [nodeIds_ofWorkflow]
  exact pairwise_distinct w.nodeIds

/-- The loop that counts comes to an end with the dependency order or with the nodes that cannot be placed. The
order is there if and only if no node leads back to itself; it is the first of all orders in which the connections
lead onward, compared by the places in the node list. Those that cannot be placed are the nodes on a cycle and
behind one. -/
theorem topologicalOrder_ofWorkflow (w : Workflow) :
    (∃ d, Counting.Ends (ofWorkflow w) (Counting.start (ofWorkflow w)) d ∧ (ofWorkflow w).topologicalOrder =
      if d.order.length = (ofWorkflow w).nodeIds.length then .ok d.order
      else .error ((ofWorkflow w).nodeIds.filter fun id => id ∉ d.order)) ∧
    match (ofWorkflow w).topologicalOrder with
    | .ok order => (∀ id, ¬ TransGen w.Connects id id) ∧ w.Arranges order ∧
        ∀ other, w.Arranges other → order.map w.place ≤ other.map w.place
    | .error blocked => (∃ id, TransGen w.Connects id id) ∧ blocked.Nodup ∧
        ∀ id, id ∈ blocked ↔ id ∈ w.nodeIds ∧ w.Entangled id := by
  have hg := ofWorkflow_wellFormed w
  refine ⟨Counting.ends_start hg, ?_⟩
  cases htop : (ofWorkflow w).topologicalOrder with
  | ok order =>
    have horders := topologicalOrder_orders htop
    refine ⟨fun id hcycle => ?_, arranges_iff_orders.2 horders, fun other hother => ?_⟩
    · rw [← leads_ofWorkflow_connects] at hcycle
      exact horders.acyclic hg id hcycle
    · have hgreedy := greedy_topologicalOrder htop
      have hother' := arranges_iff_orders.1 hother
      have hlength := ((arranges_iff_orders.2 horders).perm.trans hother.perm.symm).length_eq
      exact map_le_of_differs hlength fun before x rest y rest' hx hy hne =>
        hgreedy.lt_of_differs (pairwise_place w) hother' hx hy hne
  | error blocked =>
    have hmem : ∀ id, id ∈ blocked ↔ id ∈ w.nodeIds ∧ w.Entangled id := fun id => by
      rw [mem_blocked_iff hg htop, not_clear_iff, leads_ofWorkflow_connects, mem_nodeIds_ofWorkflow, Workflow.Entangled]
    refine ⟨?_, ?_, hmem⟩
    · by_contra hnone
      have hac : (ofWorkflow w).Acyclic := fun id hcycle => hnone ⟨id, leads_ofWorkflow_connects (w := w) ▸ hcycle⟩
      obtain ⟨order, hok, -⟩ := hac.topologicalOrder_ok hg
      rw [htop] at hok
      cases hok
    · simp only [topologicalOrder] at htop
      split at htop
      · cases htop
      · obtain rfl := Except.error.inj htop
        exact hg.nodup.filter _

end

end Graph

end Flowgraph
