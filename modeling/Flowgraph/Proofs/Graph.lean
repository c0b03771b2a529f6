import Flowgraph.Graph
import Mathlib.Order.WellFoundedSet
import Mathlib.Tactic

/-! The graph of a workflow has distinct nodes, and its connections run between them. When no node
leads back to itself, the dependency order holds every node once, behind all its sources. -/

namespace Flowgraph

theorem mem_distinct_foldl (ids kept : List String) (id : String) :
    id ∈ ids.foldl (fun kept id => if kept.contains id then kept else kept ++ [id]) kept ↔
      id ∈ kept ∨ id ∈ ids := by
  induction ids generalizing kept with
  | nil => simp
  | cons a rest ih =>
    rw [List.foldl_cons, ih]
    by_cases h : a ∈ kept
    · simp only [List.contains_eq_mem, h, decide_true, if_true, List.mem_cons]
      constructor
      · rintro (hk | hr)
        · exact Or.inl hk
        · exact Or.inr (Or.inr hr)
      · rintro (hk | rfl | hr)
        · exact Or.inl hk
        · exact Or.inl h
        · exact Or.inr hr
    · simp [h, or_assoc]

theorem nodup_distinct_foldl (ids kept : List String) (h : kept.Nodup) :
    (ids.foldl (fun kept id => if kept.contains id then kept else kept ++ [id]) kept).Nodup := by
  induction ids generalizing kept with
  | nil => exact h
  | cons a rest ih =>
    rw [List.foldl_cons]
    apply ih
    by_cases ha : a ∈ kept
    · simpa [ha] using h
    · simp only [List.contains_eq_mem, ha, decide_false, Bool.false_eq_true, if_false]
      exact List.Nodup.append h (List.nodup_singleton a) (by simpa using ha)

@[simp] theorem mem_distinct {ids : List String} {id : String} : id ∈ distinct ids ↔ id ∈ ids := by
  simpa [distinct] using mem_distinct_foldl ids [] id

theorem nodup_distinct (ids : List String) : (distinct ids).Nodup :=
  nodup_distinct_foldl ids [] List.nodup_nil

theorem foldl_distinct_of_nodup {ids kept : List String} (h : (kept ++ ids).Nodup) :
    ids.foldl (fun kept id => if kept.contains id then kept else kept ++ [id]) kept = kept ++ ids := by
  induction ids generalizing kept with
  | nil => simp
  | cons id rest ih =>
    have hnew : id ∉ kept := fun hid => (List.nodup_append.1 h).2.2 id hid id (List.mem_cons_self ..) rfl
    rw [List.append_cons] at h
    rw [List.foldl_cons, if_neg (by simpa using hnew), ih h, ← List.append_cons]

theorem distinct_of_nodup {ids : List String} (h : ids.Nodup) : distinct ids = ids :=
  foldl_distinct_of_nodup h

/-- The first nodes of each id carry the ids in the order in which they first come. -/
theorem firstOfEach_foldl_ids (nodes kept : List Node) :
    (nodes.foldl (fun kept n => if kept.any (fun k => k.id = n.id) then kept else kept ++ [n]) kept).map
        Node.id =
      (nodes.map Node.id).foldl (fun kept id => if kept.contains id then kept else kept ++ [id])
        (kept.map Node.id) := by
  induction nodes generalizing kept with
  | nil => rfl
  | cons n rest ih =>
    rw [List.foldl_cons, ih, List.map_cons, List.foldl_cons]
    congr 1
    have hany : kept.any (fun k => decide (k.id = n.id)) = (kept.map Node.id).contains n.id := by
      rw [Bool.eq_iff_iff]
      simp
    rw [hany]
    split_ifs <;> simp

theorem firstOfEach_ids (nodes : List Node) :
    (firstOfEach nodes).map Node.id = distinct (nodes.map Node.id) := by
  simpa [firstOfEach, distinct] using firstOfEach_foldl_ids nodes []

theorem firstOfEach_foldl_sublist (nodes kept : List Node) :
    (nodes.foldl (fun kept n => if kept.any (fun k => k.id = n.id) then kept else kept ++ [n]) kept).Sublist
      (kept ++ nodes) := by
  induction nodes generalizing kept with
  | nil => simp
  | cons n rest ih =>
    rw [List.foldl_cons]
    refine (ih _).trans ?_
    split_ifs
    · exact (List.sublist_cons_self n rest).append_left kept
    · simp

theorem firstOfEach_sublist (nodes : List Node) : (firstOfEach nodes).Sublist nodes :=
  firstOfEach_foldl_sublist nodes []

/-- Nodes that differ in their ids are all kept. -/
theorem firstOfEach_eq_self {nodes : List Node} (h : (nodes.map Node.id).Nodup) : firstOfEach nodes = nodes := by
  have hids : (firstOfEach nodes).map Node.id = nodes.map Node.id := (firstOfEach_ids nodes).trans (distinct_of_nodup h)
  refine (firstOfEach_sublist nodes).eq_of_length ?_
  simpa using congrArg List.length hids

namespace Graph

def Leads (g : Graph) (a b : String) : Prop :=
  ∃ e ∈ g.edges, e.source = a ∧ e.target = b

def Acyclic (g : Graph) : Prop :=
  ∀ id, ¬ Relation.TransGen g.Leads id id

structure WellFormed (g : Graph) : Prop where
  nodup : g.nodeIds.Nodup
  source_mem : ∀ e ∈ g.edges, e.source ∈ g.nodeIds
  target_mem : ∀ e ∈ g.edges, e.target ∈ g.nodeIds

theorem nodeIds_ofWorkflow (w : Workflow) : (ofWorkflow w).nodeIds = distinct w.nodeIds :=
  firstOfEach_ids w.nodes

@[simp] theorem mem_nodeIds_ofWorkflow {w : Workflow} {id : String} :
    id ∈ (ofWorkflow w).nodeIds ↔ id ∈ w.nodeIds := by
  rw [nodeIds_ofWorkflow, mem_distinct]

theorem mem_nodes_of_ofWorkflow {w : Workflow} {n : Node} (h : n ∈ (ofWorkflow w).nodes) : n ∈ w.nodes :=
  (firstOfEach_sublist w.nodes).mem h

theorem any_id_eq_true {nodes : List Node} {id : String} :
    (nodes.any fun n => decide (n.id = id)) = true ↔ id ∈ nodes.map Node.id := by
  simp

theorem mem_edges_ofWorkflow {w : Workflow} {e : Edge} :
    e ∈ (ofWorkflow w).edges ↔ e ∈ w.edges ∧ e.source ∈ w.nodeIds ∧ e.target ∈ w.nodeIds := by
  have hids : ∀ id, id ∈ (firstOfEach w.nodes).map Node.id ↔ id ∈ w.nodeIds := fun id => by
    rw [firstOfEach_ids, mem_distinct]
    rfl
  simp only [ofWorkflow, List.mem_filter, Bool.and_eq_true, any_id_eq_true, hids]

theorem ofWorkflow_wellFormed (w : Workflow) : (ofWorkflow w).WellFormed where
  nodup := by
    rw [nodeIds_ofWorkflow]
    exact nodup_distinct _
  source_mem := fun e he => mem_nodeIds_ofWorkflow.2 (mem_edges_ofWorkflow.1 he).2.1
  target_mem := fun e he => mem_nodeIds_ofWorkflow.2 (mem_edges_ofWorkflow.1 he).2.2

section
variable {g : Graph} {a b id : String}

theorem mem_sources : a ∈ g.sources b ↔ g.Leads a b := by
  simp only [sources, incoming, mem_distinct, List.mem_map, List.mem_filter, Leads]
  constructor
  · rintro ⟨e, ⟨he, ht⟩, hs⟩
    exact ⟨e, he, hs, by simpa using ht⟩
  · rintro ⟨e, he, hs, ht⟩
    exact ⟨e, ⟨he, by simpa using ht⟩, hs⟩

theorem mem_targets : b ∈ g.targets a ↔ g.Leads a b := by
  simp only [targets, outgoing, mem_distinct, List.mem_map, List.mem_filter, Leads]
  constructor
  · rintro ⟨e, ⟨he, hs⟩, ht⟩
    exact ⟨e, he, by simpa using hs, ht⟩
  · rintro ⟨e, he, hs, ht⟩
    exact ⟨e, ⟨he, by simpa using hs⟩, ht⟩

theorem nodup_sources (g : Graph) (id : String) : (g.sources id).Nodup :=
  nodup_distinct _

theorem nodup_targets (g : Graph) (id : String) : (g.targets id).Nodup :=
  nodup_distinct _

theorem WellFormed.leads_mem (hg : g.WellFormed) (h : g.Leads a b) : a ∈ g.nodeIds ∧ b ∈ g.nodeIds := by
  obtain ⟨e, he, rfl, rfl⟩ := h
  exact ⟨hg.source_mem e he, hg.target_mem e he⟩

theorem mem_roots : id ∈ g.roots ↔ id ∈ g.nodeIds ∧ g.sources id = [] := by
  have hempty : (g.incoming id).isEmpty = true ↔ g.sources id = [] := by
    rw [List.isEmpty_iff, List.eq_nil_iff_forall_not_mem, List.eq_nil_iff_forall_not_mem]
    constructor
    · intro h a ha
      obtain ⟨e, he, -, ht⟩ := mem_sources.1 ha
      exact h e (List.mem_filter.2 ⟨he, by simpa using ht⟩)
    · intro h e he
      obtain ⟨he, ht⟩ := List.mem_filter.1 he
      exact h e.source (mem_sources.2 ⟨e, he, rfl, by simpa using ht⟩)
  rw [roots, List.mem_filter, hempty]

theorem perm_sortByPosition (g : Graph) (ids : List String) : (g.sortByPosition ids).Perm ids :=
  List.mergeSort_perm _ _

@[simp] theorem mem_sortByPosition {ids : List String} : id ∈ g.sortByPosition ids ↔ id ∈ ids :=
  (g.perm_sortByPosition ids).mem_iff

def Listed (g : Graph) (ids : List String) : Prop :=
  ids.Pairwise fun a b => g.position a < g.position b

theorem listed_sortByPosition {ids : List String} (hn : ids.Nodup) (hm : ∀ id ∈ ids, id ∈ g.nodeIds) :
    g.Listed (g.sortByPosition ids) := by
  have hle : (g.sortByPosition ids).Pairwise fun a b => decide (g.position a ≤ g.position b) = true :=
    List.pairwise_mergeSort (by simpa using fun _ _ _ => Nat.le_trans) (by simpa using fun a b => Nat.le_total _ _) ids
  have hne : (g.sortByPosition ids).Nodup := (perm_sortByPosition g ids).nodup_iff.2 hn
  refine (hle.and hne).imp_of_mem fun {a b} ha hb h => ?_
  refine Nat.lt_of_le_of_ne (of_decide_eq_true h.1) fun heq => h.2 ?_
  exact (List.idxOf_inj (hm a (mem_sortByPosition.1 ha))).1 heq

theorem node?_some_id {n : Node} (h : g.node? id = some n) : n.id = id := by
  simpa using List.find?_some h

theorem node?_mem {n : Node} (h : g.node? id = some n) : n ∈ g.nodes :=
  List.mem_of_find?_eq_some h

theorem node?_of_mem (h : id ∈ g.nodeIds) : ∃ n, g.node? id = some n := by
  obtain ⟨n, hn, rfl⟩ := List.mem_map.1 h
  cases hf : g.node? n.id with
  | some m => exact ⟨m, rfl⟩
  | none => exact absurd (List.find?_eq_none.1 hf n hn) (by simp)

end

/-! The dependency order -/

def SourcesFirst (g : Graph) (order : List String) : Prop :=
  ∀ before id after, order = before ++ id :: after → ∀ s ∈ g.sources id, s ∈ before

theorem sourcesFirst_nil (g : Graph) : g.SourcesFirst [] := by
  intro before id after h
  simp at h

theorem SourcesFirst.concat {g : Graph} {order : List String} {id : String} (h : g.SourcesFirst order)
    (hs : ∀ s ∈ g.sources id, s ∈ order) : g.SourcesFirst (order ++ [id]) := by
  intro before x after hx s hsx
  rcases List.eq_nil_or_concat after with rfl | ⟨rest, y, rfl⟩
  · obtain ⟨rfl, hid⟩ := List.append_inj' hx rfl
    obtain rfl : id = x := by simpa using hid
    exact hs s hsx
  · have hx' : order ++ [id] = (before ++ x :: rest) ++ [y] := by simpa using hx
    obtain ⟨rfl, -⟩ := List.append_inj' hx' rfl
    exact h before x rest rfl s hsx

theorem SourcesFirst.mem {g : Graph} {order : List String} {id : String} (h : g.SourcesFirst order) (hid : id ∈ order) :
    ∀ s ∈ g.sources id, s ∈ order := by
  obtain ⟨before, after, rfl⟩ := List.append_of_mem hid
  intro s hs
  exact List.mem_append_left _ (h before id after rfl s hs)

/-- What holds while nodes are placed one by one. -/
structure Placing (g : Graph) (placed : List String) : Prop where
  nodup : placed.Nodup
  subset : ∀ id ∈ placed, id ∈ g.nodeIds
  sourcesFirst : g.SourcesFirst placed

theorem next?_some {g : Graph} {placed : List String} {id : String} (h : g.next? placed = some id) :
    id ∈ g.nodeIds ∧ id ∉ placed ∧ ∀ s ∈ g.sources id, s ∈ placed := by
  refine ⟨List.mem_of_find?_eq_some h, ?_⟩
  simpa using List.find?_some h

theorem Placing.concat {g : Graph} {placed : List String} {id : String} (h : g.Placing placed)
    (hn : g.next? placed = some id) : g.Placing (placed ++ [id]) := by
  obtain ⟨hid, hnew, hs⟩ := next?_some hn
  refine ⟨List.Nodup.append h.nodup (List.nodup_singleton id) (by simpa using hnew), ?_,
    h.sourcesFirst.concat hs⟩
  intro x hx
  rcases List.mem_append.1 hx with hx | hx
  · exact h.subset x hx
  · rw [List.mem_singleton.1 hx]
    exact hid

/-- Placing ends with nothing free to be placed: either it got stuck, or all nodes are placed. -/
theorem extend_spec (g : Graph) (steps : Nat) (placed : List String) (h : g.Placing placed)
    (hsteps : g.nodeIds.length ≤ placed.length + steps) :
    g.Placing (g.extend steps placed) ∧ g.next? (g.extend steps placed) = none := by
  induction steps generalizing placed with
  | zero =>
    refine ⟨h, ?_⟩
    cases hn : g.next? placed with
    | none => exact hn
    | some id =>
      obtain ⟨hid, hnew, -⟩ := next?_some hn
      have hsub : (placed ++ [id]).Subperm g.nodeIds :=
        List.subperm_of_subset (h.concat hn).nodup fun x hx => (h.concat hn).subset x hx
      have := hsub.length_le
      simp only [List.length_append, List.length_singleton] at this
      omega
  | succ n ih =>
    unfold extend
    cases hn : g.next? placed with
    | none => exact ⟨h, hn⟩
    | some id =>
      apply ih _ (h.concat hn)
      simp only [List.length_append, List.length_singleton]
      omega

def Clear (g : Graph) (id : String) : Prop :=
  ∀ c, Relation.TransGen g.Leads c c → ¬ Relation.ReflTransGen g.Leads c id

/-- A node that no cycle leads to, and that is not placed, can always be followed back to one that is free. -/
theorem Clear.placed_of_stuck {g : Graph} (hg : g.WellFormed) {placed : List String}
    (hstuck : g.next? placed = none) : ∀ id ∈ g.nodeIds, g.Clear id → id ∈ placed := by
  let before (x y : String) : Prop := Relation.TransGen g.Leads x y ∧ g.Clear y
  have : IsStrictOrder String before :=
    { irrefl := fun x hx => hx.2 x hx.1 .refl, trans := fun _ _ _ hxy hyz => ⟨hxy.1.trans hyz.1, hyz.2⟩ }
  have hwf : {x | x ∈ g.nodeIds}.WellFoundedOn before :=
    (List.finite_toSet g.nodeIds).wellFoundedOn
  intro id hid
  apply hwf.induction (P := fun x => g.Clear x → x ∈ placed) hid
  intro x hx ih hclear
  by_contra hnew
  refine (List.find?_eq_none.1 hstuck x hx) ?_
  simp only [List.contains_eq_mem, hnew, decide_false, Bool.not_false, Bool.true_and, List.all_eq_true,
    decide_eq_true_eq]
  intro s hs
  have hl := mem_sources.1 hs
  refine ih s (hg.leads_mem hl).1 ⟨.single hl, hclear⟩ fun c hc hcs => ?_
  exact hclear c hc (hcs.tail hl)

/-- In an acyclic graph all nodes are placed. -/
theorem Acyclic.placed_of_stuck {g : Graph} (hg : g.WellFormed) (hac : g.Acyclic) {placed : List String}
    (hstuck : g.next? placed = none) : ∀ id ∈ g.nodeIds, id ∈ placed :=
  fun id hid => Clear.placed_of_stuck hg hstuck id hid fun c hc _ => hac c hc

theorem placing_order (g : Graph) :
    g.Placing (g.extend g.nodes.length []) ∧ g.next? (g.extend g.nodes.length []) = none := by
  apply extend_spec g
  · exact ⟨List.nodup_nil, by simp, g.sourcesFirst_nil⟩
  · simp [nodeIds]

/-- An order of all nodes, each behind its sources. -/
structure Orders (g : Graph) (order : List String) : Prop where
  nodup : order.Nodup
  mem : ∀ id, id ∈ order ↔ id ∈ g.nodeIds
  sourcesFirst : g.SourcesFirst order

theorem topologicalOrder_orders {g : Graph} {order : List String}
    (h : g.topologicalOrder = .ok order) : g.Orders order := by
  obtain ⟨hp, -⟩ := placing_order g
  simp only [topologicalOrder] at h
  split at h
  · next hempty =>
    obtain rfl : g.extend g.nodes.length [] = order := by simpa using h
    refine ⟨hp.nodup, fun id => ⟨hp.subset id, fun hid => ?_⟩, hp.sourcesFirst⟩
    by_contra hnew
    have : id ∈ g.nodeIds.filter fun id => !(g.extend g.nodes.length []).contains id := by
      simp [hid, hnew]
    rw [List.isEmpty_iff.1 hempty] at this
    simp at this
  · cases h

theorem Acyclic.topologicalOrder_ok {g : Graph} (hg : g.WellFormed) (hac : g.Acyclic) :
    ∃ order, g.topologicalOrder = .ok order ∧ g.Orders order := by
  obtain ⟨-, hstuck⟩ := placing_order g
  have hall := hac.placed_of_stuck hg hstuck
  have hok : g.topologicalOrder = .ok (g.extend g.nodes.length []) := by
    simp only [topologicalOrder]
    rw [if_pos]
    rw [List.isEmpty_iff, List.filter_eq_nil_iff]
    intro id hid
    simp [hall id hid]
  exact ⟨_, hok, topologicalOrder_orders hok⟩

/-- A set of nodes that holds every node with all its sources in it holds all nodes. -/
theorem Acyclic.induction {g : Graph} (hg : g.WellFormed) (hac : g.Acyclic) {P : String → Prop}
    (h : ∀ id ∈ g.nodeIds, (∀ s ∈ g.sources id, P s) → P id) : ∀ id ∈ g.nodeIds, P id := by
  obtain ⟨order, -, ho⟩ := hac.topologicalOrder_ok hg
  suffices hpre : ∀ n, ∀ id ∈ order.take n, P id by
    intro id hid
    exact hpre order.length id (by simpa using (ho.mem id).2 hid)
  intro n
  induction n with
  | zero => simp
  | succ n ih =>
    intro id hid
    by_cases hn : n < order.length
    · rw [List.take_succ_eq_append_getElem hn, List.mem_append, List.mem_singleton] at hid
      rcases hid with hid | rfl
      · exact ih id hid
      · refine h _ ((ho.mem _).1 (List.getElem_mem hn)) fun s hs => ih s ?_
        refine ho.sourcesFirst (order.take n) order[n] (order.drop (n + 1)) ?_ s hs
        rw [← List.drop_eq_getElem_cons hn, List.take_append_drop]
    · rw [List.take_of_length_le (by omega)] at hid
      exact ih id (by rwa [List.take_of_length_le (by omega)])

end Graph

end Flowgraph
