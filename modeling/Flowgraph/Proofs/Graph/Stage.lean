import Flowgraph.Proofs.Graph.Order
import Flowgraph.Proofs.Table
import Mathlib.Order.Bounds.Basic

/-! The stages of a workflow. The depth of a node, reckoned from those of its sources in the dependency order,
is the length of the longest path that ends in it; a stage holds the nodes of one depth. As the last but one
node of a longest path has the depth before, no depth up to the greatest is left out. -/

namespace Flowgraph

/-- A path of so many connections ends in the node. -/
inductive PathTo (leads : String → String → Prop) : Nat → String → Prop where
  | here (id : String) : PathTo leads 0 id
  | onward {n : Nat} {a b : String} : PathTo leads n a → leads a b → PathTo leads (n + 1) b

def Depth (leads : String → String → Prop) (id : String) (depth : Nat) : Prop :=
  IsGreatest {n | PathTo leads n id} depth

/-- The greatest of some numbers and a first one. -/
theorem isGreatest_foldl_max {α : Type} (f : α → Nat) (items : List α) (first : Nat) :
    IsGreatest {n | n = first ∨ ∃ x ∈ items, n = f x} (items.foldl (fun d x => max d (f x)) first) := by
  induction items generalizing first with
  | nil => simp [IsGreatest]
  | cons a rest ih =>
    obtain ⟨hmem, hub⟩ := ih (max first (f a))
    rw [List.foldl_cons]
    have hfirst : max first (f a) ≤ rest.foldl (fun d x => max d (f x)) (max first (f a)) := hub (Or.inl rfl)
    constructor
    · rcases hmem with hmem | ⟨x, hx, hmem⟩
      · rcases max_choice first (f a) with h | h
        · exact Or.inl (hmem.trans h)
        · exact Or.inr ⟨a, List.mem_cons_self .., hmem.trans h⟩
      · exact Or.inr ⟨x, List.mem_cons_of_mem _ hx, hmem⟩
    · rintro n (rfl | ⟨x, hx, rfl⟩)
      · exact (le_max_left _ _).trans hfirst
      · rcases List.mem_cons.1 hx with rfl | hx
        · exact (le_max_right _ _).trans hfirst
        · exact hub (Or.inr ⟨x, hx, rfl⟩)

/-- Before the last node of a longest path stand nodes of all smaller depths. -/
theorem Depth.exists_of_le {leads : String → String → Prop} {id : String} {depth k : Nat} (h : Depth leads id depth)
    (hk : k ≤ depth) : ∃ a, Depth leads a k ∧ (a = id ∨ ∃ b, leads a b) := by
  induction depth generalizing id with
  | zero =>
    obtain rfl := Nat.le_zero.1 hk
    exact ⟨id, h, Or.inl rfl⟩
  | succ n ih =>
    rcases Nat.lt_or_eq_of_le hk with hlt | rfl
    · obtain ⟨hpath, hlongest⟩ := h
      cases hpath with
      | @onward _ a _ hpath hlead =>
        have ha : Depth leads a n := by
          refine ⟨hpath, fun m hm => ?_⟩
          have := hlongest (PathTo.onward hm hlead)
          omega
        obtain ⟨c, hc, rfl | hlead'⟩ := ih ha (Nat.le_of_lt_succ hlt)
        · exact ⟨c, hc, Or.inr ⟨id, hlead⟩⟩
        · exact ⟨c, hc, Or.inr hlead'⟩
    · exact ⟨id, h, Or.inl rfl⟩

namespace Workflow

/-- Stages that part the distinct ids of the workflow: each stage holds the nodes whose longest path has as many
connections as there are stages before it, in the order of the node list, and every connection leads to a later
stage. -/
structure Staged (w : Workflow) (stages : List (List String)) : Prop where
  perm : stages.flatten.Perm w.nodeIds.dedup
  nonempty : ∀ stage ∈ stages, stage ≠ []
  listed : ∀ stage ∈ stages, stage.Pairwise fun a b => w.place a < w.place b
  depth : ∀ k stage, stages[k]? = some stage → ∀ id ∈ stage, Depth w.Connects id k
  onward : ∀ (j k : Nat) (stage stage' : List String), stages[j]? = some stage → stages[k]? = some stage' →
    ∀ a ∈ stage, ∀ b ∈ stage', w.Connects a b → j < k

end Workflow

namespace Graph

section
variable {g : Graph} {order before stage : List String} {id : String} {k : Nat} {table : Table Nat}

/-- One more than the deepest source is the depth of a node. -/
theorem depth_of_sources (depth : String → Nat) (h : ∀ s ∈ g.sources id, Depth g.Leads s (depth s)) :
    Depth g.Leads id ((g.sources id).foldl (fun d s => max d (depth s + 1)) 0) := by
  obtain ⟨hmem, hub⟩ := isGreatest_foldl_max (fun s => depth s + 1) (g.sources id) 0
  constructor
  · rcases hmem with hzero | ⟨s, hs, hmax⟩
    · rw [hzero]
      exact PathTo.here id
    · rw [hmax]
      exact PathTo.onward (h s hs).1 (mem_sources.1 hs)
  · intro n hn
    cases hn with
    | here => exact Nat.zero_le _
    | @onward m a _ hpath hlead =>
      have ha := mem_sources.2 hlead
      exact (Nat.succ_le_succ ((h a ha).2 hpath)).trans (hub (Or.inr ⟨a, ha, rfl⟩))

/-- The table has the depths of these nodes, and nothing else. -/
structure Measured (g : Graph) (ids : List String) (table : Table Nat) : Prop where
  known : ∀ id ∈ ids, ∃ d, table.get? id = some d
  entries : ∀ p ∈ table, p.1 ∈ ids ∧ Depth g.Leads p.1 p.2

theorem Measured.depth {ids : List String} {d : Nat} (h : g.Measured ids table) (hd : table.get? id = some d) :
    Depth g.Leads id d :=
  (h.entries _ (Table.mem_of_get? hd)).2

theorem SourcesFirst.of_concat (h : g.SourcesFirst (before ++ [id])) :
    g.SourcesFirst before ∧ ∀ s ∈ g.sources id, s ∈ before := by
  refine ⟨fun pre x post hx => ?_, h before id [] rfl⟩
  exact h pre x (post ++ [id]) (by simp [hx])

/-- When a node's turn comes, the depths of its sources are known. -/
theorem measured_depths (h : g.SourcesFirst order) : g.Measured order (g.depths order) := by
  induction order using List.reverseRecOn with
  | nil => exact ⟨by simp, by simp [depths]⟩
  | append_singleton before id ih =>
    obtain ⟨hbefore, hsources⟩ := h.of_concat
    have hmeasured := ih hbefore
    have hdepth : Depth g.Leads id
        ((g.sources id).foldl (fun d s => max d (Table.getD (g.depths before) s 0 + 1)) 0) := by
      refine depth_of_sources (fun s => Table.getD (g.depths before) s 0) fun s hs => ?_
      obtain ⟨d, hd⟩ := hmeasured.known s (hsources s hs)
      rw [Table.getD, hd]
      exact hmeasured.depth hd
    have hconcat : g.depths (before ++ [id]) = Table.set (g.depths before) id
        ((g.sources id).foldl (fun d s => max d (Table.getD (g.depths before) s 0 + 1)) 0) :=
      List.foldl_concat ..
    rw [hconcat]
    constructor
    · intro x hx
      rw [Table.get?_set]
      split_ifs with hxid
      · exact ⟨_, rfl⟩
      · exact hmeasured.known x (by simpa [hxid] using hx)
    · intro p hp
      rcases Table.mem_set hp with hp | rfl
      · exact ⟨List.mem_append_left _ (hmeasured.entries p hp).1, (hmeasured.entries p hp).2⟩
      · exact ⟨by simp, hdepth⟩

def height (depth : Table Nat) : Nat :=
  depth.values.foldl (fun h d => max h (d + 1)) 0

theorem getElem?_stagesOf : (g.stagesOf order)[k]? = some stage ↔
    k < height (g.depths order) ∧ stage = g.nodeIds.filter fun id => Table.get? (g.depths order) id = some k := by
  change ((List.range (height (g.depths order))).map _)[k]? = some stage ↔ _
  rw [List.getElem?_map, Option.map_eq_some_iff]
  constructor
  · rintro ⟨level, hlevel, rfl⟩
    obtain ⟨hlt, rfl⟩ := List.getElem?_eq_some_iff.1 hlevel
    exact ⟨by simpa using hlt, by simp⟩
  · rintro ⟨hlt, rfl⟩
    exact ⟨k, by simp [hlt], rfl⟩

theorem mem_values {d : Nat} (h : d ∈ table.values) : ∃ id, (id, d) ∈ table := by
  obtain ⟨⟨id, d⟩, hp, rfl⟩ := List.mem_map.1 h
  exact ⟨id, hp⟩

theorem lt_height {d : Nat} (h : table.get? id = some d) : d < height table :=
  (isGreatest_foldl_max (· + 1) table.values 0).2
    (Or.inr ⟨d, List.mem_map_of_mem (f := Prod.snd) (Table.mem_of_get? h), rfl⟩)

theorem exists_of_lt_height (h : k < height table) : ∃ id d, (id, d) ∈ table ∧ k ≤ d := by
  rcases (isGreatest_foldl_max (· + 1) table.values 0).1 with hzero | ⟨d, hd, hmax⟩
  · exact absurd (hzero ▸ h : k < 0) (Nat.not_lt_zero k)
  · obtain ⟨id, hid⟩ := mem_values hd
    have hlt : k < d + 1 := hmax ▸ h
    exact ⟨id, d, hid, Nat.le_of_lt_succ hlt⟩

/-- A node stands in the stage of its depth. -/
theorem Orders.mem_stage (h : g.Orders order) (hid : id ∈ g.nodeIds) (hstage : (g.stagesOf order)[k]? = some stage) :
    id ∈ stage ↔ Depth g.Leads id k := by
  have hmeasured := measured_depths h.sourcesFirst
  obtain ⟨-, rfl⟩ := getElem?_stagesOf.1 hstage
  obtain ⟨d, hd⟩ := hmeasured.known id ((h.mem id).2 hid)
  simp only [List.mem_filter, hid, hd, true_and, Option.some.injEq, decide_eq_true_eq]
  constructor
  · rintro rfl
    exact hmeasured.depth hd
  · exact (hmeasured.depth hd).unique

theorem stage_sublist (hstage : (g.stagesOf order)[k]? = some stage) : stage.Sublist g.nodeIds := by
  obtain ⟨-, rfl⟩ := getElem?_stagesOf.1 hstage
  exact List.filter_sublist

/-- No stage is empty, since below a node of the greatest depth there are nodes of every depth. -/
theorem Orders.stage_ne_nil (hg : g.WellFormed) (h : g.Orders order) (hstage : (g.stagesOf order)[k]? = some stage) :
    stage ≠ [] := by
  have hmeasured := measured_depths h.sourcesFirst
  obtain ⟨id, d, hentry, hle⟩ := exists_of_lt_height (getElem?_stagesOf.1 hstage).1
  obtain ⟨hid, hdepth⟩ := hmeasured.entries _ hentry
  obtain ⟨a, ha, hnode⟩ := hdepth.exists_of_le hle
  have hmem : a ∈ g.nodeIds := by
    rcases hnode with rfl | ⟨b, hab⟩
    · exact (h.mem _).1 hid
    · exact (hg.leads_mem hab).1
  exact List.ne_nil_of_mem ((h.mem_stage hmem hstage).2 ha)

theorem Orders.perm_flatten (hg : g.WellFormed) (h : g.Orders order) : (g.stagesOf order).flatten.Perm g.nodeIds := by
  have hmeasured := measured_depths h.sourcesFirst
  have hnodup : (g.stagesOf order).flatten.Nodup := by
    refine List.nodup_flatten.2 ⟨fun stage hstage => ?_, ?_⟩
    · obtain ⟨k, hk⟩ := List.mem_iff_getElem?.1 hstage
      exact hg.nodup.sublist (stage_sublist hk)
    · refine List.pairwise_map.2 (List.nodup_range.imp fun hne id hi hj => hne ?_)
      have hi := (List.mem_filter.1 hi).2
      have hj := (List.mem_filter.1 hj).2
      exact Option.some.inj ((of_decide_eq_true hi).symm.trans (of_decide_eq_true hj))
  refine (List.perm_ext_iff_of_nodup hnodup hg.nodup).2 fun id => ?_
  constructor
  · intro hid
    obtain ⟨stage, hstage, hid⟩ := List.mem_flatten.1 hid
    obtain ⟨k, hk⟩ := List.mem_iff_getElem?.1 hstage
    exact (stage_sublist hk).subset hid
  · intro hid
    obtain ⟨d, hd⟩ := hmeasured.known id ((h.mem id).2 hid)
    have hstage := getElem?_stagesOf.2 ⟨lt_height hd, rfl⟩
    exact List.mem_flatten.2 ⟨_, List.mem_of_getElem? hstage, (h.mem_stage hid hstage).2 (hmeasured.depth hd)⟩

end

/-- The stages of a workflow that has a dependency order part its ids by depth. -/
theorem staged_stagesOf {w : Workflow} {order : List String} (h : (ofWorkflow w).Orders order) :
    w.Staged ((ofWorkflow w).stagesOf order) := by
  have hg := ofWorkflow_wellFormed w
  have hdepth : ∀ k stage, ((ofWorkflow w).stagesOf order)[k]? = some stage →
      ∀ id ∈ stage, Depth w.Connects id k := by
    intro k stage hk id hid
    rw [← leads_ofWorkflow_connects]
    exact (h.mem_stage ((stage_sublist hk).subset hid) hk).1 hid
  refine ⟨?_, fun stage hstage => ?_, fun stage hstage => ?_, hdepth, ?_⟩
  · refine (h.perm_flatten hg).trans ?_
    rw [nodeIds_ofWorkflow]
    exact distinct_perm_dedup w.nodeIds
  · obtain ⟨k, hk⟩ := List.mem_iff_getElem?.1 hstage
    exact h.stage_ne_nil hg hk
  · obtain ⟨k, hk⟩ := List.mem_iff_getElem?.1 hstage
    exact (pairwise_place w).sublist (stage_sublist hk)
  · intro j k stage stage' hj hk a ha b hb hab
    exact (hdepth k stage' hk b hb).2 (PathTo.onward (hdepth j stage hj a ha).1 hab)

end Graph

end Flowgraph
