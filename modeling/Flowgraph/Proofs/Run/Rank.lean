import Flowgraph.Proofs.Run.Start

/-! How much a run can still do: what its tasks can ask for, two for every place on the agenda, and for
every node without an entry as much as a fresh task on the agenda. Handling and starting never add to
it, and every step takes something away. -/

namespace Flowgraph

section
variable {α : Type} (key : α → String) (f : α → α) (c : α → Nat)

/-- Changing the one item with a key changes a sum by the change of its own share. -/
theorem sum_map_ite {l : List α} (hn : (l.map key).Nodup) {a : α} (ha : a ∈ l) :
    ((l.map fun x => if key x = key a then f x else x).map c).sum + c a = (l.map c).sum + c (f a) := by
  induction l with
  | nil => cases ha
  | cons b rest ih =>
    rw [List.map_cons, List.nodup_cons] at hn
    simp only [List.map_cons, List.sum_cons]
    rcases List.mem_cons.1 ha with rfl | ha
    · have hsame : (rest.map fun x => if key x = key a then f x else x) = rest := by
        conv_rhs => rw [← List.map_id rest]
        apply List.map_congr_left
        intro x hx
        have hne : key x ≠ key a := fun he => hn.1 (he ▸ List.mem_map_of_mem (f := key) hx)
        rw [if_neg hne]
        rfl
      rw [hsame, if_pos rfl]
      omega
    · have hne : key b ≠ key a := fun he => hn.1 (he ▸ List.mem_map_of_mem (f := key) ha)
      have := ih hn.2 ha
      rw [if_neg hne]
      omega

theorem sum_map_le_of_subperm {l l' : List α} (h : l.Subperm l') : (l.map c).sum ≤ (l'.map c).sum := by
  obtain ⟨k, hk, hs⟩ := h
  rw [← (hk.map c).sum_eq]
  exact (hs.map c).sum_le_sum fun _ _ => Nat.zero_le _

/-- Leaving out an item takes its share from a sum. -/
theorem sum_map_filter_add_le {l : List α} (p : α → Bool) {a : α} (ha : a ∈ l) (hp : p a = false) :
    ((l.filter p).map c).sum + c a ≤ (l.map c).sum := by
  have hperm := (List.filter_append_perm p l).map c
  rw [← hperm.sum_eq, List.map_append, List.sum_append]
  have hmem : c a ∈ (l.filter fun x => !p x).map c := by
    refine List.mem_map_of_mem (List.mem_filter.2 ⟨ha, ?_⟩)
    rw [hp]
    rfl
  have := List.single_le_sum (fun _ _ => Nat.zero_le _) _ hmem
  omega

theorem foldl_add_eq_sum (l : List α) (k : Nat) : l.foldl (fun total a => total + c a) k = k + (l.map c).sum := by
  induction l generalizing k with
  | nil => rfl
  | cons a rest ih =>
    rw [List.foldl_cons, ih, List.map_cons, List.sum_cons]
    omega

end

namespace Run

def nodeCost (engine : Engine) (r : Run) (n : Node) : Nat :=
  12 * retries engine r n + 13

def taskCost (engine : Engine) (r : Run) (t : Task) : Nat :=
  t.phase.cost (retries engine r t.node)

def pending (r : Run) : List Node :=
  r.graph.nodes.filter fun n => !r.entryIds.contains n.id

def rank (engine : Engine) (r : Run) : Nat :=
  (r.tasks.map (taskCost engine r)).sum + 2 * r.agenda.length + (r.pending.map (nodeCost engine r)).sum

section
variable {engine : Engine} {r r' : Run} {t : Task} {p : Phase} {time : Moment} {nodes : List Node}

theorem mem_pending {n : Node} : n ∈ r.pending ↔ n ∈ r.graph.nodes ∧ n.id ∉ r.entryIds := by
  simp [pending, List.mem_filter]

theorem retries_congr (h : r'.workflow = r.workflow) : retries engine r' = retries engine r := by
  funext n
  rw [retries, h, retries]

theorem taskCost_congr (h : r'.workflow = r.workflow) : taskCost engine r' = taskCost engine r := by
  funext t
  rw [taskCost, retries_congr h, taskCost]

theorem nodeCost_congr (h : r'.workflow = r.workflow) : nodeCost engine r' = nodeCost engine r := by
  funext n
  rw [nodeCost, retries_congr h, nodeCost]

theorem turns_congr (hw : r'.workflow = r.workflow) (hg : r'.graph = r.graph) :
    r'.turns engine = r.turns engine := by
  have : r'.nodeTurns engine = r.nodeTurns engine := by
    funext n
    rw [nodeTurns, hw, nodeTurns]
  rw [turns, this, hg, turns]

/-- A move changes the rank by what it costs and what it puts on the agenda. -/
theorem rank_moved (engine : Engine) (hn : r.taskIds.Nodup) (ht : t ∈ r.tasks) (hm : Moved t.node.id p r r') :
    rank engine r' + taskCost engine r t + 2 * r.agenda.length =
      rank engine r + p.cost (retries engine r t.node) + 2 * r'.agenda.length := by
  obtain ⟨f, g, htouch, hp, -⟩ := hm
  have hw := htouch.frame.workflow
  have hpending : r'.pending = r.pending := by
    rw [pending, htouch.frame.graph, htouch.entryIds, pending]
  have hsum := sum_map_ite (fun u : Task => u.node.id) f (taskCost engine r) hn ht
  rw [← htouch.tasks] at hsum
  have hcost : taskCost engine r (f t) = p.cost (retries engine r t.node) := by
    rw [taskCost, hp, htouch.node]
  rw [hcost] at hsum
  rw [rank, rank, taskCost_congr hw, nodeCost_congr hw, hpending]
  omega

/-- Handling enters nodes, and nothing else counts. -/
theorem Handled.rank_le {todo : List Task} (h : Handled time todo r r') : rank engine r' ≤ rank engine r := by
  obtain ⟨ids, hids⟩ := h.entryIds
  have hsub : r'.pending.Sublist r.pending := by
    rw [pending, pending, h.graph]
    refine List.monotone_filter_right _ fun n hn => ?_
    simp only [List.contains_eq_mem, Bool.not_eq_true', decide_eq_false_iff_not, hids, List.mem_append,
      not_or] at hn ⊢
    exact hn.1
  have := sum_map_le_of_subperm (nodeCost engine r) hsub.subperm
  rw [rank, rank, taskCost_congr h.workflow, nodeCost_congr h.workflow, h.tasks, h.agenda]
  omega

theorem rank_unfinished (ht : t ∈ r.tasks) (hf : t.isFinished = true) :
    rank engine r.unfinished + 2 ≤ rank engine r := by
  have hsum := sum_map_filter_add_le (taskCost engine r) (fun t : Task => !t.isFinished) ht (by rw [hf]; rfl)
  have hcost := two_le_cost t.phase (retries engine r t.node)
  change 2 ≤ taskCost engine r t at hcost
  change ((r.tasks.filter fun t => !t.isFinished).map (taskCost engine r)).sum + 2 * r.agenda.length +
    (r.pending.map (nodeCost engine r)).sum + 2 ≤ _
  rw [rank]
  omega

theorem Sound.nodup_nodes (h : r.Sound) : r.graph.nodes.Nodup :=
  h.wellFormed.nodup.of_map

/-- A fresh task on the agenda costs what its node did. -/
theorem Started.rank_le (h : Started time nodes r r') (hg : r.front.Good) : rank engine r' ≤ rank engine r := by
  have hready : (nodes.map Node.id ++ r'.ready).Nodup := h.ready ▸ hg.live.nodup
  have hfresh : ∀ n ∈ nodes, n ∈ r.pending := fun n hn => by
    have hmem : n.id ∈ r.front.run.ready := by
      change n.id ∈ r.ready
      rw [h.ready]
      exact List.mem_append_left _ (List.mem_map_of_mem (f := Node.id) hn)
    exact mem_pending.2 ⟨Graph.node?_mem (h.node n hn), (hg.live.fresh n.id hmem).2⟩
  have hsub : (r'.pending ++ nodes).Subperm r.pending := by
    have hmem : ∀ n, n ∈ r'.pending ↔ n ∈ r.pending ∧ n.id ∉ nodes.map Node.id := fun n => by
      rw [mem_pending, mem_pending, h.graph, h.entryIds, List.mem_append, not_or, and_assoc]
    refine List.subperm_of_subset ?_ fun n hn => ?_
    · refine List.Nodup.append ?_ (List.nodup_append.1 hready).1.of_map fun n hn hn' => ?_
      · rw [pending, h.graph]
        exact hg.sound.nodup_nodes.filter _
      · exact ((hmem n).1 hn).2 (List.mem_map_of_mem (f := Node.id) hn')
    · rcases List.mem_append.1 hn with hn | hn
      · exact ((hmem n).1 hn).1
      · exact hfresh n hn
  have hpaid : ((nodes.map freshTask).map (taskCost engine r)).sum + 2 * nodes.length =
      (nodes.map (nodeCost engine r)).sum := by
    clear hsub hfresh hready h
    induction nodes with
    | nil => rfl
    | cons n rest ih =>
      simp only [List.map_cons, List.sum_cons, List.length_cons]
      have : taskCost engine r (freshTask n) + 2 = nodeCost engine r n := rfl
      omega
  have hle := sum_map_le_of_subperm (nodeCost engine r) hsub
  rw [List.map_append, List.sum_append] at hle
  rw [rank, rank, taskCost_congr h.workflow, nodeCost_congr h.workflow, h.tasks, h.agenda, List.map_append,
    List.sum_append, List.length_append, List.length_map]
  omega

theorem Unbegun.rank_add_le (h : r.Unbegun) : rank engine r + 2 ≤ 2 * r.turns engine := by
  have hpending : r.pending = r.graph.nodes := List.filter_eq_self.2 fun n _ => by
    simp [entryIds, h.entries]
  have hle : (r.graph.nodes.map (nodeCost engine r)).sum ≤ 2 * (r.graph.nodes.map (r.nodeTurns engine)).sum := by
    rw [← List.sum_map_mul_left]
    refine List.sum_le_sum fun n _ => ?_
    change 12 * (Policy.resolve r.workflow n engine.defaultTimeout).retries + 13 ≤
      2 * (6 * ((Policy.resolve r.workflow n engine.defaultTimeout).retries + 2) + 2)
    omega
  rw [rank, hpending, h.tasks, h.agenda, turns, foldl_add_eq_sum]
  simp only [List.map_nil, List.sum_nil, List.length_nil]
  omega

end

end Run

end Flowgraph
