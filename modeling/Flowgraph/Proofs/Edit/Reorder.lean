import Flowgraph.Proofs.Edit.Validity
import Flowgraph.Proofs.Graph.Order

/-! A new order of steps. The steps that it names come first, each where its id is named first; the others follow as
they stood. When ids are distinct nothing is lost or repeated by this, and the same order changes nothing more. -/

namespace Flowgraph

open Numbered

namespace Workflow

open Edit

section
variable {w w' : Workflow} {ids : List String} {count count' : Nat}

/-- An order of known ids is carried out. -/
theorem gives_reorderNodes (hids : ∀ id ∈ ids, id ∈ w.nodeIds) :
    (w.reorderNodes (.ofTexts ids)).Gives count w' count' ↔ w.withFirst ids = w' ∧ count = count' := by
  have hmembers : (Value.ofTexts ids).members = .ok (ids.map Value.text) := rfl
  have hknown : ((ids.map Value.text).filter fun v => (w.nodeAt? v).isNone) = [] := by
    refine List.filter_eq_nil_iff.2 fun v hv => ?_
    obtain ⟨id, hid, rfl⟩ := List.mem_map.1 hv
    have hat : (w.nodeAt? (.text id)).isSome = true := node?_isSome.2 (hids id hid)
    simp [Option.isSome_iff_ne_none.1 hat]
  have htexts : (ids.map Value.text).filterMap Value.text? = ids := by
    rw [List.filterMap_map]
    exact List.filterMap_some
  unfold reorderNodes
  simp only [gives_bind, gives_ofFailure, hmembers, Except.ok.injEq]
  constructor
  · rintro ⟨vs, k, ⟨rfl, rfl⟩, h⟩
    simpa only [hknown, List.isEmpty_nil, if_true, htexts, gives_pure] using h
  · rintro ⟨rfl, rfl⟩
    refine ⟨_, count, ⟨rfl, rfl⟩, ?_⟩
    simp only [hknown, List.isEmpty_nil, if_true, htexts, gives_pure, and_self]

/-! Steps that are named -/

/-- The steps of known ids, id by id; of several with one id the last. -/
def stepsOf (w : Workflow) (ids : List String) : List Node :=
  ids.filterMap fun id => w.nodes.reverse.find? fun n => decide (n.id = id)

theorem withFirst_eq (w : Workflow) (ids : List String) :
    w.withFirst ids = { w with nodes := w.stepsOf (distinct ids) ++ w.nodes.filter fun n => n.id ∉ ids } := by
  simp [withFirst, stepsOf]

theorem map_stepsOf (hnodup : w.nodeIds.Nodup) (hids : ∀ id ∈ ids, id ∈ w.nodeIds) :
    (w.stepsOf ids).map Node.id = ids := by
  unfold stepsOf
  induction ids with
  | nil => rfl
  | cons id rest ih =>
    obtain ⟨hid, hrest⟩ := List.forall_mem_cons.1 hids
    obtain ⟨n, hn, rfl⟩ := List.mem_map.1 hid
    have hlast : (w.nodes.reverse.find? fun m => decide (m.id = n.id)) = some n :=
      (last_eq_some_iff hnodup).2 ⟨hn, rfl⟩
    simp [hlast, ih hrest]

/-- Of distinct ids, where the steps stand does not matter. -/
theorem stepsOf_perm (hnodup : w.nodeIds.Nodup) (hperm : w'.nodes.Perm w.nodes) (ids : List String) :
    w'.stepsOf ids = w.stepsOf ids := by
  have hnodup' : w'.nodeIds.Nodup := (hperm.map Node.id).nodup_iff.2 hnodup
  refine List.filterMap_congr fun id _ => ?_
  ext n
  rw [last_eq_some_iff hnodup', last_eq_some_iff hnodup, hperm.mem_iff]

theorem id_mem_of_mem_stepsOf {n : Node} (h : n ∈ w.stepsOf ids) : n.id ∈ ids := by
  obtain ⟨id, hid, hfound⟩ := List.mem_filterMap.1 h
  have heq : n.id = id := by simpa using List.find?_some hfound
  rwa [heq]

/-- Steps that have been put first stay where they are. -/
theorem withFirst_withFirst (hnodup : w.nodeIds.Nodup) (ids : List String) :
    (w.withFirst ids).withFirst ids = w.withFirst ids := by
  have hsteps := stepsOf_perm hnodup (perm_withFirst hnodup ids) (distinct ids)
  have hothers : (w.withFirst ids).nodes.filter (fun n => n.id ∉ ids) = w.nodes.filter fun n => n.id ∉ ids := by
    have hnamed : (w.stepsOf (distinct ids)).filter (fun n => n.id ∉ ids) = [] := by
      refine List.filter_eq_nil_iff.2 fun n hn => ?_
      simpa using mem_distinct.1 (id_mem_of_mem_stepsOf hn)
    rw [withFirst_eq, List.filter_append, hnamed, List.nil_append, List.filter_filter]
    simp
  conv_lhs => rw [withFirst_eq, hsteps, hothers]
  rw [withFirst_eq]

/-- Steps with distinct ids, put into an order that names some of them, however often: the named ones come first, in
the order in which they are first named, and the others behind them as they stood; no step is lost, repeated or
changed, and nothing else is. The same order once more changes nothing. -/
theorem reorderNodes_arranges (w : Workflow) (hnodup : w.nodeIds.Nodup) (ids : List String)
    (hids : ∀ id ∈ ids, id ∈ w.nodeIds) :
    ∃ named w', w' = { w with nodes := named ++ w.nodes.filter fun n => n.id ∉ ids } ∧
      (∀ count, (w.reorderNodes (.ofTexts ids)).Gives count w' count) ∧
      (∀ id, id ∈ named.map Node.id ↔ id ∈ ids) ∧
      (named.map Node.id).Pairwise (fun a b => ids.idxOf a < ids.idxOf b) ∧
      w'.nodes.Perm w.nodes ∧
      ∀ count, (w'.reorderNodes (.ofTexts ids)).Gives count w' count := by
  have hnamed : (w.stepsOf (distinct ids)).map Node.id = distinct ids :=
    map_stepsOf hnodup fun id hid => hids id (mem_distinct.1 hid)
  have hperm := perm_withFirst hnodup ids
  have hids' : ∀ id ∈ ids, id ∈ (w.withFirst ids).nodeIds := fun id hid =>
    (hperm.map Node.id).mem_iff.2 (hids id hid)
  refine ⟨w.stepsOf (distinct ids), w.withFirst ids, withFirst_eq w ids, ?_, ?_, ?_, hperm, ?_⟩
  · intro count
    exact (gives_reorderNodes hids).2 ⟨rfl, rfl⟩
  · intro id
    rw [hnamed, mem_distinct]
  · rw [hnamed]
    exact pairwise_distinct ids
  · intro count
    exact (gives_reorderNodes hids').2 ⟨withFirst_withFirst hnodup ids, rfl⟩

end

def lineup : Workflow where
  id := "w"
  name := "w"
  version := "1"
  nodes :=
    [{ id := "a", type := .trigger, provider := "p", operation := "o" },
      { id := "b", type := .action, provider := "p", operation := "o" },
      { id := "c", type := .action, provider := "p", operation := "o" }]
  edges := [{ id := "ab", source := "a", target := "b" }, { id := "bc", source := "b", target := "c" }]

/-- The last step is named twice and the trigger behind it. -/
theorem reorderNodes_arranges_lineup :
    lineup.nodeIds.Nodup ∧ (∀ id ∈ ["c", "a", "c"], id ∈ lineup.nodeIds) ∧
      ∃ w', (lineup.reorderNodes (.ofTexts ["c", "a", "c"])).Gives 0 w' 0 ∧ w'.nodeIds = ["c", "a", "b"] ∧
        w'.nodes.Perm lineup.nodes ∧ w'.edges = lineup.edges ∧
        (w'.reorderNodes (.ofTexts ["c", "a", "c"])).Gives 0 w' 0 := by
  have hnodup : lineup.nodeIds.Nodup := by decide
  have hids : ∀ id ∈ ["c", "a", "c"], id ∈ lineup.nodeIds := by decide
  obtain ⟨named, w', hw', hgives, -, -, hperm, hagain⟩ := reorderNodes_arranges lineup hnodup _ hids
  have hnodes : w'.nodeIds = ["c", "a", "b"] := by
    obtain ⟨rfl, -⟩ := (gives_reorderNodes hids).1 (hgives 0)
    rfl
  have hedges : w'.edges = lineup.edges := by rw [hw']
  exact ⟨hnodup, hids, w', hgives 0, hnodes, hperm, hedges, hagain 0⟩

end Workflow

end Flowgraph
