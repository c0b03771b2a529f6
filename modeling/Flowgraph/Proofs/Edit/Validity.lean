import Flowgraph.Proofs.Edit.Effect
import Flowgraph.Proofs.Validation.Verdict

/-! Edits of valid workflows. All that an edit brings is filled, and no edit repeats an id or leaves a
connection without its ends; so an edited workflow can be invalid only for want of a trigger, or because
a new connection closes a cycle. -/

namespace Flowgraph

open Relation (TransGen ReflTransGen)

open Flowgraph.Numbering

/-! One more arc -/

section
variable {α : Type} {r : α → α → Prop} {a b x y : α}

/-- With one more arc, a way takes it or it does not. -/
theorem transGen_with_arc (h : TransGen (fun x y => r x y ∨ x = a ∧ y = b) x y) :
    TransGen r x y ∨ ReflTransGen r x a ∧ ReflTransGen r b y := by
  induction h with
  | single h =>
    rcases h with h | ⟨rfl, rfl⟩
    · exact Or.inl (.single h)
    · exact Or.inr ⟨.refl, .refl⟩
  | tail _ h ih =>
    rcases h with h | ⟨rfl, rfl⟩
    · rcases ih with ih | ⟨hxa, hby⟩
      · exact Or.inl (ih.tail h)
      · exact Or.inr ⟨hxa, hby.tail h⟩
    · rcases ih with ih | ⟨hxa, -⟩
      · exact Or.inr ⟨ih.to_reflTransGen, .refl⟩
      · exact Or.inr ⟨hxa, .refl⟩

/-- One more arc closes a cycle exactly when its end led to its beginning before. -/
theorem acyclic_with_arc_iff (hr : ∀ x, ¬ TransGen r x x) :
    (∀ x, ¬ TransGen (fun x y => r x y ∨ x = a ∧ y = b) x x) ↔ ¬ ReflTransGen r b a := by
  constructor
  · intro h hba
    have hback : ReflTransGen (fun x y => r x y ∨ x = a ∧ y = b) b a :=
      ReflTransGen.mono (fun _ _ => Or.inl) b a hba
    exact h a (TransGen.head' (Or.inr ⟨rfl, rfl⟩) hback)
  · intro h x hx
    rcases transGen_with_arc hx with hx | ⟨hxa, hbx⟩
    · exact hr x hx
    · exact h (hbx.trans hxa)

end

namespace Workflow

variable {w w' : Workflow} {count count' : Nat}

/-! Wiring -/

theorem wired_iff : w.Wired ↔ w.nodeIds.Nodup ∧ w.edgeIds.Nodup ∧
    (∀ e ∈ w.edges, e.source ∈ w.nodeIds ∧ e.target ∈ w.nodeIds) ∧ (∀ id, ¬ TransGen w.Leads id id) ∧
    ∃ n ∈ w.nodes, n.type = .trigger := by
  constructor
  · intro h
    exact ⟨h.nodup_nodes, h.nodup_edges, h.ends, (acyclic_ofWorkflow h.ends).1 h.acyclic, h.trigger⟩
  · rintro ⟨hnodes, hedges, hends, hacyclic, htrigger⟩
    exact ⟨hnodes, hedges, hends, (acyclic_ofWorkflow hends).2 hacyclic, htrigger⟩

/-- Without some of its connections, on nodes that suit the others, a workflow is still well wired. -/
theorem Wired.of_sublist (h : w.Wired) (hedges : w'.edges.Sublist w.edges) (hnodes : w'.nodeIds.Nodup)
    (hends : ∀ e ∈ w'.edges, e.source ∈ w'.nodeIds ∧ e.target ∈ w'.nodeIds)
    (htrigger : ∃ n ∈ w'.nodes, n.type = .trigger) : w'.Wired := by
  obtain ⟨-, hids, -, hacyclic, -⟩ := wired_iff.1 h
  have hleads : ∀ a b, w'.Leads a b → w.Leads a b := by
    rintro a b ⟨e, he, hs, ht⟩
    exact ⟨e, hedges.subset he, hs, ht⟩
  refine wired_iff.2 ⟨hnodes, hids.sublist (hedges.map Edge.id), hends, fun id hcycle => ?_, htrigger⟩
  exact hacyclic id (TransGen.mono hleads id id hcycle)

/-- On other nodes of the same ids a workflow is well wired when one of them is a trigger. -/
theorem Wired.of_nodeIds (h : w.Wired) (hedges : w'.edges = w.edges) (hids : w'.nodeIds.Perm w.nodeIds)
    (htrigger : ∃ n ∈ w'.nodes, n.type = .trigger) : w'.Wired := by
  refine h.of_sublist (hedges ▸ List.Sublist.refl _) (hids.nodup_iff.2 h.nodup_nodes) (fun e he => ?_) htrigger
  rw [hedges] at he
  exact ⟨hids.mem_iff.2 (h.ends e he).1, hids.mem_iff.2 (h.ends e he).2⟩

/-- A new connection keeps a workflow well wired unless its target leads to its source. -/
theorem Wired.connect_iff (h : w.Wired) {e : Edge} (hsource : e.source ∈ w.nodeIds) (htarget : e.target ∈ w.nodeIds)
    (hnew : e.id ∉ w.edgeIds) :
    Wired { w with edges := w.edges ++ [e] } ↔ ¬ ReflTransGen w.Leads e.target e.source := by
  obtain ⟨hnodes, hids, hends, hacyclic, htrigger⟩ := wired_iff.1 h
  have hleads : Leads { w with edges := w.edges ++ [e] } = fun a b => w.Leads a b ∨ a = e.source ∧ b = e.target := by
    funext a b
    simp only [Leads, List.mem_append, List.mem_singleton, eq_iff_iff]
    constructor
    · rintro ⟨f, hf | rfl, hs, ht⟩
      · exact Or.inl ⟨f, hf, hs, ht⟩
      · exact Or.inr ⟨hs.symm, ht.symm⟩
    · rintro (⟨f, hf, hs, ht⟩ | ⟨rfl, rfl⟩)
      · exact ⟨f, Or.inl hf, hs, ht⟩
      · exact ⟨e, Or.inr rfl, rfl, rfl⟩
  rw [wired_iff, hleads, acyclic_with_arc_iff hacyclic]
  constructor
  · rintro ⟨-, -, -, hno, -⟩
    exact hno
  · intro hno
    refine ⟨hnodes, ?_, fun f hf => ?_, hno, htrigger⟩
    · rw [edgeIds, List.map_append]
      exact List.nodup_append_comm.2 (List.nodup_cons.2 ⟨hnew, hids⟩)
    · rcases List.mem_append.1 hf with hf | hf
      · exact hends f hf
      · rw [List.mem_singleton.1 hf]
        exact ⟨hsource, htarget⟩

/-- A node that no connection knows does not lead anywhere. -/
theorem Wired.not_leads_of_new (h : w.Wired) {id other : String} (hnew : id ∉ w.nodeIds) (hother : other ∈ w.nodeIds) :
    ¬ ReflTransGen w.Leads id other := by
  intro hway
  rcases ReflTransGen.cases_head hway with rfl | ⟨_, ⟨e, he, rfl, -⟩, -⟩
  · exact hnew hother
  · exact hnew (h.ends e he).1

/-! Nodes -/

theorem perm_insertAfter {anchor n : Node} {nodes : List Node} (h : anchor ∈ nodes) :
    (insertAfter anchor.id n nodes).Perm (n :: nodes) := by
  induction nodes with
  | nil => cases h
  | cons m rest ih =>
    unfold insertAfter
    split_ifs with hm
    · exact List.Perm.swap n m rest
    · have hrest : anchor ∈ rest := by
        rcases List.mem_cons.1 h with rfl | h
        · exact absurd rfl hm
        · exact h
      exact ((ih hrest).cons m).trans (List.Perm.swap n m rest)

theorem map_modifyFirst {β : Type} (g : Node → β) {id : String} (f : Node → Node) (hf : ∀ n, g (f n) = g n)
    (nodes : List Node) : (modifyFirst id f nodes).map g = nodes.map g := by
  induction nodes with
  | nil => rfl
  | cons n rest ih =>
    unfold modifyFirst
    split_ifs
    · rw [List.map_cons, List.map_cons, hf]
    · rw [List.map_cons, List.map_cons, ih]

theorem mem_modifyFirst {id : String} {f : Node → Node} {nodes : List Node} {n : Node}
    (h : n ∈ modifyFirst id f nodes) : n ∈ nodes ∨ ∃ m ∈ nodes, n = f m := by
  induction nodes with
  | nil => cases h
  | cons m rest ih =>
    unfold modifyFirst at h
    split_ifs at h
    · rcases List.mem_cons.1 h with rfl | h
      · exact Or.inr ⟨m, List.mem_cons_self, rfl⟩
      · exact Or.inl (List.mem_cons_of_mem m h)
    · rcases List.mem_cons.1 h with rfl | h
      · exact Or.inl List.mem_cons_self
      · rcases ih h with h | ⟨k, hk, rfl⟩
        · exact Or.inl (List.mem_cons_of_mem m h)
        · exact Or.inr ⟨k, List.mem_cons_of_mem m hk, rfl⟩

/-- Of distinct ids, the last step with an id is the only one. -/
theorem last_eq_some_iff (hnodup : w.nodeIds.Nodup) {id : String} {n : Node} :
    (w.nodes.reverse.find? fun n => decide (n.id = id)) = some n ↔ n ∈ w.nodes ∧ n.id = id := by
  constructor
  · intro h
    exact ⟨List.mem_reverse.1 (List.mem_of_find?_eq_some h), by simpa using List.find?_some h⟩
  · rintro ⟨hn, rfl⟩
    obtain ⟨m, hm⟩ : ∃ m, (w.nodes.reverse.find? fun m => decide (m.id = n.id)) = some m :=
      Option.isSome_iff_exists.1 (List.find?_isSome.2 ⟨n, List.mem_reverse.2 hn, by simp⟩)
    have hmem : m ∈ w.nodes := List.mem_reverse.1 (List.mem_of_find?_eq_some hm)
    have hid : m.id = n.id := by simpa using List.find?_some hm
    rw [hm, List.inj_on_of_nodup_map hnodup hmem hn hid]

/-- Of distinct ids, the steps that are named come first and the others keep their places behind them. -/
theorem perm_withFirst (hnodup : w.nodeIds.Nodup) (ids : List String) : (w.withFirst ids).nodes.Perm w.nodes := by
  have hnodes : w.nodes.Nodup := hnodup.of_map
  refine (List.perm_ext_iff_of_nodup ?_ hnodes).2 fun n => ?_
  · refine List.Nodup.append ?_ (hnodes.filter _) ?_
    · refine (nodup_distinct ids).filterMap fun a b n ha hb => ?_
      exact ((last_eq_some_iff hnodup).1 ha).2.symm.trans ((last_eq_some_iff hnodup).1 hb).2
    · rintro n hn hother
      obtain ⟨id, hid, hn⟩ := List.mem_filterMap.1 hn
      obtain ⟨-, rfl⟩ := (last_eq_some_iff hnodup).1 hn
      have := (List.mem_filter.1 hother).2
      simp_all
  · rw [withFirst, List.mem_append, List.mem_filterMap, List.mem_filter]
    constructor
    · rintro (⟨id, -, hn⟩ | ⟨hn, -⟩)
      · exact ((last_eq_some_iff hnodup).1 hn).1
      · exact hn
    · intro hn
      by_cases hid : n.id ∈ ids
      · exact Or.inl ⟨n.id, mem_distinct.2 hid, (last_eq_some_iff hnodup).2 ⟨hn, rfl⟩⟩
      · exact Or.inr ⟨hn, by simpa using hid⟩

/-! Filled parts -/

theorem allBlank_stampedId_edge (k : Nat) : Text.allBlank (stampedId "edge" k) = false := by
  have he : Text.isBlank 'e' = false := by decide
  simp [stampedId, Text.allBlank, he]

/-- What an edit brings is filled, and what it leaves was so before. -/
theorem Edited.filled {action : EditAction} (h : w.Edited count action w') (hw : w.Filled) : w'.Filled := by
  cases h with
  | replaced hcurrent hfilled =>
    refine { hw with nodes := fun m hm => ?_ }
    obtain ⟨m, hmem, rfl⟩ := List.mem_map.1 hm
    split_ifs
    · exact { hfilled with id := (hw.nodes _ hcurrent).id }
    · exact hw.nodes m hmem
  | appended hnew hfilled =>
    refine { hw with nodes := fun m hm => ?_ }
    rcases List.mem_append.1 hm with hm | hm
    · exact hw.nodes m hm
    · exact List.mem_singleton.1 hm ▸ hfilled
  | inserted hnew hfilled hanchor hk =>
    refine { hw with nodes := fun m hm => ?_, edges := fun e he => ?_ }
    · rcases List.mem_cons.1 ((perm_insertAfter hanchor).mem_iff.1 hm) with rfl | hm
      · exact hfilled
      · exact hw.nodes m hm
    · rcases List.mem_append.1 he with he | he
      · exact hw.edges e he
      · obtain rfl := List.mem_singleton.1 he
        exact ⟨allBlank_stampedId_edge _, (hw.nodes _ hanchor).id, hfilled.id⟩
  | removed id =>
    unfold removeNode
    split
    · exact hw
    · exact { hw with
        nodes := fun m hm => hw.nodes m (List.mem_of_mem_filter hm)
        edges := fun e he => hw.edges e (List.mem_of_mem_filter he) }
  | reordered ids =>
    refine { hw with nodes := fun m hm => ?_ }
    rcases List.mem_append.1 hm with hm | hm
    · obtain ⟨id, -, hm⟩ := List.mem_filterMap.1 hm
      exact hw.nodes m (List.mem_reverse.1 (List.mem_of_find?_eq_some hm))
    · exact hw.nodes m (List.mem_of_mem_filter hm)
  | connected hfilled hsource htarget hnew =>
    refine { hw with edges := fun e he => ?_ }
    rcases List.mem_append.1 he with he | he
    · exact hw.edges e he
    · exact List.mem_singleton.1 he ▸ hfilled
  | disconnected id => exact { hw with edges := fun e he => hw.edges e (List.mem_of_mem_filter he) }
  | moved id p =>
    refine { hw with nodes := fun m hm => ?_ }
    rcases mem_modifyFirst hm with hm | ⟨n, hn, rfl⟩
    · exact hw.nodes m hm
    · exact { hw.nodes n hn with }

/-- An edit leaves a valid workflow valid just when it leaves it well wired. -/
theorem Edited.valid_iff {action : EditAction} (h : w.Edited count action w') (hw : w.Filled) :
    w'.validate.valid = true ↔ w'.Wired := by
  rw [Workflow.valid_iff]
  exact ⟨And.right, fun hwired => ⟨h.filled hw, hwired⟩⟩

/-! Wiring after an edit -/

/-- With the same connections, a new node keeps a workflow well wired. -/
theorem Wired.with_node (h : w.Wired) {n : Node} (hnew : n.id ∉ w.nodeIds) {nodes : List Node}
    (hnodes : nodes.Perm (n :: w.nodes)) : Wired { w with nodes } := by
  have hids : (nodes.map Node.id).Perm (n.id :: w.nodeIds) := hnodes.map Node.id
  refine h.of_sublist (List.Sublist.refl _) ?_ (fun e he => ?_) ?_
  · exact hids.nodup_iff.2 (List.nodup_cons.2 ⟨hnew, h.nodup_nodes⟩)
  · obtain ⟨hsource, htarget⟩ := h.ends e he
    exact ⟨hids.mem_iff.2 (List.mem_cons_of_mem _ hsource), hids.mem_iff.2 (List.mem_cons_of_mem _ htarget)⟩
  · obtain ⟨t, ht, htype⟩ := h.trigger
    exact ⟨t, hnodes.mem_iff.2 (List.mem_cons_of_mem _ ht), htype⟩

/-- A new node that nothing leaves is connected without a cycle. -/
theorem Wired.insert (h : w.Wired) {n anchor : Node} (hnew : n.id ∉ w.nodeIds) (hanchor : anchor ∈ w.nodes)
    {id : String} (hid : id ∉ w.edgeIds) :
    Wired { w with
      nodes := insertAfter anchor.id n w.nodes
      edges := w.edges ++ [{ id, source := anchor.id, target := n.id }] } := by
  have hperm := perm_insertAfter (n := n) hanchor
  have hmem : ∀ m ∈ n :: w.nodes, m.id ∈ (insertAfter anchor.id n w.nodes).map Node.id := fun m hm =>
    List.mem_map_of_mem (hperm.mem_iff.2 hm)
  have hplaced := h.with_node hnew hperm
  refine (hplaced.connect_iff ?_ ?_ hid).2 ?_
  · exact hmem anchor (List.mem_cons_of_mem n hanchor)
  · exact hmem n List.mem_cons_self
  · exact h.not_leads_of_new hnew (List.mem_map_of_mem hanchor)

/-- Another step in a step's place keeps a workflow well wired if a trigger is left. -/
theorem Wired.replaced_iff (h : w.Wired) (id : String) (n : Node) :
    Wired { w with nodes := w.nodes.map fun m => if m.id = id then { n with id } else m } ↔
      ∃ m ∈ w.nodes.map fun m => if m.id = id then { n with id } else m, m.type = .trigger := by
  refine ⟨Wired.trigger, fun htrigger => h.of_nodeIds rfl (List.Perm.of_eq ?_) htrigger⟩
  rw [nodeIds, nodeIds, List.map_map]
  refine List.map_congr_left fun m _ => ?_
  rw [Function.comp_apply]
  split_ifs with hm
  · exact hm.symm
  · rfl

theorem Wired.removeNode_iff (h : w.Wired) (id : Value) :
    (w.removeNode id).Wired ↔ ∃ m ∈ (w.removeNode id).nodes, m.type = .trigger := by
  refine ⟨Wired.trigger, fun htrigger => ?_⟩
  unfold removeNode at htrigger ⊢
  split
  · exact h
  · next n hn =>
    rw [hn] at htrigger
    have hmem : ∀ a ∈ w.nodeIds, a ≠ n.id → a ∈ (w.nodes.filter fun m => decide (m.id ≠ n.id)).map Node.id := by
      intro a ha hne
      obtain ⟨m, hm, rfl⟩ := List.mem_map.1 ha
      exact List.mem_map_of_mem (List.mem_filter.2 ⟨hm, decide_eq_true hne⟩)
    refine h.of_sublist List.filter_sublist ?_ (fun e he => ?_) htrigger
    · exact h.nodup_nodes.sublist (List.filter_sublist.map Node.id)
    · obtain ⟨he, hends⟩ := List.mem_filter.1 he
      simp only [Bool.and_eq_true, decide_eq_true_eq] at hends
      exact ⟨hmem _ (h.ends e he).1 hends.1, hmem _ (h.ends e he).2 hends.2⟩

theorem Wired.disconnect (h : w.Wired) (p : Edge → Bool) : Wired { w with edges := w.edges.filter p } :=
  h.of_sublist List.filter_sublist h.nodup_nodes (fun e he => h.ends e (List.mem_of_mem_filter he)) h.trigger

theorem Wired.withFirst (h : w.Wired) (ids : List String) : (w.withFirst ids).Wired := by
  have hperm := perm_withFirst h.nodup_nodes ids
  obtain ⟨t, ht, htype⟩ := h.trigger
  exact h.of_nodeIds rfl (hperm.map Node.id) ⟨t, hperm.mem_iff.2 ht, htype⟩

theorem Wired.moved (h : w.Wired) (id : String) (p : Position) :
    Wired { w with nodes := modifyFirst id (fun n => { n with position := some p }) w.nodes } := by
  let place (n : Node) : Node := { n with position := some p }
  have hids : (modifyFirst id place w.nodes).map Node.id = w.nodeIds :=
    map_modifyFirst Node.id place (fun _ => rfl) w.nodes
  have htypes : (modifyFirst id place w.nodes).map Node.type = w.nodes.map Node.type :=
    map_modifyFirst Node.type place (fun _ => rfl) w.nodes
  refine h.of_nodeIds rfl (List.Perm.of_eq hids) (List.mem_map.1 ?_)
  rw [htypes]
  exact List.mem_map.2 h.trigger

/-- A valid workflow stays valid under an edit, unless the edit connects two steps the second of which led
to the first, or takes away the last trigger. Generated ids are taken to be new to the workflow. -/
theorem apply_valid_iff {o : EditOperation} (hvalid : w.validate.valid = true)
    (hnew : ∀ k, count < k → stampedId "edge" k ∉ w.edgeIds)
    (h : (w.apply o).Gives count w' count' ∨
      ∃ v, EditOperation.ofValue v = .accepted o ∧ (w.applyRaw v).Gives count w' count') :
    match o.action with
    | .addEdge => ∃ e, w' = { w with edges := w.edges ++ [e] } ∧
        (w'.validate.valid = true ↔ ¬ ReflTransGen w.Leads e.target e.source)
    | .removeNode | .editNode => w'.validate.valid = true ↔ ∃ n ∈ w'.nodes, n.type = .trigger
    | .addNode | .removeEdge | .reorderNodes | .updateNodePosition => w'.validate.valid = true := by
  obtain ⟨hfilled, hwired⟩ := Workflow.valid_iff.1 hvalid
  have happly : (w.apply o).Gives count w' count' := by
    rcases h with h | ⟨v, hv, h⟩
    · exact h
    · rwa [applyRaw, hv] at h
  have hedited := edited_of_apply happly
  generalize o.action = action at hedited ⊢
  have hiff := hedited.valid_iff hfilled
  cases hedited with
  | replaced => exact hiff.trans (hwired.replaced_iff _ _)
  | appended hid => exact hiff.2 (hwired.with_node hid (List.perm_append_singleton _ _))
  | inserted hid _ hanchor hk => exact hiff.2 (hwired.insert hid hanchor (hnew _ hk))
  | removed id => exact hiff.trans (hwired.removeNode_iff id)
  | reordered ids => exact hiff.2 (hwired.withFirst ids)
  | connected _ hsource htarget hid =>
    exact ⟨_, rfl, hiff.trans (hwired.connect_iff hsource htarget hid)⟩
  | disconnected id => exact hiff.2 (hwired.disconnect _)
  | moved id p => exact hiff.2 (hwired.moved id p)

def relay : Workflow where
  id := "w"
  name := "w"
  version := "1"
  nodes :=
    [{ id := "a", type := .trigger, provider := "p", operation := "o" },
      { id := "b", type := .action, provider := "p", operation := "o" }]
  edges := [{ id := "there", source := "a", target := "b" }]

/-- A connection back is accepted, but what it leaves is not valid. -/
theorem apply_valid_iff_relay :
    ∃ w' count, relay.validate.valid = true ∧ (∀ k, 0 < k → stampedId "edge" k ∉ relay.edgeIds) ∧
      (relay.apply ⟨.addEdge, [("source", .text "b"), ("target", .text "a")]⟩).Gives 0 w' count ∧
      w'.validate.valid = false := by
  have hvalid : relay.validate.valid = true := by decide +kernel
  have hnew : ∀ k, 0 < k → stampedId "edge" k ∉ relay.edgeIds := by
    intro k _ hk
    have : (stampedId "edge" k).toList = "there".toList := by simp_all [relay, edgeIds]
    simp [stampedId] at this
  let e : Edge := { id := stampedId "edge" 1, source := "b", target := "a" }
  have h : (relay.apply ⟨.addEdge, [("source", .text "b"), ("target", .text "a")]⟩).Gives 0
      { relay with edges := relay.edges ++ [e] } 1 := by
    rfl
  refine ⟨_, 1, hvalid, hnew, h, ?_⟩
  obtain ⟨f, hf, hiff⟩ := apply_valid_iff hvalid hnew (Or.inl h)
  obtain rfl : e = f := by simpa using congrArg Workflow.edges hf
  have hleads : relay.Leads "a" "b" := ⟨_, List.mem_singleton_self _, rfl, rfl⟩
  exact Bool.eq_false_iff.2 fun hv => hiff.1 hv (ReflTransGen.single hleads)

end Workflow

end Flowgraph
