import Flowgraph.Proofs.Failing
import Flowgraph.Proofs.Graph
import Flowgraph.Proofs.Naming

/-! The steps of a document. When no step of a workflow is objected to, each of its nodes becomes a step
of the document, in the given order, and no two of them bear the same name. -/

namespace Flowgraph

namespace Registry

def externalForm? (r : Registry) (n : Node) : Option ExternalForm :=
  (r.find? n).bind Capability.external

def hasErrorOutput (r : Registry) (n : Node) : Bool :=
  n.type ≠ .trigger && (r.externalForm? n).any ExternalForm.supportsErrorOutput

/-- A node that is not objected to has a form. -/
theorem externalForm?_of_objections {r : Registry} {w : Workflow}
    (h : (r.objections (some .external) w).isEmpty) {n : Node} (hn : n ∈ w.nodes) :
    ∃ form, r.externalForm? n = some form := by
  have hnone : r.objection? (some .external) n = none :=
    List.filterMap_eq_nil_iff.1 (List.isEmpty_iff.1 h) n hn
  unfold objection? at hnone
  unfold externalForm?
  cases hc : r.find? n with
  | none => simp [hc] at hnone
  | some c =>
    cases hform : c.external with
    | none => simp [hc, Capability.supports, hform] at hnone
    | some form => exact ⟨form, hform⟩

end Registry

namespace Document

section
variable {r : Registry} {g : Graph} {order : List String}

def known? (r : Registry) (g : Graph) (id : String) : Option (Flowgraph.Node × Capability × ExternalForm) := do
  let n ← g.node? id
  let c ← r.find? n
  let f ← c.external
  pure (n, c, f)

theorem known?_eq_some {id : String} {k : Flowgraph.Node × Capability × ExternalForm} (h : known? r g id = some k) :
    g.node? id = some k.1 ∧ r.externalForm? k.1 = some k.2.2 := by
  unfold known? at h
  simp only [Option.bind_eq_bind, Option.bind_eq_some_iff, Option.pure_def, Option.some.injEq] at h
  obtain ⟨n, hn, c, hc, f, hf, rfl⟩ := h
  refine ⟨hn, ?_⟩
  simp [Registry.externalForm?, hc, hf]

theorem map_id_filterMap_known
    (hknown : ∀ id ∈ order, ∃ n form, g.node? id = some n ∧ r.externalForm? n = some form) :
    (order.filterMap (known? r g)).map (fun k => k.1.id) = order := by
  induction order with
  | nil => rfl
  | cons id rest ih =>
    obtain ⟨n, form, hn, hform⟩ := hknown id List.mem_cons_self
    obtain ⟨c, hc, hf⟩ := Option.bind_eq_some_iff.1 hform
    have hid : known? r g id = some (n, c, form) := by simp [known?, hn, hc, hf]
    rw [List.filterMap_cons_some hid, List.map_cons, ih fun x hx => hknown x (List.mem_cons_of_mem id hx),
      Graph.node?_some_id hn]

def stepNames (r : Registry) (g : Graph) (order : List String) : List String :=
  freshNames (fun n => spelling (Node.label n)) ((order.filterMap (known? r g)).map Prod.fst) []

theorem map_stepsOf (r : Registry) (g : Graph) (order : List String) :
    (stepsOf r g order).map (fun s => ((s.node, s.capability, s.form), s.name)) =
      (order.filterMap (known? r g)).zip (stepNames r g order) := by
  change (((order.filterMap (known? r g)).zip (stepNames r g order)).zipIdx.map _).map _ = _
  rw [List.map_map]
  exact List.zipIdx_map_fst _ _

/-- The steps stand in the order of their ids, under names that differ. -/
theorem stepsOf_spec
    (hknown : ∀ id ∈ order, ∃ n form, g.node? id = some n ∧ r.externalForm? n = some form) :
    (stepsOf r g order).map (fun s => s.node.id) = order ∧
      ((stepsOf r g order).map Step.name).Nodup ∧
      ∀ s ∈ stepsOf r g order, g.node? s.node.id = some s.node ∧ r.externalForm? s.node = some s.form := by
  have hmap := map_stepsOf r g order
  have hlength : (stepNames r g order).length = (order.filterMap (known? r g)).length := by
    rw [stepNames, length_freshNames, List.length_map]
  have hentries : (stepsOf r g order).map (fun s => (s.node, s.capability, s.form)) =
      order.filterMap (known? r g) := by
    rw [← List.map_fst_zip hlength.ge, ← hmap, List.map_map]
    rfl
  have hnames : (stepsOf r g order).map Step.name = stepNames r g order := by
    rw [← List.map_snd_zip hlength.le, ← hmap, List.map_map]
    rfl
  refine ⟨?_, ?_, fun s hs => ?_⟩
  · have hids := map_id_filterMap_known hknown
    rwa [← hentries, List.map_map] at hids
  · rw [hnames]
    exact (nodup_freshNames (fun n => spelling_injective _) _ _).1
  · have hk : (s.node, s.capability, s.form) ∈ order.filterMap (known? r g) := by
      rw [← hentries]
      exact List.mem_map_of_mem hs
    obtain ⟨id, -, hid⟩ := List.mem_filterMap.1 hk
    obtain ⟨hnode, hform⟩ := known?_eq_some hid
    obtain rfl : s.node.id = id := Graph.node?_some_id hnode
    exact ⟨hnode, hform⟩

end

/-- A step is written down as a node that keeps its id and its name. -/
theorem nodeOf_eq_ok {e : Emitter} {w : Workflow} {g : Graph} {s : Step} {n : Node}
    (h : nodeOf e w g s = .ok n) : n.id = s.node.id ∧ n.name = s.name ∧ n.onError = onErrorOf w g s := by
  unfold nodeOf at h
  obtain ⟨parameters, -, h⟩ := bind_eq_ok.1 h
  -- How often the node is tried does not touch what is stated, nor does how that is found.
  split_ifs at h
  · obtain ⟨tries, -, h⟩ := bind_eq_ok.1 h
    obtain ⟨credentials, -, h⟩ := bind_eq_ok.1 h
    cases h
    exact ⟨rfl, rfl, rfl⟩
  · obtain ⟨product, -, h⟩ := bind_eq_ok.1 h
    obtain ⟨wait, -, h⟩ := bind_eq_ok.1 h
    obtain ⟨tries, -, h⟩ := bind_eq_ok.1 h
    obtain ⟨credentials, -, h⟩ := bind_eq_ok.1 h
    cases h
    exact ⟨rfl, rfl, rfl⟩

end Document

end Flowgraph
