import Flowgraph.Capability.Builtin
import Flowgraph.Proofs.Document.Drawing
import Flowgraph.Proofs.Failing

/-! Whether a document is found at all. Where the capabilities are built in, three things keep a workflow that
is not objected to from being drawn: the headers of a web request that cannot be listed, a waiting time between
tries that cannot be told in milliseconds, and a guard for which there is no place halfway. -/

namespace Flowgraph

/-! Built-in capabilities -/

namespace Registry

variable {r : Registry} {n : Node} {c : Capability}

theorem get?_eq_some {key : CapabilityKey} (h : r.get? key = some c) : c ∈ r.capabilities ∧ c.key = key :=
  ⟨List.mem_of_find?_eq_some h, by simpa using List.find?_some h⟩

/-- The capability of a node bears its names. -/
theorem find?_eq_some (h : r.find? n = some c) :
    c ∈ r.capabilities ∧ c.provider = n.provider ∧ c.operation = n.operation := by
  unfold find? lookup at h
  rcases (Option.orElse_eq_some _ _ _).1 h with h | ⟨-, h⟩
  · obtain ⟨hc, hkey⟩ := get?_eq_some h
    exact ⟨hc, congrArg CapabilityKey.provider hkey, congrArg CapabilityKey.operation hkey⟩
  · obtain ⟨hc, hkey⟩ := get?_eq_some h
    exact ⟨hc, congrArg CapabilityKey.provider hkey, congrArg CapabilityKey.operation hkey⟩

end Registry

namespace Document

/-- A web request with headers that are neither missing nor empty, and no object either. -/
def Unlisted (n : Flowgraph.Node) : Prop :=
  n.provider = "http" ∧ n.operation = "request" ∧ (n.inputs.getD "headers" .null).truthy = true ∧
    ∀ fields, n.inputs.getD "headers" .null ≠ .object fields

end Document

namespace Builtin

variable {c : Capability} {n : Node}

theorem headerList_errs_iff {v : Value} : Errs (headerList v) ↔ ∀ fields, v ≠ .object fields := by
  cases v <;> simp [headerList]

theorem httpParameters_errs_iff (n : Node) : Errs (httpParameters n) ↔
    (n.inputs.getD "headers" .null).truthy = true ∧ ∀ fields, n.inputs.getD "headers" .null ≠ .object fields := by
  unfold httpParameters
  generalize n.inputs.getD "headers" .null = headers
  dsimp only
  cases htruthy : headers.truthy with
  | true => simp [headerList_errs_iff]
  | false => simp

/-- Only the parameters of a web request can fail. -/
theorem parameters_errs_iff (hc : c ∈ capabilities) {form : ExternalForm} (hform : c.external = some form)
    (hprovider : c.provider = n.provider) (hoperation : c.operation = n.operation) :
    Errs (form.parameters n) ↔ Document.Unlisted n := by
  unfold Document.Unlisted
  rw [← hprovider, ← hoperation]
  simp only [capabilities, List.mem_cons, List.not_mem_nil, or_false] at hc
  rcases hc with rfl | rfl | rfl | rfl | rfl | rfl | rfl | rfl | rfl <;> cases hform
  case inr.inr.inr.inr.inr.inr.inr.inr =>
    rw [httpParameters_errs_iff]
    simp
  all_goals exact iff_of_false (not_errs_ok _) fun h => absurd h.1 (by decide)

/-- Credentials of every kind have a key. -/
theorem credentialKey_ne_none (hc : c ∈ capabilities) (provider : String) :
    Document.credentialKey? (c.metadata.getD "credential_type" (.text provider)) ≠ none := by
  simp only [capabilities, List.mem_cons, List.not_mem_nil, or_false] at hc
  rcases hc with rfl | rfl | rfl | rfl | rfl | rfl | rfl | rfl | rfl
  all_goals
    intro h
    cases h

end Builtin

namespace Document

/-! Steps -/

/-- A step that is tried again after a time that cannot be told in milliseconds. -/
def Untimed (e : Emitter) (w : Workflow) (n : Flowgraph.Node) : Prop :=
  (Policy.resolve w n e.defaultTimeout).retries ≠ 0 ∧ Errs (e.retryBase.mul (.int 1000) >>= Number.truncate)

section
variable {e : Emitter} {w : Workflow} {g : Graph} {s : Step} {order : List String}

theorem not_errs_credentialsOf (hc : s.capability ∈ Builtin.capabilities) : ¬ Errs (credentialsOf s) := by
  unfold credentialsOf
  split
  · exact not_errs_ok _
  · split
    · exact not_errs_ok _
    · next hnone => exact absurd hnone (Builtin.credentialKey_ne_none hc _)

theorem nodeOf_errs_iff (hc : s.capability ∈ Builtin.capabilities) (hform : s.capability.external = some s.form)
    (hprovider : s.capability.provider = s.node.provider) (hoperation : s.capability.operation = s.node.operation) :
    Errs (nodeOf e w g s) ↔ Unlisted s.node ∨ Untimed e w s.node := by
  have hcredentials := not_errs_credentialsOf hc
  unfold nodeOf Untimed
  dsimp only
  rw [← Builtin.parameters_errs_iff hc hform hprovider hoperation]
  refine errs_bind_of_forall fun parameters => ?_
  split_ifs with hretries
  · simp [hretries, hcredentials]
  · rw [errs_bind, errs_bind]
    simp [hretries, hcredentials, errs_bind]

theorem nodeOf_place {n : Node} (h : nodeOf e w g s = .ok n) : (n.x, n.y) = positionOf s.node s.index := by
  unfold nodeOf at h
  obtain ⟨parameters, -, h⟩ := bind_eq_ok.1 h
  dsimp only at h
  split_ifs at h
  · obtain ⟨tries, -, h⟩ := bind_eq_ok.1 h
    obtain ⟨credentials, -, h⟩ := bind_eq_ok.1 h
    cases h
    rfl
  · obtain ⟨product, -, h⟩ := bind_eq_ok.1 h
    obtain ⟨wait, -, h⟩ := bind_eq_ok.1 h
    obtain ⟨tries, -, h⟩ := bind_eq_ok.1 h
    obtain ⟨credentials, -, h⟩ := bind_eq_ok.1 h
    cases h
    rfl

end

section
variable {r : Registry} {g : Graph} {order : List String} {s : Step}

/-- A step is drawn with the capability that is found for its node. -/
theorem find?_of_mem_stepsOf (h : s ∈ stepsOf r g order) :
    r.find? s.node = some s.capability ∧ s.capability.external = some s.form := by
  have hmem : ((s.node, s.capability, s.form), s.name) ∈ (order.filterMap (known? r g)).zip (stepNames r g order) := by
    rw [← map_stepsOf]
    exact List.mem_map_of_mem h
  obtain ⟨id, -, hknown⟩ := List.mem_filterMap.1 (List.of_mem_zip hmem).1
  unfold known? at hknown
  simp only [Option.bind_eq_bind, Option.bind_eq_some_iff, Option.pure_def, Option.some.injEq] at hknown
  obtain ⟨n, -, c, hc, form, hform, heq⟩ := hknown
  cases heq
  exact ⟨hc, hform⟩

theorem index_of_getElem? {i : Nat} (h : (stepsOf r g order)[i]? = some s) : s.index = i := by
  simp only [stepsOf, List.getElem?_map, List.getElem?_zipIdx, Option.map_eq_some_iff] at h
  obtain ⟨entry, ⟨known, -, rfl⟩, rfl⟩ := h
  exact Nat.zero_add i

/-- Steps that stand in the order of their ids have the places of the ids as their own. -/
theorem index_of_mem_stepsOf (hids : (stepsOf r g order).map (fun s => s.node.id) = order) (hnodup : order.Nodup)
    (h : s ∈ stepsOf r g order) : s.index = order.idxOf s.node.id := by
  obtain ⟨i, hi⟩ := List.mem_iff_getElem?.1 h
  have hid : order[i]? = some s.node.id := by
    rw [← hids, List.getElem?_map, hi]
    rfl
  obtain ⟨hlt, hget⟩ := List.getElem?_eq_some_iff.1 hid
  rw [index_of_getElem? hi, ← hget, List.Nodup.idxOf_getElem hnodup]

end

/-! Connections -/

def placeOf (order : List String) (n : Flowgraph.Node) : Number × Number :=
  positionOf n (order.idxOf n.id)

/-- A guarded connection whose guard has no place halfway between its ends. -/
def Unguarded (g : Graph) (order : List String) (c : Edge) : Prop :=
  c.guard?.isSome = true ∧ ∃ source target, g.node? c.source = some source ∧ g.node? c.target = some target ∧
    (Errs (midpoint (placeOf order source).1 (placeOf order target).1) ∨
      Errs (midpoint (placeOf order source).2 (placeOf order target).2))

theorem guardOf_errs_iff {c : Edge} {expression name : String} {source target : Node} :
    Errs (guardOf c expression name source target) ↔
      Errs (midpoint source.x target.x) ∨ Errs (midpoint source.y target.y) := by
  unfold guardOf
  exact errs_bind_of_forall fun x => by simp

section
variable {r : Registry} {w : Workflow} {g : Graph} {order : List String} {pairs : List (Step × Node)} {c : Edge}

theorem wire_errs_iff (hp : Placed r w g pairs) (hplace : ∀ p ∈ pairs, (p.2.x, p.2.y) = placeOf order p.1.node)
    (hsource : c.source ∈ g.nodeIds) (htarget : c.target ∈ g.nodeIds) (wiring : Wiring) :
    Errs (wire pairs wiring c) ↔ Unguarded g order c := by
  obtain ⟨p, hpm, hpid, hpfound, -⟩ := hp.find? hsource
  obtain ⟨q, hqm, hqid, hqfound, -⟩ := hp.find? htarget
  have hpnode : g.node? c.source = some p.1.node := hpid ▸ hp.node p hpm
  have hqnode : g.node? c.target = some q.1.node := hqid ▸ hp.node q hqm
  unfold wire Unguarded
  simp only [hpfound, hqfound, hpnode, hqnode, Option.some.injEq]
  rcases routeOf_cases hpnode (hp.form p hpm) with ⟨hdropped, hroute⟩ | ⟨hdirect, hroute⟩ | ⟨x, hguard, hroute⟩
  · simp [hroute, guard?_of_isDropped hdropped]
  · have hguard : c.guard? = none := by simpa [isDirect] using (Bool.and_eq_true_iff.1 hdirect).2
    simp [hroute, hguard]
  · rw [hroute]
    dsimp only
    rw [errs_bind_of_not fun _ => not_errs_pure _, guardOf_errs_iff]
    simp [hguard, ← hplace p hpm, ← hplace q hqm]

end

section
variable {e : Emitter} {w : Workflow} {g : Graph} {order : List String}

theorem mapM_nodeOf_errs_iff (hbuiltin : ∀ c ∈ e.registry.capabilities, c ∈ Builtin.capabilities)
    (hnodes : ((stepsOf e.registry g order).map Step.node).Perm g.nodes) :
    Errs ((stepsOf e.registry g order).mapM (nodeOf e w g)) ↔ ∃ n ∈ g.nodes, Unlisted n ∨ Untimed e w n := by
  rw [errs_mapM]
  simp only [← hnodes.mem_iff, List.mem_map, exists_exists_and_eq_and]
  refine exists_congr fun s => and_congr_right fun hs => ?_
  obtain ⟨hfind, hform⟩ := find?_of_mem_stepsOf hs
  obtain ⟨hmem, hprovider, hoperation⟩ := Registry.find?_eq_some hfind
  exact nodeOf_errs_iff (hbuiltin _ hmem) hform hprovider hoperation

theorem foldlM_wire_errs_iff (hg : g.WellFormed) (ho : g.Orders order) {nodes : List Node}
    (hids : (stepsOf e.registry g order).map (fun s => s.node.id) = order)
    (hnodes : List.Forall₂ (fun s n => nodeOf e w g s = .ok n) (stepsOf e.registry g order) nodes)
    (hp : Placed e.registry w g ((stepsOf e.registry g order).zip nodes)) (start : Wiring) :
    Errs ((order.flatMap g.outgoing).foldlM (wire ((stepsOf e.registry g order).zip nodes)) start) ↔
      ∃ c ∈ g.edges, Unguarded g order c := by
  have hedges := perm_flatMap_outgoing hg ho
  have hplace : ∀ p ∈ (stepsOf e.registry g order).zip nodes, (p.2.x, p.2.y) = placeOf order p.1.node := by
    intro p hpm
    rw [nodeOf_place (List.forall₂_zip hnodes hpm), index_of_mem_stepsOf hids ho.nodup (List.of_mem_zip hpm).1]
    rfl
  rw [errs_foldlM (P := Unguarded g order) fun c hc t =>
    wire_errs_iff hp hplace (hg.source_mem c (hedges.mem_iff.1 hc)) (hg.target_mem c (hedges.mem_iff.1 hc)) t]
  simp only [hedges.mem_iff]

/-- Where every node has a built-in form, a document is assembled unless a node or a connection stands in the way. -/
theorem assemble_errs_iff (hbuiltin : ∀ c ∈ e.registry.capabilities, c ∈ Builtin.capabilities)
    (hobjections : (e.registry.objections (some .external) w).isEmpty)
    (horder : (Graph.ofWorkflow w).topologicalOrder = .ok order) :
    Errs (assemble e w (Graph.ofWorkflow w) order) ↔
      (∃ n ∈ (Graph.ofWorkflow w).nodes, Unlisted n ∨ Untimed e w n) ∨
        ∃ c ∈ (Graph.ofWorkflow w).edges, Unguarded (Graph.ofWorkflow w) order c := by
  have hg : (Graph.ofWorkflow w).WellFormed := Graph.ofWorkflow_wellFormed w
  have ho := Graph.topologicalOrder_orders horder
  have hknown : ∀ id ∈ order, ∃ n form,
      (Graph.ofWorkflow w).node? id = some n ∧ e.registry.externalForm? n = some form := by
    intro id hid
    obtain ⟨n, hn⟩ := Graph.node?_of_mem ((ho.mem id).1 hid)
    obtain ⟨form, hform⟩ :=
      Registry.externalForm?_of_objections hobjections (Graph.mem_nodes_of_ofWorkflow (Graph.node?_mem hn))
    exact ⟨n, form, hn, hform⟩
  obtain ⟨hids, hnames, hsteps⟩ := stepsOf_spec hknown
  have hnodes := perm_map_node hg ho hids fun s hs => (hsteps s hs).1
  unfold assemble
  dsimp only
  rw [← mapM_nodeOf_errs_iff hbuiltin hnodes]
  refine errs_bind_of_ok fun nodes hok => ?_
  have hwritten := forall₂_of_mapM hok
  rw [errs_bind_of_not fun _ => not_errs_pure _]
  exact foldlM_wire_errs_iff hg ho hids hwritten (placed_zip ho hids hnames hsteps hwritten) _

end

end Document

/-- What keeps a workflow that is not objected to and can be ordered from being drawn. -/
theorem Emitter.document_errs_iff {e : Emitter} (hbuiltin : ∀ c ∈ e.registry.capabilities, c ∈ Builtin.capabilities)
    (w : Workflow) : Errs (e.document w) ↔ (e.registry.objections (some .external) w).isEmpty = true ∧
      ∃ order, (Graph.ofWorkflow w).topologicalOrder = .ok order ∧
        ((∃ n ∈ (Graph.ofWorkflow w).nodes, Document.Unlisted n ∨ Document.Untimed e w n) ∨
          ∃ c ∈ (Graph.ofWorkflow w).edges, Document.Unguarded (Graph.ofWorkflow w) order c) := by
  unfold Emitter.document
  dsimp only
  split_ifs with hobjections
  · refine iff_of_false (not_errs_ok _) fun h => ?_
    rw [h.1] at hobjections
    cases hobjections
  have hempty : (e.registry.objections (some .external) w).isEmpty = true := by simpa using hobjections
  split
  · next blocked hblocked => simp [hblocked]
  · next order horder => simp [hempty, horder, ← Document.assemble_errs_iff hbuiltin hempty horder]

end Flowgraph
