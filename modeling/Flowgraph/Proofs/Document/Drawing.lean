import Flowgraph.Proofs.Document.Reading
import Flowgraph.Proofs.Document.Wiring

/-! What an emitted document draws: every node of the graph once, and every connection as it was wired,
with an error mode where and only where an error connection leaves. -/

namespace Flowgraph

open List (Perm)

namespace Document

/-! What is emitted -/

theorem assemble_eq_ok {e : Emitter} {w : Workflow} {g : Graph} {order : List String} {d : Document}
    {warnings : List String} (h : assemble e w g order = .ok (d, warnings)) :
    ∃ nodes wiring, List.Forall₂ (fun s n => nodeOf e w g s = .ok n) (stepsOf e.registry g order) nodes ∧
      (order.flatMap g.outgoing).foldlM (wire ((stepsOf e.registry g order).zip nodes)) {} = .ok wiring ∧
      d.nodes = nodes ++ wiring.guards ∧ d.links = wiring.links ∧
      warnings = (((stepsOf e.registry g order).map Step.node).filter fun n => n.guard?.isSome).map guardWarning ++
        wiring.warnings := by
  unfold assemble at h
  obtain ⟨nodes, hnodes, h⟩ := bind_eq_ok.1 h
  obtain ⟨wiring, hwiring, h⟩ := bind_eq_ok.1 h
  cases h
  exact ⟨nodes, wiring, forall₂_of_mapM hnodes, hwiring, rfl, rfl, rfl⟩

end Document

theorem Emitter.document_eq_ok {e : Emitter} {w : Workflow} {em : Emission Document} {d : Document}
    (h : e.document w = .ok em) (hd : em.form = some d) :
    (e.registry.objections (some .external) w).isEmpty ∧
      ∃ order, (Graph.ofWorkflow w).topologicalOrder = .ok order ∧
        Document.assemble e w (Graph.ofWorkflow w) order = .ok (d, em.warnings) := by
  unfold Emitter.document at h
  dsimp only at h
  split_ifs at h with hempty
  · cases h
    cases hd
  refine ⟨by simpa using hempty, ?_⟩
  split at h
  · cases h
    cases hd
  · next order horder =>
    obtain ⟨⟨document, warnings⟩, hassemble, h⟩ := bind_eq_ok.1 h
    cases h
    cases hd
    exact ⟨order, horder, hassemble⟩

/-- A document that has been computed. -/
theorem Emitter.document_of_any {e : Emitter} {w : Workflow} {p : Emission Document → Document → Bool}
    (h : (e.document w).toOption.any (fun em => em.form.any (p em)) = true) :
    ∃ em d, e.document w = .ok em ∧ em.form = some d ∧ p em d = true := by
  obtain ⟨em, hem, hform⟩ := (Option.any_eq_true _ _).1 h
  obtain ⟨d, hd, hp⟩ := (Option.any_eq_true _ _).1 hform
  exact ⟨em, d, toOption_eq_some.1 hem, hd, hp⟩

namespace Document

section
variable {e : Emitter} {w : Workflow} {g : Graph} {order : List String} {steps : List Step} {nodes : List Node}

theorem map_zip_fst {α : Type} (f : Step → α) (hlength : steps.length = nodes.length) :
    (steps.zip nodes).map (fun p => f p.1) = steps.map f := by
  conv_rhs => rw [← List.map_fst_zip hlength.le, List.map_map]
  rfl

/-- Steps of all nodes, each written down, stand for the graph. -/
theorem placed_zip (ho : g.Orders order) (hids : steps.map (fun s => s.node.id) = order)
    (hnames : (steps.map Step.name).Nodup)
    (hsteps : ∀ s ∈ steps, g.node? s.node.id = some s.node ∧ e.registry.externalForm? s.node = some s.form)
    (hnodes : List.Forall₂ (fun s n => nodeOf e w g s = .ok n) steps nodes) :
    Placed e.registry w g (steps.zip nodes) := by
  have hlength := hnodes.length_eq
  have hzip : (steps.zip nodes).map (fun p => p.1.node.id) = order :=
    (map_zip_fst (fun s => s.node.id) hlength).trans hids
  have hnode : ∀ p ∈ steps.zip nodes, nodeOf e w g p.1 = .ok p.2 := fun p hp => List.forall₂_zip hnodes hp
  have hstep : ∀ p ∈ steps.zip nodes, p.1 ∈ steps := fun p hp => (List.of_mem_zip hp).1
  have hzipnames : (steps.zip nodes).map (fun p => p.2.name) = steps.map Step.name := by
    rw [← map_zip_fst Step.name hlength]
    exact List.map_congr_left fun p hp => (nodeOf_eq_ok (hnode p hp)).2.1
  refine ⟨?_, ?_, ?_, ?_, ?_, ?_, ?_⟩
  · rw [hzip]
    exact ho.nodup
  · rw [hzip]
    exact ho.mem
  · rw [hzipnames]
    exact hnames
  · exact fun p hp => (hsteps p.1 (hstep p hp)).1
  · exact fun p hp => (hsteps p.1 (hstep p hp)).2
  · exact fun p hp => (nodeOf_eq_ok (hnode p hp)).1
  · exact fun p hp => (nodeOf_eq_ok (hnode p hp)).2.2

end

/-- How a document draws a graph: the nodes in an order, under their names, and then a guard for each
guarded connection, listed in `own` with the names of the guards. -/
structure Draws (r : Registry) (g : Graph) (order : List String) (name : String → String)
    (own : List (Edge × String)) (d : Document) : Prop where
  ids : Perm order g.nodeIds
  nodes : d.nodes.map (fun n => (n.id, n.name)) =
    order.map (fun id => (id, name id)) ++ own.map fun o => (o.1.id ++ "-guard", o.2)
  nodup : (order.map name ++ own.map Prod.snd).Nodup
  guarded : Perm (own.map Prod.fst) (g.edges.filter fun e => e.guard?.isSome)
  links : Perm d.links (drawn r g name g.edges own)
  onError : ∀ n ∈ d.nodes, n.onError = some .errorOutput ↔
    ∃ e ∈ g.edges, e.type = .error ∧ isDropped r g e = false ∧ name e.source = n.name

section
variable {r : Registry} {w : Workflow} {g : Graph}

theorem mem_errorEdges {id : String} {x : Edge} :
    x ∈ errorEdges g id ↔ x ∈ g.edges ∧ x.type = .error ∧ x.source = id := by
  simp only [errorEdges, Graph.outgoing, List.mem_filter, decide_eq_true_eq]
  constructor
  · rintro ⟨⟨hx, hs⟩, ht⟩
    exact ⟨hx, ht, hs⟩
  · rintro ⟨hx, ht, hs⟩
    exact ⟨⟨hx, hs⟩, ht⟩

/-- The error connections of a step are dropped all together or not at all. -/
theorem isDropped_of_mem_errorEdges {s : Step} (hnode : g.node? s.node.id = some s.node)
    (hform : r.externalForm? s.node = some s.form) {x : Edge} (hx : x ∈ errorEdges g s.node.id) :
    isDropped r g x = !s.hasErrorSlot := by
  obtain ⟨-, ht, hs⟩ := mem_errorEdges.1 hx
  simp [isDropped, ht, hs, hnode, hasErrorSlot_eq hform]

theorem onErrorOf_eq_some {s : Step} (hnode : g.node? s.node.id = some s.node)
    (hform : r.externalForm? s.node = some s.form) :
    onErrorOf w g s = some .errorOutput ↔
      ∃ e ∈ g.edges, e.type = .error ∧ isDropped r g e = false ∧ e.source = s.node.id := by
  have hsome : onErrorOf w g s = some .errorOutput ↔
      s.hasErrorSlot = true ∧ (errorEdges g s.node.id).isEmpty = false := by
    unfold onErrorOf
    cases s.hasErrorSlot <;> cases (errorEdges g s.node.id).isEmpty <;> simp
  rw [hsome, List.isEmpty_eq_false_iff_exists_mem]
  constructor
  · rintro ⟨hslot, e, he⟩
    obtain ⟨hmem, ht, hs⟩ := mem_errorEdges.1 he
    exact ⟨e, hmem, ht, by rw [isDropped_of_mem_errorEdges hnode hform he, hslot]; rfl, hs⟩
  · rintro ⟨e, hmem, ht, hnot, hs⟩
    have he := mem_errorEdges.2 ⟨hmem, ht, hs⟩
    rw [isDropped_of_mem_errorEdges hnode hform he] at hnot
    exact ⟨by simpa using hnot, e, he⟩

/-- A step has an error mode exactly if an error connection leaves from its name. -/
theorem Placed.onError_iff (hg : g.WellFormed) {pairs : List (Step × Node)} (h : Placed r w g pairs)
    {p : Step × Node} (hp : p ∈ pairs) : p.2.onError = some .errorOutput ↔
      ∃ e ∈ g.edges, e.type = .error ∧ isDropped r g e = false ∧ nameIn pairs e.source = p.2.name := by
  have hsource : ∀ e ∈ g.edges, e.source = p.1.node.id ↔ nameIn pairs e.source = p.2.name := by
    intro e he
    rw [← h.nameIn_eq hp]
    constructor
    · exact congrArg _
    · exact h.nameIn_inj (hg.source_mem e he) ((h.mem _).1 (List.mem_map_of_mem hp))
  rw [h.onError p hp, onErrorOf_eq_some (h.node p hp) (h.form p hp)]
  constructor
  · rintro ⟨e, he, ht, hd, hs⟩
    exact ⟨e, he, ht, hd, (hsource e he).1 hs⟩
  · rintro ⟨e, he, ht, hd, hs⟩
    exact ⟨e, he, ht, hd, (hsource e he).2 hs⟩

/-- Connections by their sources, in the order of the sources, are all connections. -/
theorem perm_flatMap_outgoing (hg : g.WellFormed) {order : List String} (ho : g.Orders order) :
    Perm (order.flatMap g.outgoing) g.edges :=
  perm_flatMap_filter ho.nodup fun e he => (ho.mem _).2 (hg.source_mem e he)

/-- The steps of an ordered graph are its nodes. -/
theorem perm_map_node (hg : g.WellFormed) {order : List String} (ho : g.Orders order) {steps : List Step}
    (hids : steps.map (fun s => s.node.id) = order) (hnode : ∀ s ∈ steps, g.node? s.node.id = some s.node) :
    Perm (steps.map Step.node) g.nodes := by
  have hnodup : (steps.map Step.node).Nodup := by
    refine List.Nodup.of_map Flowgraph.Node.id ?_
    rw [List.map_map]
    exact hids ▸ ho.nodup
  refine (List.perm_ext_iff_of_nodup hnodup (List.Nodup.of_map Flowgraph.Node.id hg.nodup)).2 fun n => ?_
  constructor
  · intro hn
    obtain ⟨s, hs, rfl⟩ := List.mem_map.1 hn
    exact Graph.node?_mem (hnode s hs)
  · intro hn
    have hid : n.id ∈ order := (ho.mem n.id).2 (List.mem_map_of_mem hn)
    rw [← hids] at hid
    obtain ⟨s, hs, heq⟩ := List.mem_map.1 hid
    rw [← List.inj_on_of_nodup_map hg.nodup (Graph.node?_mem (hnode s hs)) hn heq]
    exact List.mem_map_of_mem hs

end

/-- The steps and the wiring that an emitted document is put together from. -/
structure Assembled (r : Registry) (w : Workflow) (g : Graph) (pairs : List (Step × Node)) (own : List (Edge × String))
    (wiring : Wiring) (d : Document) (warnings : List String) : Prop where
  orders : g.Orders (pairs.map fun p => p.1.node.id)
  placed : Placed r w g pairs
  laid : Laid r g (nameIn pairs) (pairs.map fun p => p.2.name)
    ((pairs.map fun p => p.1.node.id).flatMap g.outgoing) own wiring
  nodes : d.nodes = pairs.map Prod.snd ++ wiring.guards
  links : d.links = wiring.links
  warnings : warnings =
    ((pairs.map fun p => p.1.node).filter fun n => n.guard?.isSome).map guardWarning ++ wiring.warnings

section
variable {r : Registry} {w : Workflow} {g : Graph} {pairs : List (Step × Node)} {own : List (Edge × String)}
  {wiring : Wiring} {d : Document} {warnings : List String}

theorem Assembled.perm_edges (h : Assembled r w g pairs own wiring d warnings) (hg : g.WellFormed) :
    Perm ((pairs.map fun p => p.1.node.id).flatMap g.outgoing) g.edges :=
  perm_flatMap_outgoing hg h.orders

/-- What is put together draws the graph. -/
theorem Assembled.draws (h : Assembled r w g pairs own wiring d warnings) (hg : g.WellFormed) :
    Draws r g (pairs.map fun p => p.1.node.id) (nameIn pairs) own d := by
  have hedges := h.perm_edges hg
  refine ⟨?_, ?_, ?_, ?_, ?_, ?_⟩
  · exact (List.perm_ext_iff_of_nodup h.orders.nodup hg.nodup).2 h.orders.mem
  · rw [h.nodes, List.map_append, List.map_map, List.map_map]
    congr 1
    · refine List.map_congr_left fun p hp => ?_
      simp only [Function.comp_apply, h.placed.id p hp, h.placed.nameIn_eq hp]
    · have := congrArg (List.map fun x : String × String × Option OnError => (x.1, x.2.1)) h.laid.guards
      simpa only [List.map_map, Function.comp_def] using this
  · rw [← h.placed.names_eq]
    exact h.laid.nodup
  · rw [h.laid.guarded]
    exact hedges.filter _
  · rw [h.links]
    exact h.laid.links.trans (((hedges.filter _).map _).append_right _)
  · intro n hn
    rw [h.nodes, List.mem_append] at hn
    rcases hn with hn | hn
    · obtain ⟨p, hp, rfl⟩ := List.mem_map.1 hn
      exact h.placed.onError_iff hg hp
    · -- No step has the name of a guard.
      have hguard : n.name ∈ own.map Prod.snd := h.laid.names ▸ List.mem_map_of_mem hn
      have hnodup := h.laid.nodup
      rw [h.placed.names_eq] at hnodup
      rw [h.laid.onError_of_guard hn]
      constructor
      · intro hcontra
        cases hcontra
      · rintro ⟨e, he, -, -, hsame⟩
        have hstep : nameIn pairs e.source ∈ (pairs.map fun p => p.1.node.id).map (nameIn pairs) :=
          List.mem_map_of_mem ((h.orders.mem _).2 (hg.source_mem e he))
        exact absurd hsame ((List.nodup_append.1 hnodup).2.2 _ hstep _ hguard)

/-- There is a warning for each node with a guard and one for each dropped connection. -/
theorem Assembled.perm_warnings (h : Assembled r w g pairs own wiring d warnings) (hg : g.WellFormed) :
    Perm warnings ((g.nodes.filter fun n => n.guard?.isSome).map guardWarning ++
      (g.edges.filter (isDropped r g)).map droppedWarning) := by
  have hnodes : Perm ((pairs.map Prod.fst).map Step.node) g.nodes := by
    refine perm_map_node hg h.orders ?_ ?_
    · rw [List.map_map]
      rfl
    · rw [List.forall_mem_map]
      exact h.placed.node
  rw [List.map_map] at hnodes
  rw [h.warnings, h.laid.warnings]
  exact ((hnodes.filter _).map _).append (((h.perm_edges hg).filter _).map _)

end

end Document

/-- Every emitted document is put together from the steps of its workflow. -/
theorem Emitter.assembled_of_document {e : Emitter} {w : Workflow} {em : Emission Document} {d : Document}
    (h : e.document w = .ok em) (hd : em.form = some d) :
    ∃ pairs own wiring,
      Document.Assembled e.registry w (Graph.ofWorkflow w) pairs own wiring d em.warnings := by
  obtain ⟨hobjections, order, horder, hassemble⟩ := document_eq_ok h hd
  obtain ⟨nodes, wiring, hnodes, hwiring, hdnodes, hdlinks, hwarnings⟩ := Document.assemble_eq_ok hassemble
  have hg : (Graph.ofWorkflow w).WellFormed := Graph.ofWorkflow_wellFormed w
  have ho := Graph.topologicalOrder_orders horder
  have hknown : ∀ id ∈ order, ∃ n form,
      (Graph.ofWorkflow w).node? id = some n ∧ e.registry.externalForm? n = some form := by
    intro id hid
    obtain ⟨n, hn⟩ := Graph.node?_of_mem ((ho.mem id).1 hid)
    have hmem := Graph.mem_nodes_of_ofWorkflow (Graph.node?_mem hn)
    obtain ⟨form, hform⟩ := Registry.externalForm?_of_objections hobjections hmem
    exact ⟨n, form, hn, hform⟩
  obtain ⟨hids, hnames, hsteps⟩ := Document.stepsOf_spec hknown
  have hplaced := Document.placed_zip ho hids hnames hsteps hnodes
  have hlength := hnodes.length_eq
  have hzip := (Document.map_zip_fst (fun s => s.node.id) hlength).trans hids
  have hends : ∀ x ∈ order.flatMap (Graph.ofWorkflow w).outgoing,
      x.source ∈ (Graph.ofWorkflow w).nodeIds ∧ x.target ∈ (Graph.ofWorkflow w).nodeIds := by
    intro x hx
    have hx := (Document.perm_flatMap_outgoing hg ho).mem_iff.1 hx
    exact ⟨hg.source_mem x hx, hg.target_mem x hx⟩
  obtain ⟨own, hlaid⟩ := (Document.laid_nil hplaced.nodup_names).foldlM_wire hplaced hends hwiring
  refine ⟨_, own, wiring, ?_, hplaced, ?_, ?_, hdlinks, ?_⟩
  · rwa [hzip]
  · rwa [hzip, ← List.nil_append (order.flatMap _)]
  · rw [List.map_snd_zip hlength.ge, hdnodes]
  · rw [Document.map_zip_fst Document.Step.node hlength, hwarnings]

/-- An emitted document draws the graph of its workflow; the warnings are one for each node with a guard
and one for each dropped connection. -/
theorem Emitter.draws_of_document {e : Emitter} {w : Workflow} {em : Emission Document} {d : Document}
    (h : e.document w = .ok em) (hd : em.form = some d) :
    (∃ order name own, Document.Draws e.registry (Graph.ofWorkflow w) order name own d) ∧
      Perm em.warnings
        (((Graph.ofWorkflow w).nodes.filter fun n => n.guard?.isSome).map Document.guardWarning ++
          ((Graph.ofWorkflow w).edges.filter (Document.isDropped e.registry (Graph.ofWorkflow w))).map
            Document.droppedWarning) := by
  obtain ⟨pairs, own, wiring, hassembled⟩ := assembled_of_document h hd
  have hg : (Graph.ofWorkflow w).WellFormed := Graph.ofWorkflow_wellFormed w
  exact ⟨⟨_, _, own, hassembled.draws hg⟩, hassembled.perm_warnings hg⟩

end Flowgraph
