import Flowgraph.Proofs.Document.Drawing

/-! A document shows its workflow exactly. Whoever reads its links and cuts the guards out finds each
connection between known nodes once, apart from the error connections that were dropped. -/

namespace Flowgraph

open List (Perm)

namespace Document

/-! Cutting the guards out -/

/-- Links with the guards cut out: what leads to a guard leads on to where the guard leads. -/
def contract (guards : List String) (links : List Arrow) : List Arrow :=
  (links.filter fun l => !guards.contains l.source).flatMap fun l =>
    if guards.contains l.target then
      (links.filter fun k => k.source = l.target).map fun k => ⟨l.source, l.slot, k.target⟩
    else [l]

def idOf (views : List View) (name : String) : String :=
  ((views.find? fun v => v.name = name).map View.id).getD ""

theorem contract_perm (guards : List String) {links links' : List Arrow} (h : Perm links links') :
    Perm (contract guards links) (contract guards links') := by
  refine (h.filter _).flatMap fun l _ => ?_
  split
  · exact (h.filter _).map _
  · exact Perm.refl _

/-- Among pairs that differ in their second parts, one is told by that part. -/
theorem filter_snd_eq {α : Type} {own : List (α × String)} (hnodup : (own.map Prod.snd).Nodup) {o : α × String}
    (ho : o ∈ own) : own.filter (fun p => p.2 = o.2) = [o] := by
  induction own with
  | nil => simp at ho
  | cons p rest ih =>
    obtain ⟨hp, hrest⟩ := List.nodup_cons.1 hnodup
    rcases List.mem_cons.1 ho with rfl | ho
    · have hothers : rest.filter (fun p => p.2 = o.2) = [] := by
        refine List.filter_eq_nil_iff.2 fun q hq heq => hp ?_
        rw [← of_decide_eq_true heq]
        exact List.mem_map_of_mem hq
      simp [hothers]
    · have hne : p.2 ≠ o.2 := fun heq => hp (heq ▸ List.mem_map_of_mem ho)
      simp [hne, ih hrest ho]

section
variable {r : Registry} {g : Graph} {order : List String} {name : String → String} {own : List (Edge × String)}
  {d : Document} {edges : List Edge}

/-- A guard leads to the target of its connection and nowhere else. -/
theorem filter_source_guard
    (hsteps : ∀ e ∈ edges, name e.source ∉ own.map Prod.snd) (hown : ∀ o ∈ own, o.1 ∈ edges)
    (hnodup : (own.map Prod.snd).Nodup) {o : Edge × String} (ho : o ∈ own) :
    (drawn r g name edges own).filter (fun l => l.source = o.2) = [⟨o.2, .main, name o.1.target⟩] := by
  have hmem : o.2 ∈ own.map Prod.snd := List.mem_map_of_mem ho
  have hdirect : ((edges.filter (isDirect r g)).map (linkOf name)).filter (fun l => l.source = o.2) = [] := by
    refine List.filter_eq_nil_iff.2 fun l hl heq => ?_
    obtain ⟨e, he, rfl⟩ := List.mem_map.1 hl
    have heq : name e.source = o.2 := of_decide_eq_true heq
    exact hsteps e (List.mem_of_mem_filter he) (heq ▸ hmem)
  have hdetour : ∀ p ∈ own, (detour name p).filter (fun l => l.source = o.2) =
      if p.2 = o.2 then [⟨p.2, .main, name p.1.target⟩] else [] := by
    intro p hp
    have hfirst : name p.1.source ≠ o.2 := fun heq => hsteps p.1 (hown p hp) (heq ▸ hmem)
    by_cases heq : p.2 = o.2 <;> simp [detour, hfirst, heq]
  have hguards : (own.flatMap (detour name)).filter (fun l => l.source = o.2) =
      (own.filter fun p => p.2 = o.2).map fun p => ⟨p.2, .main, name p.1.target⟩ := by
    rw [List.filter_flatMap, List.flatMap_congr hdetour]
    clear hdirect hdetour hmem hnodup hown ho
    induction own with
    | nil => rfl
    | cons p rest ih => by_cases heq : p.2 = o.2 <;> simp_all
  rw [drawn, List.filter_append, hdirect, hguards, filter_snd_eq hnodup ho]
  rfl

/-- The links that leave from steps are the direct ones and those to the guards. -/
theorem filter_source_step (hsteps : ∀ e ∈ edges, name e.source ∉ own.map Prod.snd) (hown : ∀ o ∈ own, o.1 ∈ edges) :
    (drawn r g name edges own).filter (fun l => !(own.map Prod.snd).contains l.source) =
      (edges.filter (isDirect r g)).map (linkOf name) ++ own.map fun o => ⟨name o.1.source, .main, o.2⟩ := by
  rw [drawn, List.filter_append]
  congr 1
  · refine List.filter_eq_self.2 fun l hl => ?_
    obtain ⟨e, he, rfl⟩ := List.mem_map.1 hl
    simpa [linkOf] using hsteps e (List.mem_of_mem_filter he)
  · have hdetour : ∀ o ∈ own, (detour name o).filter (fun l => !(own.map Prod.snd).contains l.source) =
        [⟨name o.1.source, .main, o.2⟩] := by
      intro o ho
      have hmem : o.2 ∈ own.map Prod.snd := List.mem_map_of_mem ho
      rw [detour, List.filter_cons_of_pos (by simpa using hsteps o.1 (hown o ho)),
        List.filter_cons_of_neg (by simpa using hmem), List.filter_nil]
    rw [List.filter_flatMap, List.flatMap_congr hdetour]
    exact List.map_eq_flatMap.symm

/-- Cutting the guards out leaves one link for each connection that is drawn. -/
theorem contract_drawn (hsteps : ∀ e ∈ edges, name e.source ∉ own.map Prod.snd ∧ name e.target ∉ own.map Prod.snd)
    (hown : ∀ o ∈ own, o.1 ∈ edges) (hnodup : (own.map Prod.snd).Nodup) :
    contract (own.map Prod.snd) ((drawn r g name edges own).map Link.arrow) =
      (edges.filter (isDirect r g)).map (fun e => (linkOf name e).arrow) ++
        own.map fun o => ⟨name o.1.source, 0, name o.1.target⟩ := by
  have hleave := filter_source_step (r := r) (g := g) (fun e he => (hsteps e he).1) hown
  set guards := own.map Prod.snd with hguards
  have hdirect : ∀ l ∈ (edges.filter (isDirect r g)).map (linkOf name), guards.contains l.target = false := by
    intro l hl
    obtain ⟨e, he, rfl⟩ := List.mem_map.1 hl
    simpa [linkOf] using (hsteps e (List.mem_of_mem_filter he)).2
  have hthrough : ∀ o ∈ own,
      ((drawn r g name edges own).map Link.arrow).filter (fun k => k.source = o.2) =
        [⟨o.2, 0, name o.1.target⟩] := by
    intro o ho
    have := filter_source_guard (r := r) (g := g) (fun e he => (hsteps e he).1) hown hnodup ho
    rw [List.filter_map]
    exact congrArg (List.map Link.arrow) this
  rw [contract, List.filter_map]
  have hsame : (drawn r g name edges own).filter ((fun l : Arrow => !guards.contains l.source) ∘ Link.arrow) =
      (drawn r g name edges own).filter fun l => !guards.contains l.source := rfl
  rw [hsame, hleave, List.map_append, List.flatMap_append]
  congr 1
  · rw [List.map_map, List.flatMap_map]
    refine Eq.trans (List.flatMap_congr fun e he => ?_) List.map_eq_flatMap.symm
    have hno : guards.contains (linkOf name e).arrow.target = false := hdirect _ (List.mem_map_of_mem he)
    simp only [Function.comp_apply, hno, Bool.false_eq_true, if_false]
  · rw [List.map_map, List.flatMap_map]
    refine Eq.trans (List.flatMap_congr fun o ho => ?_) List.map_eq_flatMap.symm
    have hmem : o.2 ∈ guards := List.mem_map_of_mem ho
    change (if guards.contains o.2 then
      (((drawn r g name edges own).map Link.arrow).filter fun k => k.source = o.2).map _ else _) = _
    rw [if_pos (List.contains_iff_mem.2 hmem), hthrough o ho]
    rfl

/-- Connections are direct, guarded or dropped. -/
theorem perm_direct_guarded (r : Registry) (g : Graph) (edges : List Edge) :
    Perm (edges.filter (isDirect r g) ++ edges.filter fun e => e.guard?.isSome)
      (edges.filter fun e => !isDropped r g e) := by
  have hdirect : edges.filter (isDirect r g) =
      (edges.filter fun e => !isDropped r g e).filter fun e => e.guard?.isNone := by
    rw [List.filter_filter]
    exact List.filter_congr fun e _ => Bool.and_comm _ _
  have hguarded : edges.filter (fun e => e.guard?.isSome) =
      (edges.filter fun e => !isDropped r g e).filter fun e => !e.guard?.isNone := by
    rw [List.filter_filter]
    refine List.filter_congr fun e _ => ?_
    cases hguard : e.guard? with
    | none => rfl
    | some expression => simp [isDropped_of_guard? hguard]
  rw [hdirect, hguarded]
  exact List.filter_append_perm _ _

theorem idOf_eq {views : List View} (hnodup : (views.map View.name).Nodup) {v : View} (hv : v ∈ views) :
    idOf views v.name = v.id := by
  cases hfound : views.find? fun u => u.name = v.name with
  | none => exact absurd (List.find?_eq_none.1 hfound v hv) (by simp)
  | some u =>
    have hname : u.name = v.name := by simpa using List.find?_some hfound
    obtain rfl : u = v := List.inj_on_of_nodup_map hnodup (List.mem_of_find?_eq_some hfound) hv hname
    simp [idOf, hfound]

theorem Draws.names (h : Draws r g order name own d) :
    (readNodes d.toWire).map View.name = order.map name ++ own.map Prod.snd := by
  have := congrArg (List.map Prod.snd) h.nodes
  rw [readNodes_toWire]
  simpa only [List.map_append, List.map_map, Function.comp_def, Node.view] using this

theorem Draws.idOf_name (h : Draws r g order name own d) {id : String} (hid : id ∈ order) :
    idOf (readNodes d.toWire) (name id) = id := by
  have hmem : (id, name id) ∈ d.nodes.map fun n => (n.id, n.name) := by
    rw [h.nodes]
    exact List.mem_append_left _ (List.mem_map_of_mem hid)
  obtain ⟨n, hn, heq⟩ := List.mem_map.1 hmem
  obtain ⟨hnid, hnname⟩ := Prod.mk.inj heq
  have hview : n.view ∈ readNodes d.toWire := by
    rw [readNodes_toWire]
    exact List.mem_map_of_mem hn
  have := idOf_eq (by rw [h.names]; exact h.nodup) hview
  rwa [Node.view, hnid, hnname] at this

/-- No guard has the name of a step. -/
theorem Draws.name_not_mem (h : Draws r g order name own d) {id : String} (hid : id ∈ order) :
    name id ∉ own.map Prod.snd :=
  fun hmem => (List.nodup_append.1 h.nodup).2.2 _ (List.mem_map_of_mem hid) _ hmem rfl

theorem Draws.mem_order (h : Draws r g order name own d) (hg : g.WellFormed) {e : Edge} (he : e ∈ g.edges) :
    e.source ∈ order ∧ e.target ∈ order :=
  ⟨h.ids.mem_iff.2 (hg.source_mem e he), h.ids.mem_iff.2 (hg.target_mem e he)⟩

theorem Draws.mem_edges (h : Draws r g order name own d) {o : Edge × String} (ho : o ∈ own) :
    o.1 ∈ g.edges ∧ ∃ expression, o.1.guard? = some expression := by
  have hmem := h.guarded.mem_iff.1 (List.mem_map_of_mem ho)
  obtain ⟨he, hguard⟩ := List.mem_filter.1 hmem
  exact ⟨he, Option.isSome_iff_exists.1 hguard⟩

theorem Draws.readLinks (h : Draws r g order name own d) :
    Perm (readLinks d.toWire) ((drawn r g name g.edges own).map Link.arrow) :=
  (perm_readLinks_toWire d).trans (h.links.map _)

/-- Read back and with the guards cut out, the links are the connections that were not dropped. -/
theorem Draws.contracted (h : Draws r g order name own d) (hg : g.WellFormed) :
    Perm ((contract (own.map Prod.snd) (Document.readLinks d.toWire)).map fun l =>
        (idOf (readNodes d.toWire) l.source, l.slot, idOf (readNodes d.toWire) l.target))
      ((g.edges.filter fun e => !isDropped r g e).map fun e => (e.source, (slotOf e).index, e.target)) := by
  have hsteps : ∀ e ∈ g.edges, name e.source ∉ own.map Prod.snd ∧ name e.target ∉ own.map Prod.snd :=
    fun e he => ⟨h.name_not_mem (h.mem_order hg he).1, h.name_not_mem (h.mem_order hg he).2⟩
  have hcut : contract (own.map Prod.snd) ((drawn r g name g.edges own).map Link.arrow) =
      (g.edges.filter (isDirect r g) ++ own.map Prod.fst).map fun e => (linkOf name e).arrow := by
    rw [contract_drawn hsteps (fun o ho => (h.mem_edges ho).1) (List.nodup_append.1 h.nodup).2.1, List.map_append,
      List.map_map]
    congr 1
    refine List.map_congr_left fun o ho => ?_
    obtain ⟨expression, hguard⟩ := (h.mem_edges ho).2
    simp [linkOf, Link.arrow, slotOf_of_guard? hguard, Slot.index]
  have hedges : Perm (g.edges.filter (isDirect r g) ++ own.map Prod.fst) (g.edges.filter fun e => !isDropped r g e) :=
    (h.guarded.append_left _).trans (perm_direct_guarded r g g.edges)
  have hall : Perm (contract (own.map Prod.snd) (Document.readLinks d.toWire))
      ((g.edges.filter fun e => !isDropped r g e).map fun e => (linkOf name e).arrow) := by
    refine (contract_perm _ h.readLinks).trans ?_
    rw [hcut]
    exact hedges.map _
  refine (hall.map _).trans (Perm.of_eq ?_)
  rw [List.map_map]
  refine List.map_congr_left fun e he => ?_
  obtain ⟨hsource, htarget⟩ := h.mem_order hg (List.mem_of_mem_filter he)
  simp only [Function.comp_apply, linkOf, Link.arrow, h.idOf_name hsource, h.idOf_name htarget]

/-- Every link runs between names of nodes. -/
theorem Draws.mem_names (h : Draws r g order name own d) (hg : g.WellFormed) {l : Arrow}
    (hl : l ∈ Document.readLinks d.toWire) :
    l.source ∈ (readNodes d.toWire).map View.name ∧ l.target ∈ (readNodes d.toWire).map View.name := by
  rw [h.names]
  obtain ⟨k, hk, rfl⟩ := List.mem_map.1 (h.readLinks.mem_iff.1 hl)
  have hstep : ∀ id ∈ order, name id ∈ order.map name ++ own.map Prod.snd :=
    fun id hid => List.mem_append_left _ (List.mem_map_of_mem hid)
  rcases List.mem_append.1 hk with hk | hk
  · obtain ⟨e, he, rfl⟩ := List.mem_map.1 hk
    obtain ⟨hsource, htarget⟩ := h.mem_order hg (List.mem_of_mem_filter he)
    exact ⟨hstep _ hsource, hstep _ htarget⟩
  · obtain ⟨o, ho, hk⟩ := List.mem_flatMap.1 hk
    obtain ⟨hsource, htarget⟩ := h.mem_order hg (h.mem_edges ho).1
    have hguard : o.2 ∈ order.map name ++ own.map Prod.snd :=
      List.mem_append_right _ (List.mem_map_of_mem ho)
    simp only [detour, List.mem_cons, List.not_mem_nil, or_false] at hk
    rcases hk with rfl | rfl
    · exact ⟨hstep _ hsource, hguard⟩
    · exact ⟨hguard, hstep _ htarget⟩

/-- The nodes in the error mode are those that a link leaves by the error slot. -/
theorem Draws.onError_iff (h : Draws r g order name own d) {v : View} (hv : v ∈ readNodes d.toWire) :
    v.onError = some "continueErrorOutput" ↔
      ∃ l ∈ Document.readLinks d.toWire, l.source = v.name ∧ l.slot = 1 := by
  rw [readNodes_toWire] at hv
  obtain ⟨n, hn, rfl⟩ := List.mem_map.1 hv
  have hmode : n.view.onError = some "continueErrorOutput" ↔ n.onError = some .errorOutput := by
    unfold Node.view
    cases n.onError with
    | none => simp
    | some mode => cases mode <;> simp [OnError.name]
  rw [hmode, h.onError n hn]
  constructor
  · rintro ⟨e, he, ht, hd, hname⟩
    have hdirect : isDirect r g e = true := by simp [isDirect, hd, Edge.guard?, ht]
    refine ⟨(linkOf name e).arrow, h.readLinks.mem_iff.2 (List.mem_map_of_mem ?_), hname, ?_⟩
    · exact List.mem_append_left _ (List.mem_map_of_mem (List.mem_filter.2 ⟨he, hdirect⟩))
    · simp [linkOf, Link.arrow, slotOf, ht, Slot.index]
  · rintro ⟨l, hl, hname, hslot⟩
    obtain ⟨k, hk, rfl⟩ := List.mem_map.1 (h.readLinks.mem_iff.1 hl)
    rcases List.mem_append.1 hk with hk | hk
    · obtain ⟨e, he, rfl⟩ := List.mem_map.1 hk
      obtain ⟨he, hdirect⟩ := List.mem_filter.1 he
      have ht : e.type = .error := by
        by_contra ht
        simp [linkOf, Link.arrow, slotOf, ht, Slot.index] at hslot
      have hd : isDropped r g e = false := by
        simp only [isDirect, Bool.and_eq_true, Bool.not_eq_true'] at hdirect
        exact hdirect.1
      exact ⟨e, he, ht, hd, hname⟩
    · obtain ⟨o, -, hk⟩ := List.mem_flatMap.1 hk
      simp only [detour, List.mem_cons, List.not_mem_nil, or_false] at hk
      rcases hk with rfl | rfl <;> simp [Link.arrow, Slot.index] at hslot

end

end Document

open Document in
/-- The document of a workflow, read back: all nodes have names of their own, every link runs between them,
and a node is in the error mode if and only if a link leaves it by the second slot. Each guarded connection
is two links through its own guard, every other one a link from the slot for its type, apart from the error
connections that their sources cannot express, for which there is a warning each; and with the guards cut
out the links are the connections between known nodes. -/
theorem Emitter.document_shows {e : Emitter} {w : Workflow} {em : Emission Document} {d : Document}
    (h : e.document w = .ok em) (hd : em.form = some d) :
    ((readNodes d.toWire).map View.name).Nodup ∧
    (∀ l ∈ readLinks d.toWire,
      l.source ∈ (readNodes d.toWire).map View.name ∧ l.target ∈ (readNodes d.toWire).map View.name) ∧
    (∀ v ∈ readNodes d.toWire, v.onError = some "continueErrorOutput" ↔
      ∃ l ∈ readLinks d.toWire, l.source = v.name ∧ l.slot = 1) ∧
    Perm em.warnings
      (((Graph.ofWorkflow w).nodes.filter fun n => n.guard?.isSome).map guardWarning ++
        ((Graph.ofWorkflow w).edges.filter (isDropped e.registry (Graph.ofWorkflow w))).map droppedWarning) ∧
    ∃ (order : List String) (name : String → String) (own : List (Edge × String)),
      Perm order (Graph.ofWorkflow w).nodeIds ∧
      (readNodes d.toWire).map (fun v => (v.id, v.name)) =
        order.map (fun id => (id, name id)) ++ own.map (fun o => (o.1.id ++ "-guard", o.2)) ∧
      Perm (own.map Prod.fst) ((Graph.ofWorkflow w).edges.filter fun x => x.guard?.isSome) ∧
      Perm (readLinks d.toWire)
        (((Graph.ofWorkflow w).edges.filter (isDirect e.registry (Graph.ofWorkflow w))).map
            (fun x => ⟨name x.source, (slotOf x).index, name x.target⟩) ++
          own.flatMap fun o => [⟨name o.1.source, 0, o.2⟩, ⟨o.2, 0, name o.1.target⟩]) ∧
      Perm
        ((contract (own.map Prod.snd) (readLinks d.toWire)).map fun l =>
          (idOf (readNodes d.toWire) l.source, l.slot, idOf (readNodes d.toWire) l.target))
        (((Graph.ofWorkflow w).edges.filter fun x => !isDropped e.registry (Graph.ofWorkflow w) x).map
          fun x => (x.source, (slotOf x).index, x.target)) := by
  obtain ⟨⟨order, name, own, hdraws⟩, hwarnings⟩ := draws_of_document h hd
  have hg : (Graph.ofWorkflow w).WellFormed := Graph.ofWorkflow_wellFormed w
  have hnodup : ((readNodes d.toWire).map View.name).Nodup := by
    rw [hdraws.names]
    exact hdraws.nodup
  have hnodes : (readNodes d.toWire).map (fun v => (v.id, v.name)) =
      order.map (fun id => (id, name id)) ++ own.map (fun o => (o.1.id ++ "-guard", o.2)) := by
    rw [readNodes_toWire, ← hdraws.nodes, List.map_map]
    rfl
  have hlinks := hdraws.readLinks
  rw [drawn, List.map_append, List.map_map, List.map_flatMap] at hlinks
  exact ⟨hnodup, fun l hl => hdraws.mem_names hg hl, fun v hv => hdraws.onError_iff hv, hwarnings, order, name, own,
    hdraws.ids, hnodes, hdraws.guarded, hlinks, hdraws.contracted hg⟩

def crossing : Workflow :=
  let node (id name : String) (type : NodeType) : Node :=
    { id, type, provider := "p", operation := "o", name := some name, position := some {} }
  let when (enabled : Bool) : Option Condition := some { enabled, expression := some "ready" }
  { id := "w", name := "w", version := "1"
    nodes := [node "a" "Start" .trigger, node "b" "Start" .action, node "c" "If Start 1" .action]
    edges :=
      [{ id := "1", source := "a", target := "b", type := .conditional, condition := when true },
       { id := "2", source := "a", target := "b", type := .conditional, condition := when true },
       { id := "3", source := "a", target := "c", type := .conditional, condition := when false },
       { id := "4", source := "a", target := "c", type := .error },
       { id := "5", source := "b", target := "c", type := .error },
       { id := "6", source := "b", target := "x" }] }

def crossingEmitter : Emitter :=
  { registry :=
      { capabilities := [{ provider := "p", operation := "o", external := some { nodeType := "base.step" } }] } }

open Document in
/-- Two guards between the same steps, one connection that leads nowhere and one that is dropped. -/
theorem Emitter.document_shows_crossing :
    ∃ em d, (crossingEmitter.document crossing = .ok em ∧ em.form = some d) ∧
      (readNodes d.toWire).map View.name = ["Start", "Start 1", "If Start 1", "If Start 1 1", "If Start 1 2"] ∧
      Perm em.warnings ["Edge '4': error route from 'a' cannot be expressed and was dropped"] ∧
      ∃ guards, Perm
        ((contract guards (readLinks d.toWire)).map fun l =>
          (idOf (readNodes d.toWire) l.source, l.slot, idOf (readNodes d.toWire) l.target))
        [("a", 0, "b"), ("a", 0, "b"), ("a", 0, "c"), ("b", 1, "c")] := by
  have hnames : ((crossingEmitter.document crossing).toOption.bind fun em => em.form.map fun d =>
      (readNodes d.toWire).map View.name) =
        some ["Start", "Start 1", "If Start 1", "If Start 1 1", "If Start 1 2"] := by
    decide +kernel
  obtain ⟨em, hem, hform⟩ := Option.bind_eq_some_iff.1 hnames
  obtain ⟨d, hd, hnames⟩ := Option.map_eq_some_iff.1 hform
  have hok : crossingEmitter.document crossing = .ok em := by
    cases hdoc : crossingEmitter.document crossing with
    | ok other => rw [hdoc] at hem; exact congrArg Except.ok (Option.some.inj hem)
    | error failure => rw [hdoc] at hem; cases hem
  obtain ⟨-, -, -, hwarnings, -, -, own, -, -, -, -, hlinks⟩ := document_shows hok hd
  exact ⟨em, d, ⟨hok, hd⟩, hnames, hwarnings.trans (by decide +kernel), own.map Prod.snd,
    hlinks.trans (by decide +kernel)⟩

end Flowgraph
