import Flowgraph.Proofs.Validation.Reading

/-! A valid payload, and the workflow that is read from it. Reading trims ids, which the validation of
payloads does not. So the workflow may be invalid although its payload is valid, and it is so exactly
when two ids have become the same. -/

namespace Flowgraph

open Relation (TransGen)

open Validation

section
variable {α : Type} {R : Value → α → Prop} {vs : List Value} {as : List α}

theorem forall₂_mem_right (h : List.Forall₂ R vs as) : ∀ a ∈ as, ∃ v ∈ vs, R v a := by
  induction h with
  | nil => exact List.forall_mem_nil _
  | @cons v a _ _ hr _ ih =>
    rw [List.forall_mem_cons]
    refine ⟨⟨v, List.mem_cons_self .., hr⟩, fun b hb => ?_⟩
    obtain ⟨u, hu, hub⟩ := ih b hb
    exact ⟨u, List.mem_cons_of_mem _ hu, hub⟩

theorem forall₂_mem_left (h : List.Forall₂ R vs as) : ∀ v ∈ vs, ∃ a ∈ as, R v a := by
  induction h with
  | nil => exact List.forall_mem_nil _
  | @cons v a _ _ hr _ ih =>
    rw [List.forall_mem_cons]
    refine ⟨⟨a, List.mem_cons_self .., hr⟩, fun u hu => ?_⟩
    obtain ⟨b, hb, hub⟩ := ih u hu
    exact ⟨b, List.mem_cons_of_mem _ hb, hub⟩

/-- What is read from each item, read from all. -/
theorem filterMap_eq_map {f : Value → Option String} {key : α → String} (h : List.Forall₂ R vs as)
    (hr : ∀ v a, R v a → f v = some (key a)) : vs.filterMap f = as.map key := by
  induction h with
  | nil => rfl
  | cons hva _ ih => rw [List.filterMap_cons_some (hr _ _ hva), ih, List.map_cons]

end

/-- A chain between images goes back to a chain between what they are images of. -/
theorem transGen_of_images {r : String → String → Prop} {q : String → String → Prop} {f : String → String}
    {dom : String → Prop} (hq : ∀ a b, q a b → ∃ x y, r x y ∧ f x = a ∧ f y = b)
    (hdom : ∀ x y, r x y → dom x ∧ dom y) (hinj : ∀ x y, dom x → dom y → f x = f y → x = y) {a b : String}
    (h : TransGen q a b) : ∃ x y, TransGen r x y ∧ f x = a ∧ f y = b ∧ dom x ∧ dom y := by
  induction h with
  | single h =>
    obtain ⟨x, y, hxy, hx, hy⟩ := hq _ _ h
    exact ⟨x, y, TransGen.single hxy, hx, hy, hdom x y hxy⟩
  | tail _ h ih =>
    obtain ⟨x, y, hxy, hx, hy, hdx, hdy⟩ := ih
    obtain ⟨y', z, hyz, hy', hz⟩ := hq _ _ h
    obtain ⟨hdy', hdz⟩ := hdom _ _ hyz
    obtain rfl := hinj y y' hdy hdy' (hy.trans hy'.symm)
    exact ⟨x, z, hxy.tail hyz, hx, hz, hdx, hdz⟩

theorem Node.ReadFrom.nodeId? {v : Value} {n : Node} (h : n.ReadFrom v) :
    ∃ raw, Validation.nodeId? v = some raw ∧ n.id = Text.trim raw := by
  obtain ⟨raw, hraw, hid⟩ := h.id
  have hblank := h.filled.id
  rw [hid, Text.allBlank_trim] at hblank
  refine ⟨raw, ?_, hid⟩
  rw [Validation.nodeId?, hraw]
  simp [hblank]

/-- The ids of a workflow are the trimmed ones of its payload. -/
theorem Workflow.ItemsFrom.trimmedIds {α : Type} {v : Value} {list : String} {read : Value → Reading α}
    {as : List α} {key : α → String} (h : ItemsFrom v list read as)
    (hr : ∀ v a, read v = .accepted a → ∃ raw, v.field? "id" = some (.text raw) ∧ key a = Text.trim raw) :
    trimmedIds v list = as.map key := by
  obtain ⟨vs, hlisted, has⟩ := h
  have hvs : ((v.field? list).bind Value.items?).getD [] = vs := by
    rcases hlisted with ⟨hnull, rfl⟩ | hlist
    · cases hf : v.field? list with
      | none => rfl
      | some x =>
        rw [hf] at hnull
        obtain rfl : x = .null := hnull
        rfl
    · cases hf : v.field? list with
      | none =>
        rw [hf] at hlist
        cases hlist
      | some x =>
        rw [hf] at hlist
        obtain rfl : x = .list vs := hlist
        rfl
  rw [Flowgraph.trimmedIds, hvs]
  refine filterMap_eq_map has fun v a ha => ?_
  obtain ⟨raw, hraw, hkey⟩ := hr v a ha
  rw [hraw, hkey]
  rfl

section
variable {fs : Fields} {nodes edges vars : List Value} {w : Workflow}

/-- A workflow that was read from a valid payload with these parts. -/
structure FromValid (fs : Fields) (nodes edges vars : List Value) (w : Workflow) : Prop where
  good : GoodPayload fs nodes edges vars
  read : w.ReadFrom (.object fs)
  nodes_read : List.Forall₂ (fun v n => Node.ofValue v = .accepted n) nodes w.nodes
  edges_read : List.Forall₂ (fun v e => Edge.ofValue v = .accepted e) edges w.edges
  vars_read : List.Forall₂ (fun v x => Variable.ofValue v = .accepted x) vars w.vars

theorem fromValid_of_valid {v : Value} (hv : (validate v).valid = true) (hw : Workflow.ofValue v = .accepted w) :
    ∃ fs nodes edges vars, v = .object fs ∧ FromValid fs nodes edges vars w := by
  cases v with
  | object fs =>
    obtain ⟨nodes, edges, vars, hgood⟩ := valid_checkFields.1 hv
    have hread := Workflow.readFrom hw
    obtain ⟨ns, hns, hn⟩ := hread.nodes
    obtain ⟨es, hes, he⟩ := hread.edges
    obtain ⟨xs, hxs, hx⟩ := hread.vars
    obtain rfl := Listed.unique hgood.nodes_listed hns
    obtain rfl := Listed.unique hgood.edges_listed hes
    obtain rfl := Listed.unique hgood.vars_listed hxs
    exact ⟨fs, nodes, edges, vars, rfl, hgood, hread, hn, he, hx⟩
  | _ => cases hv

/-- A field that is given as a text is not blank. -/
theorem not_blank_of_given {names : List String} {name s : String} (h : Given names fs) (hname : name ∈ names)
    (hs : (Value.object fs).field? name = some (.text s)) : Text.allBlank s = false := by
  have hgiven := h name hname
  have hfield : fieldOf fs name = .text s := by
    change (Table.get? fs name).getD .null = _
    rw [show Table.get? fs name = some (.text s) from hs]
    rfl
  rw [hfield] at hgiven
  exact hgiven

theorem FromValid.filled (h : FromValid fs nodes edges vars w) : w.Filled where
  id := not_blank_of_given h.good.given (by simp) h.read.id
  name := not_blank_of_given h.good.given (by simp) h.read.name
  version := not_blank_of_given h.good.given (by simp) h.read.version
  timeout := h.read.timeout
  nodes := fun n hn => by
    obtain ⟨v, -, hv⟩ := forall₂_mem_right h.nodes_read n hn
    exact (Node.readFrom hv).filled
  edges := fun e he => by
    obtain ⟨v, -, hv⟩ := forall₂_mem_right h.edges_read e he
    exact (Edge.readFrom hv).filled
  vars := fun x hx => by
    obtain ⟨v, hmem, hv⟩ := forall₂_mem_right h.vars_read x hx
    obtain ⟨hid, hname⟩ := Variable.readFrom hv
    obtain ⟨fs, rfl, hgood⟩ := h.good.good_vars v hmem
    exact ⟨not_blank_of_given hgood.given (by simp) hid, not_blank_of_given hgood.given (by simp) hname⟩

theorem FromValid.nodeIds (h : FromValid fs nodes edges vars w) :
    (nodes.filterMap nodeId?).map Text.trim = w.nodeIds := by
  rw [← List.filterMap_eq_map, List.filterMap_filterMap]
  refine filterMap_eq_map h.nodes_read fun v n hv => ?_
  obtain ⟨raw, hraw, hid⟩ := (Node.readFrom hv).nodeId?
  rw [hraw, hid]
  rfl

/-- A connection of the payload, and what was read from it. -/
theorem FromValid.edge (h : FromValid fs nodes edges vars w) {e : Edge} (he : e ∈ w.edges) :
    ∃ s t, (links nodes edges).Leads s t ∧ Text.trim s = e.source ∧ Text.trim t = e.target := by
  obtain ⟨v, hmem, hv⟩ := forall₂_mem_right h.edges_read e he
  obtain ⟨⟨s, hs, hsource⟩, ⟨t, ht, htarget⟩⟩ := And.intro (Edge.readFrom hv).source (Edge.readFrom hv).target
  obtain ⟨fs', rfl, hgood⟩ := h.good.good_edges v hmem
  have hfield : ∀ {name raw}, (Value.object fs').field? name = some (.text raw) → fieldOf fs' name = .text raw :=
    fun {name raw} hf => by
      change (Table.get? fs' name).getD .null = _
      rw [show Table.get? fs' name = some (.text raw) from hf]
      rfl
  obtain ⟨s', hs', hsource'⟩ := hgood.source
  obtain ⟨t', ht', htarget'⟩ := hgood.target
  obtain rfl := Value.text.inj ((hfield hs).symm.trans hsource')
  obtain rfl := Value.text.inj ((hfield ht).symm.trans htarget')
  refine ⟨s, t, ?_, hsource.symm, htarget.symm⟩
  have hends : ends? (.object fs') = some (s, t) := by
    rw [ends?, hs, ht]
  simp only [Links.Leads, links, List.mem_filter, List.contains_eq_mem, mem_distinct, Bool.and_eq_true,
    decide_eq_true_eq]
  exact ⟨List.mem_filterMap.2 ⟨_, hmem, hends⟩, hs', ht'⟩

theorem FromValid.ends (h : FromValid fs nodes edges vars w) :
    ∀ e ∈ w.edges, e.source ∈ w.nodeIds ∧ e.target ∈ w.nodeIds := by
  intro e he
  obtain ⟨s, t, hlead, hs, ht⟩ := h.edge he
  obtain ⟨hs', ht'⟩ := links_wellFormed nodes edges s t hlead
  rw [← h.nodeIds, ← hs, ← ht]
  exact ⟨List.mem_map_of_mem (mem_distinct.1 hs'), List.mem_map_of_mem (mem_distinct.1 ht')⟩

theorem FromValid.trigger (h : FromValid fs nodes edges vars w) : ∃ n ∈ w.nodes, n.type = .trigger := by
  obtain ⟨v, hmem, htrigger⟩ := h.good.trigger
  obtain ⟨n, hn, hv⟩ := forall₂_mem_left h.nodes_read v hmem
  refine ⟨n, hn, name_eq_trigger.1 ?_⟩
  rw [isTrigger, (Node.readFrom hv).type] at htrigger
  simpa [isMember] using htrigger

/-- Distinct ids cannot close a cycle that was not there. -/
theorem FromValid.acyclic (h : FromValid fs nodes edges vars w) (hnodup : w.nodeIds.Nodup) :
    (Graph.ofWorkflow w).Acyclic := by
  rw [← h.nodeIds] at hnodup
  have hinj : ∀ x y, x ∈ (links nodes edges).nodes → y ∈ (links nodes edges).nodes →
      Text.trim x = Text.trim y → x = y :=
    fun x y hx hy => List.inj_on_of_nodup_map hnodup (mem_distinct.1 hx) (mem_distinct.1 hy)
  have himages : ∀ a b, (Graph.ofWorkflow w).Leads a b →
      ∃ x y, (links nodes edges).Leads x y ∧ Text.trim x = a ∧ Text.trim y = b := by
    rintro a b ⟨e, he, rfl, rfl⟩
    exact h.edge (Graph.mem_edges_ofWorkflow.1 he).1
  intro id hcycle
  obtain ⟨x, y, hxy, hx, hy, hdx, hdy⟩ :=
    transGen_of_images himages (links_wellFormed nodes edges) hinj hcycle
  obtain rfl := hinj x y hdx hdy (hx.trans hy.symm)
  exact h.good.acyclic x hxy

/-- Only ids that have become the same can make the workflow invalid. -/
theorem FromValid.valid_iff (h : FromValid fs nodes edges vars w) :
    w.validate.valid = true ↔ w.nodeIds.Nodup ∧ w.edgeIds.Nodup := by
  rw [Workflow.valid_iff]
  constructor
  · rintro ⟨-, hwired⟩
    exact ⟨hwired.nodup_nodes, hwired.nodup_edges⟩
  · rintro ⟨hn, he⟩
    exact ⟨h.filled, hn, he, h.ends, h.acyclic hn, h.trigger⟩

end

/-- A workflow that was read from a valid payload is valid if and only if no two ids of nodes and no two
ids of connections are the same when trimmed. -/
theorem valid_ofValue_iff {v : Value} {w : Workflow} (hv : (validate v).valid = true)
    (hw : Workflow.ofValue v = .accepted w) :
    (w.validate.valid = true ↔ (trimmedIds v "nodes").Nodup ∧ (trimmedIds v "edges").Nodup) ∧
      (w.validate.valid = true → w.Wired) := by
  obtain ⟨fs, nodes, edges, vars, rfl, h⟩ := fromValid_of_valid hv hw
  have hnodes : trimmedIds (.object fs) "nodes" = w.nodeIds :=
    h.read.nodes.trimmedIds fun v n hn => (Node.readFrom hn).id
  have hedges : trimmedIds (.object fs) "edges" = w.edgeIds :=
    h.read.edges.trimmedIds fun v e he => (Edge.readFrom he).id
  rw [hnodes, hedges]
  exact ⟨h.valid_iff, fun hvalid => (Workflow.valid_iff.1 hvalid).2⟩

def twoTriggers (first second : String) : Value :=
  let trigger (id : String) : Value :=
    .object [("id", .text id), ("type", .text "trigger"), ("provider", .text "p"), ("operation", .text "o")]
  .object [("id", .text "w"), ("name", .text "w"), ("version", .text "1"),
    ("nodes", .list [trigger first, trigger second])]

theorem value?_eq_some {α β : Type} {x : Reading α} {f : α → β} {b : β} (h : x.value?.map f = some b) :
    ∃ a, x = .accepted a ∧ f a = b := by
  cases x with
  | accepted a => exact ⟨a, rfl, Option.some.inj h⟩
  | rejected issues => cases h

theorem valid_ofValue_twoTriggers :
    ∃ w, ((validate (twoTriggers " a" "b ")).valid = true ∧
        Workflow.ofValue (twoTriggers " a" "b ") = .accepted w) ∧ w.nodeIds = ["a", "b"] ∧ w.validate.valid = true := by
  have hv : (validate (twoTriggers " a" "b ")).valid = true := by decide +kernel
  obtain ⟨w, hw, hids⟩ : ∃ w, Workflow.ofValue (twoTriggers " a" "b ") = .accepted w ∧ w.nodeIds = ["a", "b"] :=
    value?_eq_some (by decide +kernel)
  exact ⟨w, ⟨hv, hw⟩, hids, (valid_ofValue_iff hv hw).1.2 ⟨by decide +kernel, by decide +kernel⟩⟩

/-- Two ids that differ in a blank pass the validation of the payload, but not that of the workflow. -/
theorem twoTriggers_collide :
    (validate (twoTriggers "a" " a")).valid = true ∧
      ∃ w, Workflow.ofValue (twoTriggers "a" " a") = .accepted w ∧ w.validate.valid = false := by
  refine ⟨by decide +kernel, value?_eq_some ?_⟩
  decide +kernel

end Flowgraph
