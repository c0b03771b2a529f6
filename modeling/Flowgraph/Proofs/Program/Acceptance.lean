import Flowgraph.Proofs.Compile
import Flowgraph.Proofs.Graph.Stage
import Flowgraph.Proofs.Program.Composed

/-! Which programs are accepted. The program of a valid workflow with capabilities for all of its nodes is composed of
whole lines, and the only thing that can be wrong with them is their surface: a character in an identifier, a number
that is too long, a value that is too deep, or something null in the head line. -/

namespace Flowgraph

open Text Expression

namespace Program

/-! Faults of whole lines -/

theorem return_notMem_chars {lines : List String} (h : ∀ line ∈ lines, '\r' ∉ line.toList) : '\r' ∉ chars lines := by
  intro hmem
  obtain ⟨line, hline, hmem⟩ := List.mem_flatMap.1 hmem
  rcases List.mem_append.1 hmem with hmem | hmem
  · exact h line hline hmem
  · simp at hmem

theorem spill_eq_nil {head : String} (h : IsLine head) : spill head = [] := by
  have hunified : unifyLines head.toList = head.toList := unifyLines_eq_self fun hmem => (h '\r' hmem).2 rfl
  have hsplit : splitLines head.toList = [head.toList] :=
    List.splitOn_eq_singleton fun hmem => (h '\n' hmem).1 rfl
  rw [spill, hunified, hsplit]
  rfl

/-- There is no objection to lines whose head spills nothing wrong if they are read over from the first to the
last. -/
theorem objection?_eq_none_iff {head : String} {lines : List String} (hlines : '\r' ∉ chars lines)
    (hindent : indentFault? (spill head) = none) (hspill : linesFault? (spill head) = none) :
    objection? head lines = none ↔ Leads [] (chars lines) [] := by
  rw [← isSound_iff hlines]
  unfold objection? fault? isSound
  rw [hindent, hspill]
  cases (chars lines).any fun c => c.toNat = 0 <;> cases surfaceFault? (chars lines) <;> simp

/-! The nodes of a valid workflow -/

section
variable {e : Emitter} {w : Workflow} {order : List String}

theorem mem_filterMap_node? (hnodup : w.nodeIds.Nodup) (ho : (Graph.ofWorkflow w).Orders order) {n : Node} :
    n ∈ order.filterMap (Graph.ofWorkflow w).node? ↔ n ∈ w.nodes := by
  rw [List.mem_filterMap]
  constructor
  · rintro ⟨id, -, hn⟩
    exact Graph.mem_nodes_of_ofWorkflow (Graph.node?_mem hn)
  · intro hn
    have hid : n.id ∈ (Graph.ofWorkflow w).nodeIds := Graph.mem_nodeIds_ofWorkflow.2 (List.mem_map_of_mem hn)
    obtain ⟨m, hm⟩ := Graph.node?_of_mem hid
    have hmem := Graph.mem_nodes_of_ofWorkflow (Graph.node?_mem hm)
    obtain rfl : m = n := List.inj_on_of_nodup_map hnodup hmem hn (Graph.node?_some_id hm)
    exact ⟨m.id, (ho.mem _).2 hid, hm⟩

theorem find?_of_objections (h : e.registry.objections (some .runtime) w = []) {n : Node} (hn : n ∈ w.nodes) :
    ∃ c, e.registry.find? n = some c := by
  have hnone : e.registry.objection? (some .runtime) n = none := List.filterMap_eq_nil_iff.1 h n hn
  cases hfind : e.registry.find? n with
  | some c => exact ⟨c, rfl⟩
  | none =>
    rw [Registry.objection?, hfind] at hnone
    cases hnone

/-- Every function that a program calls has an identifier for its name if all ids are right. -/
theorem continues_stages_iff (ho : (Graph.ofWorkflow w).Orders order) :
    (∀ stage ∈ (Graph.ofWorkflow w).stagesOf order, ∀ id ∈ stage, Continues (identifierOf (identifiers order) id)) ↔
      ∀ n ∈ w.nodes, Continues (identifierOf (identifiers order) n.id) := by
  have hperm := (Graph.staged_stagesOf ho).perm
  have hflat : ∀ id, (∃ stage ∈ (Graph.ofWorkflow w).stagesOf order, id ∈ stage) ↔ id ∈ w.nodeIds := fun id => by
    rw [← List.mem_flatten, hperm.mem_iff, List.mem_dedup]
  constructor
  · intro h n hn
    obtain ⟨stage, hstage, hmem⟩ := (hflat n.id).2 (List.mem_map_of_mem hn)
    exact h stage hstage n.id hmem
  · intro h stage hstage id hmem
    obtain ⟨n, hn, rfl⟩ := List.mem_map.1 ((hflat id).1 ⟨stage, hstage, hmem⟩)
    exact h n hn

/-- When there is no objection to the lines of a program whose head line spills nothing wrong. -/
theorem objection?_lines_eq_none_iff_of_head {lines : List String} {p : Prop} (hnodup : w.nodeIds.Nodup)
    (ho : (Graph.ofWorkflow w).Orders order) (hcallable : e.registry.objections (some .runtime) w = [])
    (hlines : Program.lines e w (Graph.ofWorkflow w) order = .ok lines) (hhead : Passes [headLine w] p)
    (hreturn : '\r' ∉ (headLine w).toList) (hindent : indentFault? (spill (headLine w)) = none)
    (hspill : linesFault? (spill (headLine w)) = none) :
    objection? (headLine w) lines = none ↔
      p ∧ (∀ n ∈ w.nodes, ∀ c ∈ n.id.toList, isWord c = true → continuesIdentifier c = true) ∧
      (Value.object (defaultVariables w)).Legible nestingLimit ∧
      ∀ n ∈ w.nodes, Writable e w n := by
  have hnodes : ∀ n, n ∈ order.filterMap (Graph.ofWorkflow w).node? ↔ n ∈ w.nodes := fun n =>
    mem_filterMap_node? hnodup ho
  have hread := passes_lines hlines hhead (fun n hn => find?_of_objections hcallable ((hnodes n).1 hn)) [] []
  obtain ⟨rest, rfl, hrest⟩ := lines_eq_ok hlines
  have hwhole : '\r' ∉ chars (headLine w :: preamble ++ rest) :=
    return_notMem_chars (List.forall_mem_cons.2 ⟨hreturn, fun line hline hmem =>
      (unbroken_append.2 ⟨unbroken_preamble, hrest⟩ line hline '\r' hmem).2 rfl⟩)
  have hnames : (∀ n ∈ w.nodes, Continues (identifierOf (identifiers order) n.id)) ↔
      ∀ n ∈ w.nodes, ∀ c ∈ n.id.toList, isWord c = true → continuesIdentifier c = true := by
    refine forall₂_congr fun n hn => continues_identifierOf ((ho.mem _).2 ?_)
    exact Graph.mem_nodeIds_ofWorkflow.2 (List.mem_map_of_mem hn)
  rw [List.append_nil, ← objection?_eq_none_iff hwhole hindent hspill, continues_stages_iff ho] at hread
  simp only [hnodes, forall₂_and, hnames, leads_nil_iff, and_true] at hread
  refine hread.trans (and_congr_right fun _ => ?_)
  constructor
  · rintro ⟨hlegible, ⟨hids, hwritable⟩, -⟩
    exact ⟨hids, hlegible, hwritable⟩
  · rintro ⟨hids, hlegible, hwritable⟩
    exact ⟨hlegible, ⟨hids, hwritable⟩, hids, hids⟩

/-- When there is no objection to the lines of a program whose id and version are single lines. -/
theorem objection?_lines_eq_none_iff {lines : List String} (hnodup : w.nodeIds.Nodup)
    (ho : (Graph.ofWorkflow w).Orders order) (hcallable : e.registry.objections (some .runtime) w = [])
    (hlines : Program.lines e w (Graph.ofWorkflow w) order = .ok lines) (hid : IsLine w.id) (hversion : IsLine w.version) :
    objection? (headLine w) lines = none ↔
      ((∀ c ∈ w.id.toList, c.toNat ≠ 0) ∧ ∀ c ∈ w.version.toList, c.toNat ≠ 0) ∧
      (∀ n ∈ w.nodes, ∀ c ∈ n.id.toList, isWord c = true → continuesIdentifier c = true) ∧
      (Value.object (defaultVariables w)).Legible nestingLimit ∧
      ∀ n ∈ w.nodes, Writable e w n := by
  have hhead : IsLine (headLine w) := isLine_headLine.2 ⟨hid, hversion⟩
  have hspill : spill (headLine w) = [] := spill_eq_nil hhead
  have hiff := objection?_lines_eq_none_iff_of_head hnodup ho hcallable hlines (passes_headLine hid hversion)
    (fun hmem => (hhead '\r' hmem).2 rfl) (hspill ▸ rfl) (hspill ▸ rfl)
  rwa [hasNull_eq_false, hasNull_eq_false] at hiff

/-- A program whose lines are composed is accepted if there is nothing null in the id and no objection. -/
theorem accepted_of_lines {lines : List String} (hcallable : e.registry.objections (some .runtime) w = [])
    (horder : (Graph.ofWorkflow w).topologicalOrder = .ok order)
    (hlines : Program.lines e w (Graph.ofWorkflow w) order = .ok lines) :
    (∃ emission code, e.program w = .ok emission ∧ emission.form = some code) ↔
      (∀ c ∈ w.id.toList, c.toNat ≠ 0) ∧ objection? (headLine w) lines = none := by
  rw [program_of_lines hcallable horder hlines]
  have hnull : (∀ c ∈ w.id.toList, c.toNat ≠ 0) ↔ ¬ (w.id.toList.any fun c => c.toNat = 0) = true := by simp
  rw [hnull]
  split_ifs with hid
  · exact iff_of_false (fun ⟨_, _, h, _⟩ => nomatch h) fun h => h.1 hid
  · rw [and_iff_right hid]
    cases objection? (headLine w) lines with
    | none => exact iff_of_true ⟨_, _, rfl, rfl⟩ rfl
    | some objection =>
      refine iff_of_false ?_ nofun
      rintro ⟨emission, code, hemission, hcode⟩
      cases hemission
      cases hcode

end

/-- The program of a valid workflow with capabilities for all of its nodes, whose id and version are single lines, is
accepted if and only if the delays are numbers of seconds, nothing null stands in the id and in the version, every
word character of a node's id may stand in an identifier, the variables are not too deep, and the function of every
node can be written. Names, conditions and quoted texts never matter. -/
theorem program_accepted_iff {e : Emitter} {w : Workflow} (hvalid : w.validate.valid = true)
    (hcallable : e.registry.objections (some .runtime) w = []) (hid : IsLine w.id) (hversion : IsLine w.version) :
    (∃ emission code, e.program w = .ok emission ∧ emission.form = some code) ↔
      (¬ Errs e.retryBase.toFloat ∧ ¬ Errs e.retryCeiling.toFloat) ∧
      ((∀ c ∈ w.id.toList, c.toNat ≠ 0) ∧ ∀ c ∈ w.version.toList, c.toNat ≠ 0) ∧
      (∀ n ∈ w.nodes, ∀ c ∈ n.id.toList, isWord c = true → continuesIdentifier c = true) ∧
      (Value.object (defaultVariables w)).Legible nestingLimit ∧
      ∀ n ∈ w.nodes, Writable e w n := by
  obtain ⟨-, hwired⟩ := Workflow.valid_iff.1 hvalid
  obtain ⟨order, horder, ho⟩ := hwired.acyclic.topologicalOrder_ok (Graph.ofWorkflow_wellFormed w)
  cases hlines : Program.lines e w (Graph.ofWorkflow w) order with
  | error f =>
    have hdelays := lines_errs_iff.1 (hlines ▸ errs_error f)
    refine iff_of_false ?_ fun h => hdelays.elim h.1.1 h.1.2
    rintro ⟨emission, code, hemission, hcode⟩
    obtain ⟨order', lines, horder', hlines', -⟩ := program_eq_ok hemission hcode
    obtain rfl : order = order' := Except.ok.inj (horder.symm.trans horder')
    rw [hlines] at hlines'
    cases hlines'
  | ok lines =>
    have hdelays : ¬ Errs e.retryBase.toFloat ∧ ¬ Errs e.retryCeiling.toFloat := by
      have hfails : Errs (Program.lines e w (Graph.ofWorkflow w) order) ↔ _ := lines_errs_iff
      rw [← not_or, ← hfails, hlines]
      exact not_errs_ok _
    rw [accepted_of_lines hcallable horder hlines,
      objection?_lines_eq_none_iff hwired.nodup_nodes ho hcallable hlines hid hversion, and_iff_right hdelays]
    exact and_iff_right_of_imp fun h => h.1.1

/-! An id that is a superscript -/

def alone (id : String) : Workflow where
  id := "w"
  name := "w"
  version := "1"
  nodes := [{ id, type := .trigger, provider := "trigger", operation := "manual" }]

/-- The superscript is a word character, and so it is kept, but it cannot stand in an identifier. -/
theorem alone_refused : (alone "²").validate.valid = true ∧
    builtinEmitter.registry.objections (some .runtime) (alone "²") = [] ∧
    ∃ emission, builtinEmitter.program (alone "²") = .ok emission ∧ emission.form = none ∧ emission.errors ≠ [] := by
  have hvalid : (alone "²").validate.valid = true := by decide
  have hcallable : builtinEmitter.registry.objections (some .runtime) (alone "²") = [] := by decide
  have hnull : ∀ c ∈ (alone "²").id.toList, c.toNat ≠ 0 := hasNull_eq_false.1 (by decide)
  cases hprogram : builtinEmitter.program (alone "²") with
  | error f =>
    obtain ⟨-, -, hbase | hceiling | ⟨c, hc, hzero⟩⟩ := Emitter.program_errs_iff.1 (hprogram ▸ errs_error f)
    · exact absurd hbase (not_errs_ok _)
    · exact absurd hceiling (not_errs_ok _)
    · exact absurd hzero (hnull c hc)
  | ok emission =>
    refine ⟨hvalid, hcallable, emission, rfl, ?_⟩
    rcases Emitter.program_answers hprogram with hsome | hrefused
    · obtain ⟨code, hcode⟩ := Option.isSome_iff_exists.1 hsome
      obtain ⟨order, lines, horder, hlines, -⟩ := program_eq_ok hprogram hcode
      have hone : IsLine "w" ∧ IsLine "1" := ⟨isLine_ofList (by decide), isLine_ofList (by decide)⟩
      obtain ⟨-, hobjection⟩ := (accepted_of_lines hcallable horder hlines).1 ⟨emission, code, hprogram, hcode⟩
      obtain ⟨-, hids, -⟩ := (objection?_lines_eq_none_iff (by decide) (Graph.topologicalOrder_orders horder) hcallable hlines
        hone.1 hone.2).1 hobjection
      have hsuperscript : continuesIdentifier '²' = true := hids _ List.mem_cons_self '²' (by decide) (by decide)
      exact absurd hsuperscript (by decide)
    · exact hrefused

/-- The program of a trigger is accepted under an id with a letter, a hyphen and a digit, and not under a superscript. -/
theorem program_accepted_iff_alone :
    ((alone "é-1").validate.valid = true ∧ ∃ emission code, builtinEmitter.program (alone "é-1") = .ok emission ∧
      emission.form = some code) ∧
    (alone "²").validate.valid = true ∧ ¬ ∃ emission code, builtinEmitter.program (alone "²") = .ok emission ∧
      emission.form = some code := by
  have hvalid : ∀ id ∈ ["é-1", "²"], (alone id).validate.valid = true := by decide
  have hcallable : ∀ id ∈ ["é-1", "²"], builtinEmitter.registry.objections (some .runtime) (alone id) = [] := by
    decide
  have hid : IsLine "w" := isLine_ofList (by decide)
  have hversion : IsLine "1" := isLine_ofList (by decide)
  have hletter := program_accepted_iff (hvalid "é-1" (by simp)) (hcallable "é-1" (by simp)) hid hversion
  have hsuperscript := program_accepted_iff (hvalid "²" (by simp)) (hcallable "²" (by simp)) hid hversion
  refine ⟨⟨hvalid "é-1" (by simp), hletter.2 ⟨⟨not_errs_ok _, not_errs_ok _⟩, ?_, ?_, ?_, ?_⟩⟩, hvalid "²" (by simp), ?_⟩
  · exact ⟨hasNull_eq_false.1 (by decide), hasNull_eq_false.1 (by decide)⟩
  · refine List.forall_mem_singleton.2 (List.forall_mem_cons.2 ⟨by decide, List.forall_mem_cons.2 ⟨by decide, ?_⟩⟩)
    exact List.forall_mem_singleton.2 (by decide)
  · exact ⟨by decide, trivial⟩
  · exact List.forall_mem_singleton.2 ⟨⟨by decide, trivial⟩, by decide, by decide⟩
  · rw [hsuperscript]
    intro ⟨_, _, hids, _⟩
    exact absurd (hids _ List.mem_cons_self '²' (by decide) (by decide)) (by decide)

end Program

end Flowgraph
