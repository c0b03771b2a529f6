import Flowgraph.Proofs.Program.Acceptance
import Flowgraph.Proofs.Program.Entry

/-! What the text of a program defines: a function for every node and one for its step, besides the fixed ones, and
whatever the head line spills into the lines behind it. -/

namespace Flowgraph

open Text Expression

namespace Program

/-! The lines that a text is read as -/

def readLines (code : String) : List String :=
  (splitLines (unifyLines code.toList)).map String.ofList

def headLines (w : Workflow) : List String :=
  ((splitLines (unifyLines ((headLine w).toList ++ ['\n']))).dropLast).map String.ofList

theorem exists_unifyLines_append (cs : List Char) :
    ∃ read, ∀ rest, unifyLines (cs ++ '\n' :: rest) = read ++ '\n' :: unifyLines rest := by
  fun_induction unifyLines cs with
  | case1 cs ih =>
    obtain ⟨read, hread⟩ := ih
    exact ⟨'\n' :: read, fun rest => by simp [unifyLines, hread]⟩
  | case2 cs hnext ih =>
    cases cs with
    | nil => exact ⟨[], fun rest => by simp [unifyLines]⟩
    | cons c cs =>
      have hc : c ≠ '\n' := fun hc => hnext cs (by rw [hc])
      obtain ⟨read, hread⟩ := ih
      exact ⟨'\n' :: read, fun rest => by simpa [unifyLines, hc] using hread rest⟩
  | case3 c cs _ hc ih =>
    have hc : c ≠ '\r' := hc
    obtain ⟨read, hread⟩ := ih
    exact ⟨c :: read, fun rest => by simp [unifyLines, hc, hread rest]⟩
  | case4 => exact ⟨[], fun rest => by simp [unifyLines]⟩

/-- What stands before a line end is read by itself. -/
theorem splitLines_unifyLines_append (cs rest : List Char) :
    splitLines (unifyLines (cs ++ '\n' :: rest)) =
      (splitLines (unifyLines (cs ++ ['\n']))).dropLast ++ splitLines (unifyLines rest) := by
  obtain ⟨read, hread⟩ := exists_unifyLines_append cs
  have hended : unifyLines (cs ++ ['\n']) = read ++ '\n' :: [] := hread []
  rw [hread, hended, splitLines, splitLines, splitLines, List.splitOn_append_cons_self, List.splitOn_append_cons_self]
  simp

theorem readLines_chars {w : Workflow} {rest : List String} (h : Unbroken rest) :
    readLines (String.ofList (chars (headLine w :: rest))) = headLines w ++ rest ++ [""] := by
  rw [readLines, String.toList_ofList, chars_cons, splitLines_unifyLines_append, splitLines_chars h, List.map_append,
    List.map_append, List.map_map, headLines, List.append_assoc]
  simp

theorem headLines_eq {w : Workflow} (hid : IsLine w.id) (hversion : IsLine w.version) : headLines w = [headLine w] := by
  have hhead : OneLine (headLine w).toList := isLine_headLine.2 ⟨hid, hversion⟩
  rw [headLines, splitLines_append hhead]
  simp [unifyLines, splitLines]

/-! What the lines define -/

theorem definitions_append (first second : List String) :
    definitions (first ++ second) = definitions first ++ definitions second :=
  List.filterMap_append

/-- Nothing is defined in a line that does not begin as a definition does. -/
theorem defined?_eq_none {lead : String} (hlead : (lead.toList.head?.any fun c => c ≠ 'a') = true) (rest : String) :
    defined? (lead ++ rest) = none := by
  cases hcs : lead.toList with
  | nil => simp [hcs] at hlead
  | cons c cs =>
    have hc : 'a' ≠ c := by
      rintro rfl
      simp [hcs] at hlead
    have hasync : "async def ".toList = 'a' :: "sync def ".toList := rfl
    rw [defined?, String.toList_append, hcs, hasync, List.cons_append, List.isPrefixOf_cons_cons, beq_false_of_ne hc]
    rfl

section
variable {line name : String} {rest names : List String}

theorem definitions_cons_some (hline : defined? line = some name) (h : definitions rest = names) :
    definitions (line :: rest) = name :: names := by
  rw [definitions, List.filterMap_cons_some hline]
  exact congrArg (name :: ·) h

/-- For lines that are spelled out. -/
theorem definitions_cons_ofList {cs : List Char} (hcs : cs.head? ≠ some 'a') (h : definitions rest = names) :
    definitions (String.ofList cs :: rest) = names := by
  have hline : defined? (String.ofList cs) = none := by
    cases cs with
    | nil => rfl
    | cons c cs =>
      have hc : c ≠ 'a' := by simpa using hcs
      have hnone : defined? (String.ofList (c :: cs) ++ "") = none := defined?_eq_none (by simpa using hc) ""
      rwa [String.append_empty] at hnone
  rw [definitions, List.filterMap_cons_none hline]
  exact h

end

def nodeName (names : Table String) (id : String) : String :=
  "node_" ++ identifierOf names id

theorem isWord_nodeName (order : List String) (id : String) : IsWord (nodeName (identifiers order) id) :=
  isWord_append.2 ⟨by decide, isWord_identifierOf order id⟩

section
variable {e : Emitter} {w : Workflow} {g : Graph} {order lines : List String} {n : Node} {id : String}

theorem definitions_nodeLines (e : Emitter) (w : Workflow) (c : Capability) :
    definitions (nodeLines e w n c (identifierOf (identifiers order) id)) = [nodeName (identifiers order) id] := by
  have hhead : defined? ("async def node_" ++ identifierOf (identifiers order) id ++ "(state):") =
      some (nodeName (identifiers order) id) := by
    rw [← defined?_function (isWord_nodeName order id), nodeName, ← String.append_assoc]
    rfl
  have hempty : defined? "" = none := by rfl
  rw [definitions, nodeLines, List.filterMap_cons_none hempty, List.filterMap_cons_none hempty,
    List.filterMap_cons_some hhead]
  simp only [String.append_assoc]
  have hlabel : defined? ("    # " ++ (quoted n.label ++ (" via " ++ callText c))) = none :=
    defined?_eq_none (by decide) _
  have hinputs : defined? ("    inputs = state.resolve(" ++ ((Value.object n.inputs).literal ++ ")")) = none :=
    defined?_eq_none (by decide) _
  have hreturn : defined? "    return await _with_policy(" = none := by decide
  have hinvoke : defined? ("        lambda: state.invoke(" ++ (callText c ++ (", " ++ (quoted n.id ++ ", inputs),")))) =
      none :=
    defined?_eq_none (by decide) _
  have hpolicy (rest : String) : defined? ("        " ++ rest) = none := defined?_eq_none (by decide) rest
  rw [List.filterMap_cons_none hlabel, List.filterMap_cons_none hinputs, List.filterMap_cons_none hreturn,
    List.filterMap_cons_none hinvoke, List.filterMap_cons_none (hpolicy _), List.filterMap_nil]

def nodeFunctions (e : Emitter) (w : Workflow) (g : Graph) (order : List String) : List String :=
  (order.filterMap g.node?).flatMap fun n =>
    match e.registry.find? n with
    | some c => nodeLines e w n c (identifierOf (identifiers order) n.id)
    | none => []

theorem definitions_nodeFunctions (h : ∀ id ∈ order, id ∈ g.nodeIds)
    (hfind : ∀ n ∈ order.filterMap g.node?, ∃ c, e.registry.find? n = some c) :
    definitions (nodeFunctions e w g order) = order.map (nodeName (identifiers order)) := by
  have hnodes : definitions (nodeFunctions e w g order) =
      (order.filterMap g.node?).map fun n => nodeName (identifiers order) n.id := by
    rw [definitions, nodeFunctions, List.filterMap_flatMap, List.map_eq_flatMap]
    refine List.flatMap_congr fun n hn => ?_
    obtain ⟨c, hc⟩ := hfind n hn
    rw [hc]
    exact definitions_nodeLines e w c
  have hids := congrArg (List.map (nodeName (identifiers order))) (map_id_filterMap_node? h)
  rw [List.map_map] at hids
  rw [hnodes]
  exact hids

theorem defined?_delayLine {name line : String} {delay : Number} (h : delayLine name delay = .ok line)
    (hname : (name.toList.head?.any fun c => c ≠ 'a') = true) : defined? line = none := by
  unfold delayLine at h
  cases hx : delay.toFloat with
  | error f =>
    rw [hx] at h
    cases h
  | ok x =>
    rw [hx] at h
    obtain rfl := Except.ok.inj h
    dsimp only
    rw [String.append_assoc]
    exact defined?_eq_none hname _

theorem definitions_dataLines {data : List String} (h : dataLines e w order = .ok data) : definitions data = [] := by
  unfold dataLines at h
  cases hbase : delayLine "RETRY_BASE_DELAY" e.retryBase with
  | error f =>
    rw [hbase] at h
    cases h
  | ok base =>
    cases hceiling : delayLine "RETRY_MAX_DELAY" e.retryCeiling with
    | error f =>
      rw [hbase, hceiling] at h
      cases h
    | ok ceiling =>
      rw [hbase, hceiling] at h
      obtain rfl := Except.ok.inj h
      have hempty : defined? "" = none := by rfl
      have hfunctions : defined? functionsLine = none := by
        unfold functionsLine
        dsimp only
        rw [String.append_assoc]
        exact defined?_eq_none (by decide) _
      rw [definitions, List.filterMap_cons_none hempty, List.filterMap_cons_none hfunctions,
        List.filterMap_cons_none (defined?_eq_none (by decide) _),
        List.filterMap_cons_none (defined?_eq_none (by decide) _),
        List.filterMap_cons_none (defined?_eq_none (by decide) _),
        List.filterMap_cons_none (defined?_delayLine hbase (by decide)),
        List.filterMap_cons_none (defined?_delayLine hceiling (by decide)), List.filterMap_nil]

theorem definitions_entryLines (names : Table String) (stages : List (List String)) :
    definitions (entryLines names stages) = ["run"] := by
  have hstages : definitions (stages.map (stageLine names)) = [] := by
    refine List.filterMap_eq_nil_iff.2 fun line hline => ?_
    obtain ⟨stage, -, rfl⟩ := List.mem_map.1 hline
    unfold stageLine
    dsimp only
    split
    · exact defined?_eq_none (by decide) _
    · rw [String.append_assoc]
      exact defined?_eq_none (by decide) _
  have hrun : defined? "async def run(invoke, variables=None):" = some "run" := by decide
  have hfirst : definitions
      ["", "", "async def run(invoke, variables=None):", "    state = _RunState(invoke, variables)"] = ["run"] :=
    definitions_cons_ofList (by decide) (definitions_cons_ofList (by decide) (definitions_cons_some hrun
      (definitions_cons_ofList (by decide) rfl)))
  have hlast : definitions ["    return state.result()"] = [] := definitions_cons_ofList (by decide) rfl
  rw [entryLines, definitions_append, definitions_append, hstages, hfirst, hlast]
  rfl

theorem definitions_preamble : definitions preamble = ["_with_policy"] := by
  have hpolicy : defined? "async def _with_policy(call, timeout_ms, retries):" = some "_with_policy" := by
    decide
  unfold preamble
  repeat refine definitions_cons_ofList (by decide) ?_
  refine definitions_cons_some hpolicy ?_
  repeat refine definitions_cons_ofList (by decide) ?_
  rfl

def moduleNames (order : List String) : List String :=
  "_with_policy" :: (order.map (nodeName (identifiers order)) ++ order.map (stepName (identifiers order)) ++ ["run"])

/-- The composed lines, part by part. -/
theorem lines_parts (h : Program.lines e w g order = .ok lines) :
    ∃ data, dataLines e w order = .ok data ∧ lines = headLine w :: (preamble ++ data ++ nodeFunctions e w g order ++
      stepFunctions w g order ++ entryLines (identifiers order) (g.stagesOf order)) := by
  unfold Program.lines at h
  cases hdata : dataLines e w order with
  | error f =>
    rw [hdata] at h
    cases h
  | ok data =>
    rw [hdata] at h
    exact ⟨data, rfl, (Except.ok.inj h).symm⟩

/-- All steps of a workflow that has a program can be called. -/
theorem callable_of_program {emission : Emission String} {code : String} (h : e.program w = .ok emission)
    (hcode : emission.form = some code) : e.registry.objections (some .runtime) w = [] := by
  cases hcallable : e.registry.objections (some .runtime) w with
  | nil => rfl
  | cons objection rest =>
    simp only [Emitter.program, hcallable, List.isEmpty_cons, Bool.not_false, if_true] at h
    obtain rfl := Except.ok.inj h
    cases hcode

/-- The text of a program defines what its head line spills, and the functions of the module. -/
theorem definitions_program {emission : Emission String} {code : String} (h : e.program w = .ok emission)
    (hcode : emission.form = some code) :
    ∃ order, (Graph.ofWorkflow w).topologicalOrder = .ok order ∧
      definitions (readLines code) = definitions (headLines w) ++ moduleNames order := by
  have hcallable := callable_of_program h hcode
  obtain ⟨order, lines, horder, hlines, rfl⟩ := program_eq_ok h hcode
  have hmem := (Graph.topologicalOrder_orders horder).mem
  have hfind : ∀ n ∈ order.filterMap (Graph.ofWorkflow w).node?, ∃ c, e.registry.find? n = some c := fun n hn => by
    obtain ⟨id, -, hn⟩ := List.mem_filterMap.1 hn
    exact find?_of_objections hcallable (Graph.mem_nodes_of_ofWorkflow (Graph.node?_mem hn))
  obtain ⟨data, hdata, hparts⟩ := lines_parts hlines
  obtain ⟨rest, hrest, hwhole⟩ := lines_eq_ok hlines
  have hunbroken : Unbroken (preamble ++ data ++ nodeFunctions e w (Graph.ofWorkflow w) order ++
      stepFunctions w (Graph.ofWorkflow w) order ++
      entryLines (identifiers order) ((Graph.ofWorkflow w).stagesOf order)) := by
    rw [← (List.cons.inj (hrest.symm.trans hparts)).2]
    exact unbroken_append.2 ⟨unbroken_preamble, hwhole⟩
  have hlast : definitions [""] = [] := by rfl
  refine ⟨order, horder, ?_⟩
  rw [hparts, readLines_chars hunbroken]
  simp only [definitions_append, definitions_preamble, definitions_dataLines hdata,
    definitions_nodeFunctions (fun id hid => (hmem id).1 hid) hfind,
    definitions_stepFunctions w (fun id hid => (hmem id).1 hid), definitions_entryLines, hlast, moduleNames]
  simp

end

end Program

end Flowgraph
