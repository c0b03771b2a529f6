import Flowgraph.Proofs.Program.Acceptance

/-! What the entry of a program performs. It calls the steps stage by stage, and a name stands for the last
function that is defined under a name of the same normal form. So each step is performed once, behind the steps
that it depends on, if and only if the names of no two steps have one normal form. As they are spelled, all
names differ. -/

namespace Flowgraph

open Text Expression
open Relation (TransGen)

namespace Program

/-! What the calls perform -/

/-- The function that a name stands for: the last one that is defined under a name of the same normal form. -/
def meaning? (normal : String → String) (defined : List String) (name : String) : Option String :=
  (defined.filter fun d => normal d = normal name).getLast?

def performed (normal : String → String) (defined : List String) (line : String) : List String :=
  (awaited line).filterMap (meaning? normal defined)

section
variable {normal : String → String} {defined : List String} {name other : String}

theorem meaning?_congr (h : normal name = normal other) :
    meaning? normal defined name = meaning? normal defined other := by
  rw [meaning?, meaning?, h]

theorem normal_of_meaning? (h : meaning? normal defined name = some other) : normal other = normal name := by
  have hmem := List.mem_of_getLast? h
  exact of_decide_eq_true (List.mem_filter.1 hmem).2

/-- A name stands for its own function where no other name has its normal form. -/
theorem meaning?_self (hname : name ∈ defined) (h : ∀ d ∈ defined, normal d = normal name → d = name) :
    meaning? normal defined name = some name := by
  have hmem : name ∈ defined.filter fun d => normal d = normal name := by simp [hname]
  rw [meaning?, List.getLast?_eq_some_getLast (List.ne_nil_of_mem hmem)]
  obtain ⟨hd, hnormal⟩ := List.mem_filter.1 (List.getLast_mem (List.ne_nil_of_mem hmem))
  rw [h _ hd (of_decide_eq_true hnormal)]

end

/-- Among the calls, line by line, the function of each node of the workflow is called once, and in a later line
than the functions of its sources. -/
structure Performs (w : Workflow) (names : Table String) (calls : List (List String)) : Prop where
  once : ∀ id ∈ w.nodeIds, calls.flatten.count (stepName names id) = 1
  behind : ∀ a b, w.Connects a b → ∀ (i j : Nat) (line line' : List String), calls[i]? = some line →
    calls[j]? = some line' → stepName names a ∈ line → stepName names b ∈ line' → i < j

section
variable {w : Workflow} {order : List String} {stages : List (List String)}

theorem staged_injective (horder : order.Nodup) (hmem : ∀ id, id ∈ order ↔ id ∈ w.nodeIds) (h : w.Staged stages) :
    (∀ id, id ∈ stages.flatten ↔ id ∈ w.nodeIds) ∧ ∀ a ∈ stages.flatten, ∀ b ∈ stages.flatten,
      stepName (identifiers order) a = stepName (identifiers order) b → a = b := by
  have hflat : ∀ id, id ∈ stages.flatten ↔ id ∈ w.nodeIds := fun id => by
    rw [h.perm.mem_iff, List.mem_dedup]
  refine ⟨hflat, fun a ha b hb => ?_⟩
  exact stepName_injective horder ((hmem a).2 ((hflat a).1 ha)) ((hmem b).2 ((hflat b).1 hb))

/-- A line that calls the function of a step is the line of its stage. -/
theorem stage_of_call (horder : order.Nodup) (hmem : ∀ id, id ∈ order ↔ id ∈ w.nodeIds) (hstages : w.Staged stages)
    {id : String} (hid : id ∈ w.nodeIds) {i : Nat} {calls : List String}
    (hcalls : ((entryLines (identifiers order) stages).map awaited)[i]? = some calls)
    (hcall : stepName (identifiers order) id ∈ calls) :
    ∃ k stage, i = k + 4 ∧ stages[k]? = some stage ∧ id ∈ stage := by
  obtain ⟨hflat, hinjective⟩ := staged_injective horder hmem hstages
  rw [map_awaited_entryLines order hstages.nonempty, List.append_assoc] at hcalls
  match i with
  | 0 | 1 | 2 | 3 =>
    obtain rfl : [] = calls := by simpa using hcalls
    cases hcall
  | k + 4 =>
    have hrest : (stages.map (List.map (stepName (identifiers order))) ++ [[]])[k]? = some calls := by
      simpa using hcalls
    rcases Nat.lt_or_ge k (stages.map (List.map (stepName (identifiers order)))).length with hlt | hge
    · rw [List.getElem?_append_left hlt, List.getElem?_map, Option.map_eq_some_iff] at hrest
      obtain ⟨stage, hk, rfl⟩ := hrest
      obtain ⟨a, ha, hsame⟩ := List.mem_map.1 hcall
      have hin : a ∈ stages.flatten := List.mem_flatten.2 ⟨stage, List.mem_of_getElem? hk, ha⟩
      obtain rfl := hinjective a hin id ((hflat id).2 hid) hsame
      exact ⟨k, stage, rfl, hk, ha⟩
    · rw [List.getElem?_append_right hge] at hrest
      rw [List.mem_singleton.1 (List.mem_of_getElem? hrest)] at hcall
      cases hcall

/-- As they are spelled, the calls perform each step once and behind its sources. -/
theorem performs_awaited (horder : order.Nodup) (hmem : ∀ id, id ∈ order ↔ id ∈ w.nodeIds) (hstages : w.Staged stages) :
    Performs w (identifiers order) ((entryLines (identifiers order) stages).map awaited) := by
  obtain ⟨hflat, hinjective⟩ := staged_injective horder hmem hstages
  constructor
  · intro id hid
    have hnodup : (stages.flatten.map (stepName (identifiers order))).Nodup :=
      (hstages.perm.nodup_iff.2 (List.nodup_dedup _)).map_on hinjective
    have hflatten : ([[], [], [], []] ++ stages.map (List.map (stepName (identifiers order))) ++ [[]]).flatten =
        stages.flatten.map (stepName (identifiers order)) := by
      simp [List.map_flatten]
    rw [map_awaited_entryLines order hstages.nonempty, hflatten]
    exact List.count_eq_one_of_mem hnodup (List.mem_map_of_mem ((hflat id).2 hid))
  · intro a b hab i j line line' hline hline' ha hb
    obtain ⟨-, -, -, hsource, htarget⟩ := id hab
    obtain ⟨k, stage, rfl, hk, ha⟩ := stage_of_call horder hmem hstages hsource hline ha
    obtain ⟨l, stage', rfl, hl, hb⟩ := stage_of_call horder hmem hstages htarget hline' hb
    have := hstages.onward k l stage stage' hk hl a ha b hb hab
    omega

/-- All names that are called are names of steps. -/
theorem mem_awaited_entryLines (hmem : ∀ id, id ∈ order ↔ id ∈ w.nodeIds) (hstages : w.Staged stages)
    {line name : String} (hline : line ∈ entryLines (identifiers order) stages) (hname : name ∈ awaited line) :
    name ∈ order.map (stepName (identifiers order)) := by
  have hcalls : awaited line ∈ (entryLines (identifiers order) stages).map awaited := List.mem_map_of_mem hline
  have hin := List.mem_flatten.2 ⟨_, hcalls, hname⟩
  rw [map_awaited_entryLines order hstages.nonempty] at hin
  have hin : name ∈ stages.flatten.map (stepName (identifiers order)) := by
    simpa [List.map_flatten] using hin
  obtain ⟨id, hid, rfl⟩ := List.mem_map.1 hin
  refine List.mem_map_of_mem ((hmem id).2 ?_)
  simpa using hstages.perm.mem_iff.1 hid

/-- What the calls stand for performs each step once and behind its sources if and only if the names of no two
steps have one normal form. -/
theorem performs_performed (normal : String → String) (horder : order.Nodup)
    (hmem : ∀ id, id ∈ order ↔ id ∈ w.nodeIds) (hstages : w.Staged stages) :
    Performs w (identifiers order) ((entryLines (identifiers order) stages).map
        (performed normal (order.map (stepName (identifiers order))))) ↔
      ∀ a ∈ w.nodeIds, ∀ b ∈ w.nodeIds,
        normal (stepName (identifiers order) a) = normal (stepName (identifiers order) b) → a = b := by
  constructor
  · intro h
    have hself : ∀ id ∈ w.nodeIds, meaning? normal (order.map (stepName (identifiers order)))
        (stepName (identifiers order) id) = some (stepName (identifiers order) id) := by
      intro id hid
      have hcalled := List.count_pos_iff.1 (Nat.lt_of_lt_of_eq Nat.zero_lt_one (h.once id hid).symm)
      obtain ⟨calls, hcalls, hcall⟩ := List.mem_flatten.1 hcalled
      obtain ⟨line, -, rfl⟩ := List.mem_map.1 hcalls
      obtain ⟨name, -, hmeaning⟩ := List.mem_filterMap.1 hcall
      rw [meaning?_congr (normal_of_meaning? hmeaning), hmeaning]
    intro a ha b hb hab
    have hsame : meaning? normal (order.map (stepName (identifiers order))) (stepName (identifiers order) a) =
        meaning? normal (order.map (stepName (identifiers order))) (stepName (identifiers order) b) :=
      meaning?_congr hab
    rw [hself a ha, hself b hb] at hsame
    exact stepName_injective horder ((hmem a).2 ha) ((hmem b).2 hb) (Option.some.inj hsame)
  · intro h
    have hself : ∀ name ∈ order.map (stepName (identifiers order)),
        meaning? normal (order.map (stepName (identifiers order))) name = some name := by
      intro name hname
      refine meaning?_self hname fun d hd hnormal => ?_
      obtain ⟨a, ha, rfl⟩ := List.mem_map.1 hname
      obtain ⟨b, hb, rfl⟩ := List.mem_map.1 hd
      rw [h b ((hmem b).1 hb) a ((hmem a).1 ha) hnormal]
    have hsame : (entryLines (identifiers order) stages).map
        (performed normal (order.map (stepName (identifiers order)))) =
        (entryLines (identifiers order) stages).map awaited := by
      refine List.map_congr_left fun line hline => ?_
      have hnames : (awaited line).filterMap (meaning? normal (order.map (stepName (identifiers order)))) =
          (awaited line).filterMap some :=
        List.filterMap_congr fun name hname => hself name (mem_awaited_entryLines hmem hstages hline hname)
      rw [performed, hnames, List.filterMap_some]
    rw [hsame]
    exact performs_awaited horder hmem hstages

end

/-! The end of a program -/

/-- What is read behind a line end does not depend on what is before it. -/
theorem splitLines_append_any (cs rest : List Char) :
    ∃ before, splitLines (unifyLines (cs ++ '\n' :: rest)) = before ++ splitLines (unifyLines rest) := by
  obtain ⟨read, hread⟩ : ∃ read, unifyLines (cs ++ '\n' :: rest) = read ++ '\n' :: unifyLines rest := by
    fun_induction unifyLines cs with
    | case1 cs ih =>
      obtain ⟨read, hread⟩ := ih
      exact ⟨'\n' :: read, by simp [unifyLines, hread]⟩
    | case2 cs hnext ih =>
      cases cs with
      | nil => exact ⟨[], by simp [unifyLines]⟩
      | cons c cs =>
        have hc : c ≠ '\n' := fun hc => hnext cs (by rw [hc])
        obtain ⟨read, hread⟩ := ih
        exact ⟨'\n' :: read, by simpa [unifyLines, hc] using hread⟩
    | case3 c cs _ hc ih =>
      have hc : c ≠ '\r' := hc
      obtain ⟨read, hread⟩ := ih
      exact ⟨c :: read, by simp [unifyLines, hc, hread]⟩
    | case4 => exact ⟨[], by simp [unifyLines]⟩
  exact ⟨splitLines read, by rw [hread, splitLines, splitLines, splitLines, List.splitOn_append_cons_self]⟩

/-- Whole lines at the end of a text are read as they are, whatever stands before them. -/
theorem splitLines_chars_append (before : List String) {rest : List String} (h : Unbroken rest) :
    ∃ read, splitLines (unifyLines (chars (before ++ rest))) = read ++ rest.map String.toList ++ [[]] := by
  induction before with
  | nil => exact ⟨[], splitLines_chars h⟩
  | cons line before ih =>
    obtain ⟨read, hread⟩ := ih
    obtain ⟨first, hfirst⟩ := splitLines_append_any line.toList (chars (before ++ rest))
    exact ⟨first ++ read, by rw [List.cons_append, chars_cons, hfirst, hread]; simp⟩

/-- The text of a program ends with the functions of the steps and the entry. -/
theorem program_ends {e : Emitter} {w : Workflow} {emission : Emission String} {code : String}
    (h : e.program w = .ok emission) (hcode : emission.form = some code) :
    ∃ order read, (Graph.ofWorkflow w).topologicalOrder = .ok order ∧
      splitLines (unifyLines code.toList) = read ++ (stepFunctions w (Graph.ofWorkflow w) order ++
        entryLines (identifiers order) ((Graph.ofWorkflow w).stagesOf order)).map String.toList ++ [[]] := by
  obtain ⟨order, lines, horder, hlines, rfl⟩ := program_eq_ok h hcode
  refine ⟨order, ?_⟩
  have hwhole : Unbroken (stepFunctions w (Graph.ofWorkflow w) order ++
      entryLines (identifiers order) ((Graph.ofWorkflow w).stagesOf order)) :=
    unbroken_append.2 ⟨unbroken_flatMap fun n _ => unbroken_stepLines w _ n (isLine_identifierOf order n.id),
      unbroken_entryLines order _⟩
  unfold Program.lines at hlines
  cases hdata : dataLines e w order with
  | error f =>
    rw [hdata] at hlines
    cases hlines
  | ok data =>
    rw [hdata] at hlines
    obtain rfl := Except.ok.inj hlines
    obtain ⟨read, hread⟩ := splitLines_chars_append _ hwhole
    refine ⟨read, horder, ?_⟩
    rw [String.toList_ofList, ← hread, ← List.append_assoc]
    rfl

/-- The stages of an acyclic workflow part its ids by depth, and its program calls the functions of the steps
stage by stage, as they are spelled each once and behind those of its sources. This performs each step once and
behind its sources if and only if the names of no two steps have one normal form. -/
theorem stages_performed {w : Workflow} (hac : ∀ id, ¬ TransGen w.Connects id id) :
    ∃ order stages, (Graph.ofWorkflow w).topologicalOrder = .ok order ∧ (Graph.ofWorkflow w).stages = .ok stages ∧
      w.Staged stages ∧
      ∀ (e : Emitter) (emission : Emission String) (code : String),
        e.program w = .ok emission → emission.form = some code →
        (∃ read, splitLines (unifyLines code.toList) = read ++ (stepFunctions w (Graph.ofWorkflow w) order ++
          entryLines (identifiers order) stages).map String.toList ++ [[]]) ∧
        Performs w (identifiers order) ((entryLines (identifiers order) stages).map awaited) ∧
        ∀ normal : String → String, Performs w (identifiers order) ((entryLines (identifiers order) stages).map
            (performed normal (definitions (stepFunctions w (Graph.ofWorkflow w) order)))) ↔
          ∀ a ∈ w.nodeIds, ∀ b ∈ w.nodeIds,
            normal (stepName (identifiers order) a) = normal (stepName (identifiers order) b) → a = b := by
  have hac' : (Graph.ofWorkflow w).Acyclic := by
    rw [Graph.Acyclic, Graph.leads_ofWorkflow_connects]
    exact hac
  obtain ⟨order, horder, horders⟩ := hac'.topologicalOrder_ok (Graph.ofWorkflow_wellFormed w)
  have hstaged := Graph.staged_stagesOf horders
  have hmem : ∀ id, id ∈ order ↔ id ∈ w.nodeIds := fun id => by
    rw [horders.mem, Graph.mem_nodeIds_ofWorkflow]
  have hstages : (Graph.ofWorkflow w).stages = .ok ((Graph.ofWorkflow w).stagesOf order) := by
    rw [Graph.stages, horder]
    rfl
  refine ⟨order, _, horder, hstages, hstaged, fun e emission code hemission hcode => ⟨?_, ?_, fun normal => ?_⟩⟩
  · obtain ⟨order', read, horder', hread⟩ := program_ends hemission hcode
    obtain rfl : order = order' := Except.ok.inj (horder.symm.trans horder')
    exact ⟨read, hread⟩
  · exact performs_awaited horders.nodup hmem hstaged
  · rw [definitions_stepFunctions w fun id hid => (horders.mem id).1 hid]
    exact performs_performed normal horders.nodup hmem hstaged

/-! Two steps whose names have one normal form -/

/-- A trigger and a step behind it. The second id is the feminine ordinal indicator, a letter. -/
def twins : Workflow where
  id := "twins"
  name := "Twins"
  version := "1"
  nodes := [{ id := "a", type := .trigger, provider := "trigger", operation := "manual" },
    { id := "ª", type := .action, provider := "core", operation := "noop" }]
  edges := [{ id := "e", source := "a", target := "ª" }]

/-- A name with the plain letter for the ordinal indicator, as in the compatibility form of Unicode. -/
def plainForm (name : String) : String :=
  String.ofList (name.toList.map fun c => if c = 'ª' then 'a' else c)

def twinsRest : List String :=
  rest (Program.lines builtinEmitter twins (Graph.ofWorkflow twins) ["a", "ª"])

theorem lines_twins : Program.lines builtinEmitter twins (Graph.ofWorkflow twins) ["a", "ª"] =
    .ok (headLine twins :: preamble ++ twinsRest) :=
  lines_eq_ok_of_isSome (by decide)

theorem order_twins : (Graph.ofWorkflow twins).topologicalOrder = .ok ["a", "ª"] := by
  rfl

theorem program_twins : ∃ emission, builtinEmitter.program twins = .ok emission ∧
    emission.form = some (String.ofList (chars (headLine twins :: preamble ++ twinsRest))) := by
  have hcallable : builtinEmitter.registry.objections (some .runtime) twins = [] := by decide
  have hnull : (twins.id.toList.any fun c => c.toNat = 0) = false := by decide
  have hid : IsLine twins.id := isLine_ofList (by decide)
  have hversion : IsLine twins.version := isLine_ofList (by decide)
  have hnodup : twins.nodeIds.Nodup := by decide
  have hids : ∀ n ∈ twins.nodes, ∀ c ∈ n.id.toList, isWord c = true → continuesIdentifier c = true :=
    List.forall_mem_cons.2 ⟨List.forall_mem_singleton.2 (by decide),
      List.forall_mem_singleton.2 (List.forall_mem_singleton.2 (by decide))⟩
  have hpolicy : ∀ n ∈ twins.nodes, Readable (Policy.resolve twins n builtinEmitter.defaultTimeout).timeout ∧
      Readable (Policy.resolve twins n builtinEmitter.defaultTimeout).retries := by
    decide
  have hinputs : ∀ n ∈ twins.nodes, (Value.object n.inputs).Legible (nestingLimit - 1) :=
    List.forall_mem_cons.2 ⟨⟨by decide, trivial⟩, List.forall_mem_singleton.2 ⟨by decide, trivial⟩⟩
  have hsound : objection? (headLine twins) (headLine twins :: preamble ++ twinsRest) = none :=
    (objection?_lines_eq_none_iff hnodup (Graph.topologicalOrder_orders order_twins) hcallable lines_twins hid
      hversion).2 ⟨⟨hasNull_eq_false.1 (by decide), hasNull_eq_false.1 (by decide)⟩, hids, ⟨by decide, trivial⟩,
        fun n hn => ⟨hinputs n hn, (hpolicy n hn).1, (hpolicy n hn).2⟩⟩
  refine ⟨{ form := some (String.ofList (chars (headLine twins :: preamble ++ twinsRest))) }, ?_, rfl⟩
  rw [program_of_lines hcallable order_twins lines_twins, hnull, hsound]
  rfl

theorem acyclic_twins (id : String) : ¬ TransGen twins.Connects id id := by
  have horders := Graph.topologicalOrder_orders order_twins
  rw [← Graph.leads_ofWorkflow_connects]
  exact horders.acyclic (Graph.ofWorkflow_wellFormed twins) id

/-- The functions of both twins are defined under names of one normal form, so that both calls are of the second,
and the first is never performed. -/
theorem twins_unperformed : ∃ emission code read, builtinEmitter.program twins = .ok emission ∧
    emission.form = some code ∧
    splitLines (unifyLines code.toList) = read ++ (stepFunctions twins (Graph.ofWorkflow twins) ["a", "ª"] ++
      entryLines (identifiers ["a", "ª"]) [["a"], ["ª"]]).map String.toList ++ [[]] ∧
    "a" ∈ twins.nodeIds ∧ stepName (identifiers ["a", "ª"]) "a" = "step_a" ∧
    ((entryLines (identifiers ["a", "ª"]) [["a"], ["ª"]]).map (performed plainForm
      (definitions (stepFunctions twins (Graph.ofWorkflow twins) ["a", "ª"])))).flatten = ["step_ª", "step_ª"] := by
  obtain ⟨emission, hemission, hcode⟩ := program_twins
  obtain ⟨order, read, horder, hread⟩ := program_ends hemission hcode
  obtain rfl : ["a", "ª"] = order := Except.ok.inj (order_twins.symm.trans horder)
  exact ⟨emission, _, read, hemission, hcode, hread, by decide, by decide +kernel, by decide +kernel⟩

/-- The calls in the program of the twins are right as they are spelled, and not by the plain forms. -/
theorem stages_performed_twins : (∀ id, ¬ TransGen twins.Connects id id) ∧
    ∃ order stages emission code, (Graph.ofWorkflow twins).stages = .ok stages ∧ twins.Staged stages ∧
      builtinEmitter.program twins = .ok emission ∧ emission.form = some code ∧
      Performs twins (identifiers order) ((entryLines (identifiers order) stages).map awaited) ∧
      ¬ Performs twins (identifiers order) ((entryLines (identifiers order) stages).map
        (performed plainForm (definitions (stepFunctions twins (Graph.ofWorkflow twins) order)))) := by
  obtain ⟨order, stages, horder, hstages, hstaged, hprogram⟩ := stages_performed acyclic_twins
  obtain rfl : ["a", "ª"] = order := Except.ok.inj (order_twins.symm.trans horder)
  obtain ⟨emission, hemission, hcode⟩ := program_twins
  obtain ⟨-, hspelled, hnormal⟩ := hprogram builtinEmitter emission _ hemission hcode
  refine ⟨acyclic_twins, _, stages, emission, _, hstages, hstaged, hemission, hcode, hspelled, fun h => ?_⟩
  have hsame : plainForm (stepName (identifiers ["a", "ª"]) "a") =
      plainForm (stepName (identifiers ["a", "ª"]) "ª") := by
    decide
  exact absurd ((hnormal plainForm).1 h "a" (by decide) "ª" (by decide) hsame) (by decide)

end Program

end Flowgraph
