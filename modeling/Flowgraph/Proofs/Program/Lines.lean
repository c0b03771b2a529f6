import Flowgraph.Capability.Builtin
import Flowgraph.Program
import Flowgraph.Proofs.Naming
import Flowgraph.Proofs.Table
import Flowgraph.Proofs.Text.Line
import Flowgraph.Proofs.Text.Split

/-! The lines of emitted programs. Every text of a workflow stands quoted in them, except for the id and the
version in the head line; so the lines that are composed are the lines that are read, unless one of these two
texts holds a line end. -/

namespace Flowgraph

namespace Text

theorem isWord_oneLine {c : Char} (h : isWord c = true) : c ≠ '\n' ∧ c ≠ '\r' := by
  constructor
  · rintro rfl
    revert h
    decide
  · rintro rfl
    revert h
    decide

end Text

open Text Expression

namespace Program

/-! Identifiers -/

theorem isLine_identifierBase (id : String) : IsLine (identifierBase id) := by
  have hword : ∀ c, wordChar c ≠ '\n' ∧ wordChar c ≠ '\r' := by
    intro c
    unfold wordChar
    split_ifs with hc
    · exact isWord_oneLine hc
    · decide
  have hmap : OneLine (id.toList.map wordChar) := by
    intro c hc
    obtain ⟨d, -, rfl⟩ := List.mem_map.1 hc
    exact hword d
  unfold identifierBase
  split
  · exact isLine_ofList (by decide)
  · next c rest heq =>
    rw [heq] at hmap
    refine isLine_ofList ?_
    split_ifs
    · exact oneLine_cons.2 ⟨by decide, hmap⟩
    · exact hmap

theorem isLine_identifierSpelling (id : String) (k : Nat) : IsLine (identifierSpelling id k) := by
  unfold identifierSpelling
  split_ifs
  · exact isLine_identifierBase id
  · have hbase : IsLine (identifierBase id ++ "_") :=
      isLine_append.2 ⟨isLine_identifierBase id, isLine_ofList (by decide)⟩
    exact isLine_append.2 ⟨hbase, isLine_toString_nat (k + 1)⟩

theorem isLine_identifierOf (order : List String) (id : String) : IsLine (identifierOf (identifiers order) id) := by
  unfold identifierOf Table.getD
  cases hid : Table.get? (identifiers order) id with
  | none => exact isLine_ofList (by decide)
  | some name =>
    have hname : name ∈ freshNames identifierSpelling order [] := (List.of_mem_zip (Table.mem_of_get? hid)).2
    obtain ⟨a, k, rfl⟩ := eq_spelling_of_mem_freshNames hname
    exact isLine_identifierSpelling a k

/-! The parts of a program -/

/-- No line of the list is broken. -/
def Unbroken (lines : List String) : Prop :=
  ∀ line ∈ lines, IsLine line

@[simp] theorem unbroken_nil : Unbroken [] := fun _ h => nomatch h

@[simp] theorem unbroken_cons {line : String} {rest : List String} :
    Unbroken (line :: rest) ↔ IsLine line ∧ Unbroken rest :=
  List.forall_mem_cons

@[simp] theorem unbroken_append {first second : List String} :
    Unbroken (first ++ second) ↔ Unbroken first ∧ Unbroken second :=
  List.forall_mem_append

theorem unbroken_flatMap {α : Type} {as : List α} {f : α → List String} (h : ∀ a ∈ as, Unbroken (f a)) :
    Unbroken (as.flatMap f) := by
  intro line hline
  obtain ⟨a, ha, hline⟩ := List.mem_flatMap.1 hline
  exact h a ha line hline

theorem unbroken_map {α : Type} {as : List α} {f : α → String} (h : ∀ a ∈ as, IsLine (f a)) :
    Unbroken (as.map f) :=
  List.forall_mem_map.2 h

theorem unbroken_cons_ofList {cs : List Char} {rest : List String} (h : OneLine cs) (hrest : Unbroken rest) :
    Unbroken (String.ofList cs :: rest) :=
  unbroken_cons.2 ⟨isLine_ofList h, hrest⟩

theorem unbroken_preamble : Unbroken preamble := by
  unfold preamble
  repeat refine unbroken_cons_ofList (by decide +kernel) ?_
  exact unbroken_nil

/-- The head line is broken by the texts that stand in it as they are. -/
theorem isLine_headLine {w : Workflow} : IsLine (headLine w) ↔ IsLine w.id ∧ IsLine w.version := by
  unfold headLine
  simp only [isLine_append, isLine_quoted]
  constructor
  · rintro ⟨⟨⟨-, hid⟩, -⟩, hversion⟩
    exact ⟨hid, hversion⟩
  · rintro ⟨hid, hversion⟩
    exact ⟨⟨⟨⟨⟨isLine_ofList (by decide), trivial⟩, isLine_ofList (by decide)⟩, hid⟩, isLine_ofList (by decide)⟩,
      hversion⟩

theorem head?_headLine (w : Workflow) : (headLine w).toList.head? = some '#' := by
  have hlead : "# Generated by autoflow from workflow ".toList.head? = some '#' := by decide
  unfold headLine
  simp only [String.toList_append, List.head?_append, hlead, Option.some_or]

theorem isLine_functionsLine : IsLine functionsLine := by
  have hentry : ∀ name ∈ functionNames, IsLine (quoted name ++ ": " ++ name) := by
    have hname : Unbroken functionNames := by
      unfold functionNames
      repeat refine unbroken_cons_ofList (by decide) ?_
      exact unbroken_nil
    intro name hmem
    exact isLine_append.2 ⟨isLine_append.2 ⟨isLine_quoted name, isLine_ofList (by decide)⟩, hname name hmem⟩
  refine isLine_append.2 ⟨isLine_append.2 ⟨isLine_ofList (by decide), ?_⟩, isLine_ofList (by decide)⟩
  exact isLine_intercalate (isLine_ofList (by decide)) (unbroken_map hentry)

theorem isLine_delayLine {name line : String} {delay : Number} (hname : IsLine name)
    (h : delayLine name delay = .ok line) : IsLine line := by
  unfold delayLine at h
  cases hx : delay.toFloat with
  | error f =>
    rw [hx] at h
    cases h
  | ok x =>
    rw [hx] at h
    obtain rfl := Except.ok.inj h
    exact isLine_append.2 ⟨isLine_append.2 ⟨hname, isLine_ofList (by decide)⟩, Decimal.isLine_render x⟩

theorem unbroken_dataLines {e : Emitter} {w : Workflow} {order lines : List String}
    (h : dataLines e w order = .ok lines) : Unbroken lines := by
  unfold dataLines at h
  cases hbase : delayLine "RETRY_BASE_DELAY" e.retryBase with
  | error f =>
    rw [hbase] at h
    cases h
  | ok base =>
    cases hceiling : delayLine "RETRY_MAX_DELAY" e.retryCeiling with
    | error f =>
      rw [hbase, hceiling] at h
      cases h
    | ok ceiling =>
      rw [hbase, hceiling] at h
      obtain rfl := Except.ok.inj h
      simp only [unbroken_cons, unbroken_nil, isLine_append, isLine_quoted, Value.isLine_literal, and_true]
      refine ⟨isLine_ofList (by decide), isLine_functionsLine, isLine_ofList (by decide), isLine_ofList (by decide),
        isLine_ofList (by decide), ?_, ?_⟩
      · exact isLine_delayLine (isLine_ofList (by decide)) hbase
      · exact isLine_delayLine (isLine_ofList (by decide)) hceiling

theorem unbroken_nodeLines (e : Emitter) (w : Workflow) (n : Node) (c : Capability) {identifier : String}
    (hid : IsLine identifier) : Unbroken (nodeLines e w n c identifier) := by
  unfold nodeLines callText
  simp only [unbroken_cons, unbroken_nil, isLine_append, isLine_quoted,
    Value.isLine_literal, isLine_toString_int, isLine_toString_nat, hid, and_true]
  and_intros
  all_goals exact isLine_ofList (by decide)

theorem isLine_test (t : Test) : IsLine t.text := by
  unfold Test.text
  cases t <;> simp only [isLine_append, isLine_quoted, and_true] <;> and_intros
  all_goals exact isLine_ofList (by decide)

@[simp] theorem isLine_indent {depth : Nat} {line : String} : IsLine (indent depth line) ↔ IsLine line := by
  rw [indent, isLine_append]
  exact and_iff_right (isLine_ofList (oneLine_replicate _ (by decide)))

mutual

def Statement.CallsLine : Statement → Prop
  | .ifHolds _ body => CallLines body
  | .call identifier _ _ => IsLine identifier
  | _ => True

def CallLines : List Statement → Prop
  | [] => True
  | s :: rest => s.CallsLine ∧ CallLines rest

end

mutual

theorem Statement.unbroken_lines (depth : Nat) : ∀ {s : Statement}, s.CallsLine → Unbroken (s.lines depth)
  | .ifHolds test body, h => by
    rw [Statement.CallsLine] at h
    simp only [Statement.lines, unbroken_cons, isLine_indent, isLine_append, isLine_test test, and_true]
    exact ⟨⟨isLine_ofList (by decide), isLine_ofList (by decide)⟩, unbroken_linesOf (depth + 1) h⟩
  | .setSatisfied value, _ => by
    simp only [Statement.lines, unbroken_cons, unbroken_nil, isLine_indent, isLine_append, isLine_boolText, and_true]
    exact isLine_ofList (by decide)
  | .skip id, _ => by
    simp only [Statement.lines, unbroken_cons, unbroken_nil, isLine_indent, isLine_append, isLine_quoted, and_true]
    exact ⟨isLine_ofList (by decide), isLine_ofList (by decide)⟩
  | .leave, _ => by
    simp only [Statement.lines, unbroken_cons, unbroken_nil, isLine_indent, and_true]
    exact isLine_ofList (by decide)
  | .call identifier id contained, h => by
    rw [Statement.CallsLine] at h
    simp only [Statement.lines, unbroken_cons, unbroken_nil, isLine_indent, isLine_append, isLine_quoted,
      isLine_boolText, h, and_true]
    and_intros
    all_goals exact isLine_ofList (by decide)

theorem unbroken_linesOf (depth : Nat) : ∀ {ss : List Statement}, CallLines ss → Unbroken (linesOf depth ss)
  | [], h => by
    rw [linesOf]
    exact unbroken_nil
  | s :: rest, h => by
    rw [CallLines] at h
    rw [linesOf, unbroken_append]
    exact ⟨s.unbroken_lines depth h.1, unbroken_linesOf depth h.2⟩

end

@[simp] theorem callLines_append {first second : List Statement} :
    CallLines (first ++ second) ↔ CallLines first ∧ CallLines second := by
  induction first with
  | nil => simp [CallLines]
  | cons s rest ih => simp [CallLines, ih, and_assoc]

theorem callsLine_edgeStatement (id : String) (e : Edge) : (edgeStatement id e).CallsLine := by
  unfold edgeStatement
  split_ifs
  · simp [Statement.CallsLine, CallLines]
  · split <;> simp [Statement.CallsLine, CallLines, skipAndLeave]

theorem callLines_pathStatements (id : String) (incoming : List Edge) : CallLines (pathStatements id incoming) := by
  have hedges : CallLines (incoming.map (edgeStatement id)) := by
    induction incoming with
    | nil => simp [CallLines]
    | cons e rest ih =>
      rw [List.map_cons, CallLines]
      exact ⟨callsLine_edgeStatement id e, ih⟩
  unfold pathStatements
  split_ifs
  · simp [CallLines]
  · simp [CallLines, Statement.CallsLine, skipAndLeave, hedges]

theorem callLines_stepStatements (w : Workflow) (g : Graph) (n : Node) {identifier : String} (hid : IsLine identifier) :
    CallLines (stepStatements w g n identifier) := by
  have hguard : CallLines (guardStatements n) := by
    unfold guardStatements
    split <;> simp [CallLines, Statement.CallsLine, skipAndLeave]
  simp [stepStatements, CallLines, Statement.CallsLine, skipAndLeave, callLines_pathStatements, hguard, hid]

theorem unbroken_stepLines (w : Workflow) (g : Graph) (n : Node) {identifier : String} (hid : IsLine identifier) :
    Unbroken (stepLines w g n identifier) := by
  have hbody := unbroken_linesOf 1 (callLines_stepStatements w g n hid)
  unfold stepLines
  simp only [unbroken_cons, isLine_append, hid, hbody, and_true]
  and_intros
  all_goals exact isLine_ofList (by decide)

theorem isLine_stageLine (order stage : List String) : IsLine (stageLine (identifiers order) stage) := by
  have hcalls : ∀ call ∈ stage.map fun id => "step_" ++ identifierOf (identifiers order) id ++ "(state)",
      IsLine call := by
    refine unbroken_map fun id _ => ?_
    simp only [isLine_append, isLine_identifierOf, and_true]
    exact ⟨isLine_ofList (by decide), isLine_ofList (by decide)⟩
  unfold stageLine
  generalize stage.map _ = calls at hcalls
  dsimp only
  split
  · next call => exact isLine_append.2 ⟨isLine_ofList (by decide), hcalls call List.mem_cons_self⟩
  · have hall : IsLine (", ".intercalate calls) := isLine_intercalate (isLine_ofList (by decide)) hcalls
    simp only [isLine_append, hall, and_true]
    exact ⟨isLine_ofList (by decide), isLine_ofList (by decide)⟩

theorem unbroken_entryLines (order : List String) (stages : List (List String)) :
    Unbroken (entryLines (identifiers order) stages) := by
  unfold entryLines
  simp only [unbroken_append, unbroken_cons, unbroken_nil, and_true]
  refine ⟨⟨?_, unbroken_map fun stage _ => isLine_stageLine order stage⟩, isLine_ofList (by decide)⟩
  and_intros
  all_goals exact isLine_ofList (by decide)

/-- All lines are whole but for the head line. -/
theorem lines_eq_ok {e : Emitter} {w : Workflow} {g : Graph} {order lines : List String}
    (h : Program.lines e w g order = .ok lines) :
    ∃ rest, lines = headLine w :: preamble ++ rest ∧ Unbroken rest := by
  unfold Program.lines at h
  cases hdata : dataLines e w order with
  | error f =>
    rw [hdata] at h
    cases h
  | ok data =>
    rw [hdata] at h
    obtain rfl := Except.ok.inj h
    refine ⟨_, by rw [List.append_assoc, List.append_assoc, List.append_assoc], ?_⟩
    simp only [unbroken_append]
    refine ⟨unbroken_dataLines hdata, unbroken_flatMap fun n _ => ?_, unbroken_flatMap fun n _ => ?_,
      unbroken_entryLines order _⟩
    · cases e.registry.find? n with
      | none => exact unbroken_nil
      | some c => exact unbroken_nodeLines e w n c (isLine_identifierOf order n.id)
    · exact unbroken_stepLines w g n (isLine_identifierOf order n.id)

/-! Reading lines -/

theorem unifyLines_append {cs : List Char} (h : OneLine cs) (rest : List Char) :
    unifyLines (cs ++ '\n' :: rest) = cs ++ '\n' :: unifyLines rest := by
  induction cs with
  | nil => simp [unifyLines]
  | cons c cs ih =>
    obtain ⟨⟨hnewline, hreturn⟩, hcs⟩ := oneLine_cons.1 h
    rw [List.cons_append, List.cons_append, ← ih hcs]
    simp [unifyLines, hreturn]

/-- A whole line that is ended is read first. -/
theorem splitLines_append {cs : List Char} (h : OneLine cs) (rest : List Char) :
    splitLines (unifyLines (cs ++ '\n' :: rest)) = cs :: splitLines (unifyLines rest) := by
  rw [unifyLines_append h, splitLines, List.splitOn_append_cons_self_of_not_mem fun hmem => (h _ hmem).1 rfl]
  rfl

theorem chars_cons (line : String) (rest : List String) : chars (line :: rest) = line.toList ++ '\n' :: chars rest := by
  simp [chars]

/-- Whole lines, each of which is ended, are read as they are, and an empty rest behind them. -/
theorem splitLines_chars {lines : List String} (h : Unbroken lines) :
    splitLines (unifyLines (chars lines)) = lines.map String.toList ++ [[]] := by
  induction lines with
  | nil => simp [chars, unifyLines, splitLines]
  | cons line rest ih =>
    obtain ⟨hline, hrest⟩ := unbroken_cons.1 h
    rw [chars_cons, splitLines_append hline, ih hrest]
    rfl

theorem return_not_mem_unifyLines (cs : List Char) : '\r' ∉ unifyLines cs := by
  fun_induction unifyLines cs with
  | case1 rest ih => simp [ih]
  | case2 rest _ ih => simp [ih]
  | case3 c rest _ hc ih =>
    rw [List.mem_cons, not_or]
    exact ⟨fun h => hc h.symm, ih⟩
  | case4 => simp

/-- What is read between line ends is whole. -/
theorem oneLine_of_mem_splitLines {cs line : List Char} (h : line ∈ splitLines (unifyLines cs)) : OneLine line := by
  intro c hc
  obtain ⟨hmem, hne⟩ := mem_of_mem_splitOn h c hc
  refine ⟨hne, ?_⟩
  rintro rfl
  exact return_not_mem_unifyLines cs hmem

/-- A workflow whose lines are composed is emitted as their text, if there is no objection to it. -/
theorem program_of_lines {e : Emitter} {w : Workflow} {order lines : List String}
    (hcallable : e.registry.objections (some .runtime) w = [])
    (horder : (Graph.ofWorkflow w).topologicalOrder = .ok order)
    (hlines : Program.lines e w (Graph.ofWorkflow w) order = .ok lines) :
    e.program w =
      if w.id.toList.any fun c => c.toNat = 0 then Failure.badValue "embedded null character"
      else
        match objection? (headLine w) lines with
        | some objection => .ok (Emission.refused [invalidMessage w objection])
        | none => .ok { form := some (String.ofList (chars lines)) } := by
  unfold Emitter.program
  simp only [hcallable, horder, hlines]
  rfl

theorem program_eq_ok {e : Emitter} {w : Workflow} {emission : Emission String} {code : String}
    (h : e.program w = .ok emission) (hcode : emission.form = some code) :
    ∃ order lines, (Graph.ofWorkflow w).topologicalOrder = .ok order ∧
      Program.lines e w (Graph.ofWorkflow w) order = .ok lines ∧ code = String.ofList (chars lines) := by
  cases hcallable : e.registry.objections (some .runtime) w with
  | cons objection rest =>
    simp only [Emitter.program, hcallable, List.isEmpty_cons, Bool.not_false, if_true] at h
    obtain rfl := Except.ok.inj h
    cases hcode
  | nil =>
    cases horder : (Graph.ofWorkflow w).topologicalOrder with
    | error blocked =>
      simp only [Emitter.program, hcallable, horder] at h
      obtain rfl := Except.ok.inj h
      cases hcode
    | ok order =>
      cases hlines : Program.lines e w (Graph.ofWorkflow w) order with
      | error f =>
        simp only [Emitter.program, hcallable, horder, hlines] at h
        cases h
      | ok lines =>
        refine ⟨order, lines, rfl, hlines, ?_⟩
        rw [program_of_lines hcallable horder hlines] at h
        split_ifs at h
        · cases h
        · cases hobjection : objection? (headLine w) lines with
          | some objection =>
            rw [hobjection] at h
            obtain rfl := Except.ok.inj h
            cases hcode
          | none =>
            rw [hobjection] at h
            obtain rfl := Except.ok.inj h
            exact (Option.some.inj hcode).symm

def rest (composed : Except Failure (List String)) : List String :=
  (composed.toOption.getD []).drop (1 + preamble.length)

theorem lines_eq_ok_of_isSome {e : Emitter} {w : Workflow} {g : Graph} {order : List String}
    (hok : (Program.lines e w g order).toOption.isSome = true) :
    Program.lines e w g order = .ok (headLine w :: preamble ++ rest (Program.lines e w g order)) := by
  cases h : Program.lines e w g order with
  | error f =>
    rw [h] at hok
    cases hok
  | ok lines =>
    obtain ⟨behind, rfl, -⟩ := lines_eq_ok h
    have hrest : rest (.ok (headLine w :: preamble ++ behind)) = behind := by
      change (headLine w :: preamble ++ behind).drop (1 + preamble.length) = behind
      rw [Nat.add_comm, List.cons_append, List.drop_succ_cons, List.drop_left]
    rw [hrest]

def builtinEmitter : Emitter :=
  { registry := Builtin.registry }

end Program

end Flowgraph
