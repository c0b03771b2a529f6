import Flowgraph.Proofs.Program.Definitions

/-! The names in a program. Every step gets an identifier of its own, which is a word without a digit in front. Of the
two functions that are defined for each step, the one is called in the lines of the other, and that one in the entry.
A name stands for its own function if and only if no other function has a name of the same normal form. -/

namespace Flowgraph

open Text Expression

namespace Program

/-! Identifiers -/

def StartsWithoutDigit (s : String) : Prop :=
  ∃ c rest, s.toList = c :: rest ∧ isDigit c = false

theorem startsWithoutDigit_identifierBase (id : String) : StartsWithoutDigit (identifierBase id) := by
  unfold identifierBase
  split
  · exact ⟨'n', ['o', 'd', 'e'], rfl, by decide⟩
  · next c rest _ =>
    rw [StartsWithoutDigit, String.toList_ofList]
    split_ifs with hc
    · exact ⟨'n', c :: rest, rfl, by decide⟩
    · exact ⟨c, rest, rfl, Bool.eq_false_iff.2 hc⟩

theorem startsWithoutDigit_identifierSpelling (id : String) (k : Nat) :
    StartsWithoutDigit (identifierSpelling id k) := by
  obtain ⟨c, rest, hcs, hc⟩ := startsWithoutDigit_identifierBase id
  unfold identifierSpelling
  split_ifs
  · exact ⟨c, rest, hcs, hc⟩
  · rw [StartsWithoutDigit, String.toList_append, String.toList_append, hcs]
    exact ⟨c, _, rfl, hc⟩

/-- The identifiers of steps, each as it is found. -/
theorem map_identifierOf {order : List String} (horder : order.Nodup) :
    order.map (identifierOf (identifiers order)) = freshNames identifierSpelling order [] :=
  map_getD_zip horder (length_freshNames order [])

theorem startsWithoutDigit_identifierOf {order : List String} (horder : order.Nodup) {id : String} (hid : id ∈ order) :
    StartsWithoutDigit (identifierOf (identifiers order) id) := by
  have hmem : identifierOf (identifiers order) id ∈ freshNames identifierSpelling order [] := by
    rw [← map_identifierOf horder]
    exact List.mem_map_of_mem hid
  obtain ⟨a, k, heq⟩ := eq_spelling_of_mem_freshNames hmem
  rw [heq]
  exact startsWithoutDigit_identifierSpelling a k

/-- The search for the identifier of a step ends at the first spelling that no step before it has got. -/
theorem identifierOf_endsAt {before after : List String} {id : String} (horder : (before ++ id :: after).Nodup) :
    ∃ k ≤ before.length,
      EndsAt (before.map (identifierOf (identifiers (before ++ id :: after)))) (identifierSpelling id) k ∧
      identifierOf (identifiers (before ++ id :: after)) id = identifierSpelling id k := by
  have hall := map_identifierOf horder
  rw [freshNames_append, List.map_append, List.map_cons, freshNames] at hall
  obtain ⟨hbefore, hrest⟩ := List.append_inj hall (by rw [List.length_map, length_freshNames])
  obtain ⟨k, hk, hends, hname⟩ :=
    @freshName_endsAt _ ([] ++ freshNames identifierSpelling before []) (identifierSpelling_injective id)
  rw [List.nil_append] at hk hends
  refine ⟨k, by simpa [length_freshNames] using hk, by rwa [hbefore], ?_⟩
  rw [(List.cons.inj hrest).1, hname]

/-! What the lines of a step call -/

/-- A line read so far, with the quote that the text under way is enclosed in. Only what stands outside of texts is
scanned. -/
structure LineScan where
  scan : Scan := {}
  quote : Option Char := none
  escaped : Bool := false
  deriving DecidableEq

def LineScan.read (s : LineScan) (c : Char) : LineScan :=
  match s.quote with
  | some q =>
    if s.escaped then { s with escaped := false }
    else if c = '\\' then { s with escaped := true }
    else if c = q then { s with quote := none }
    else s
  | none => { s with scan := s.scan.read c, quote := if c = '"' ∨ c = '\'' then some c else none }

def calls (line : String) : List String :=
  (line.toList.foldl LineScan.read {}).scan.called

def isBody (line : String) : Bool :=
  (defined? line).isNone

def called (lines : List String) : List String :=
  (lines.filter isBody).flatMap calls

/-- A piece of a line that calls nothing and leaves nothing under way. -/
def Mute (piece : String) : Prop :=
  piece.toList.foldl LineScan.read {} = {}

instance (piece : String) : Decidable (Mute piece) :=
  inferInstanceAs (Decidable (_ = _))

theorem calls_append {piece : String} (h : Mute piece) (rest : String) : calls (piece ++ rest) = calls rest := by
  rw [calls, calls, String.toList_append, List.foldl_append, h]

theorem calls_of_mute {piece : String} (h : Mute piece) : calls piece = [] := by
  rw [calls, h]

theorem Mute.append {piece rest : String} (h : Mute piece) (hrest : Mute rest) : Mute (piece ++ rest) := by
  rw [Mute, String.toList_append, List.foldl_append, h, hrest]

theorem mute_indent (depth : Nat) {line : String} (h : Mute line) : Mute (indent depth line) := by
  refine Mute.append ?_ h
  rw [Mute, String.toList_ofList]
  induction 4 * depth with
  | zero => rfl
  | succ n ih => exact ih

theorem calls_indent (depth : Nat) (line : String) : calls (indent depth line) = calls line := by
  have hblank : Mute "" := rfl
  have hindent := mute_indent depth hblank
  rw [indent, String.append_empty] at hindent
  exact calls_append hindent line

/-- Outside of texts a line is scanned. -/
theorem read_plain {cs : List Char} (h : ∀ c ∈ cs, c ≠ '"' ∧ c ≠ '\'') (scan : Scan) :
    cs.foldl LineScan.read { scan } = { scan := cs.foldl Scan.read scan } := by
  induction cs generalizing scan with
  | nil => rfl
  | cons c rest ih =>
    obtain ⟨hc, hrest⟩ := List.forall_mem_cons.1 h
    rw [List.foldl_cons, List.foldl_cons, ← ih hrest]
    simp [LineScan.read, hc]

/-- Whatever stands in a text, its escaped form does not end it. -/
theorem read_escapeChar {q : Char} (hq : q = '\'' ∨ q = '"') (scan : Scan) (c : Char) :
    (escapeChar q c).foldl LineScan.read { scan, quote := some q } = { scan, quote := some q } := by
  have hslash : ∀ d, LineScan.read (LineScan.read { scan, quote := some q } '\\') d = { scan, quote := some q } := by
    intro d
    simp [LineScan.read]
  have hdigits : ∀ cs : List Char, (∀ d ∈ cs, d ≠ '\\' ∧ d ≠ q) →
      cs.foldl LineScan.read { scan, quote := some q } = { scan, quote := some q } := by
    intro cs hcs
    induction cs with
    | nil => rfl
    | cons d rest ih =>
      obtain ⟨hd, hrest⟩ := List.forall_mem_cons.1 hcs
      rw [List.foldl_cons]
      simpa [LineScan.read, hd] using ih hrest
  have hhex : ∀ width n, ∀ d ∈ hex width n, d ≠ '\\' ∧ d ≠ q := by
    have hall : ∀ d < 16, d.digitChar ≠ '\\' ∧ d.digitChar ≠ '\'' ∧ d.digitChar ≠ '"' := by decide
    have hzero : '0' ≠ '\\' ∧ '0' ≠ '\'' ∧ '0' ≠ '"' := by decide
    have hone : ∀ d : Char, d ≠ '\\' ∧ d ≠ '\'' ∧ d ≠ '"' → d ≠ '\\' ∧ d ≠ q := by
      rintro d ⟨hs, ha, hb⟩
      refine ⟨hs, ?_⟩
      rcases hq with rfl | rfl
      · exact ha
      · exact hb
    intro width n d hd
    rcases List.mem_append.1 hd with hd | hd
    · rw [List.eq_of_mem_replicate hd]
      exact hone _ hzero
    · obtain ⟨k, hk, rfl⟩ := mem_toDigits (by decide) hd
      exact hone _ (hall k hk)
  unfold escapeChar
  split_ifs with hspecial
  · exact hslash c
  · exact hslash 'n'
  · exact hslash 'r'
  · exact hslash 't'
  · have hplain : c ≠ q ∧ c ≠ '\\' := by simpa using hspecial
    exact hdigits [c] (List.forall_mem_singleton.2 ⟨hplain.2, hplain.1⟩)
  all_goals
    rw [List.foldl_append]
    simp only [List.foldl_cons, List.foldl_nil, hslash]
    exact hdigits _ (hhex _ _)

/-- A quoted text calls nothing, whatever it is. -/
theorem mute_quoted (s : String) : Mute (quoted s) := by
  have hquote := chooseQuote_cases s.toList
  have hbody : ∀ cs : List Char, (cs.flatMap (escapeChar (chooseQuote s.toList))).foldl LineScan.read
      { quote := some (chooseQuote s.toList) } = { quote := some (chooseQuote s.toList) } := by
    intro cs
    induction cs with
    | nil => rfl
    | cons c rest ih => rw [List.flatMap_cons, List.foldl_append, read_escapeChar hquote, ih]
  have hopen : LineScan.read {} (chooseQuote s.toList) = { quote := some (chooseQuote s.toList) } := by
    rcases hquote with h | h <;> rw [h] <;> decide
  have hclose : LineScan.read { quote := some (chooseQuote s.toList) } (chooseQuote s.toList) = {} := by
    rcases hquote with h | h <;> rw [h] <;> decide
  rw [Mute, quoted, String.toList_ofList, quotedChars, List.cons_append, List.foldl_cons, hopen, List.foldl_append,
    hbody, List.foldl_cons, hclose, List.foldl_nil]

theorem calls_node {name : String} (h : IsWord name) (hne : name ≠ "") : calls (name ++ "(state))") = [name] := by
  have hplain : ∀ c ∈ (name ++ "(state))").toList, c ≠ '"' ∧ c ≠ '\'' := by
    have hword : ∀ c, isWord c = true → c ≠ '"' ∧ c ≠ '\'' := by
      intro c hc
      constructor <;> rintro rfl <;> revert hc <;> decide
    rw [String.toList_append]
    exact List.forall_mem_append.2 ⟨fun c hc => hword c (h c hc), by simp⟩
  have hsplit : name ++ "(state))" = name ++ "(state)" ++ ")" := by
    rw [String.append_assoc]
    rfl
  rw [calls, read_plain hplain, hsplit, String.toList_append, List.foldl_append, Scan.read_call h hne []]
  simp [Scan.read_close]

mutual

def Statement.callees : Statement → List String
  | .ifHolds _ body => calleesOf body
  | .call identifier _ _ => ["node_" ++ identifier]
  | _ => []

def calleesOf : List Statement → List String
  | [] => []
  | s :: rest => s.callees ++ calleesOf rest

end

theorem mute_test (t : Test) : Mute ("if " ++ t.text ++ ":") := by
  have harg : ∀ (lead s : String), Mute lead → Mute (lead ++ quoted s ++ ")") := fun lead s hlead =>
    (hlead.append (mute_quoted s)).append (by decide)
  have hif : ∀ text, Mute (text ++ ":") → Mute ("if " ++ text ++ ":") := fun text htext => by
    rw [String.append_assoc]
    exact Mute.append (by decide) htext
  refine hif _ ?_
  cases t with
  | aborted => decide
  | succeeded id => exact (harg "state.succeeded(" id (by decide)).append (by decide)
  | failed id => exact (harg "state.failed(" id (by decide)).append (by decide)
  | refuted expression => exact (harg "not state.check(" expression (by decide)).append (by decide)
  | unsatisfied => decide

mutual

theorem Statement.calls_lines (depth : Nat) : ∀ s : Statement, (∀ name ∈ s.callees, IsWord name) →
    (s.lines depth).flatMap calls = s.callees
  | .ifHolds test body, h => by
    rw [Statement.callees] at h ⊢
    rw [Statement.lines, List.flatMap_cons, calls_of_mute (mute_indent depth (mute_test test)), List.nil_append]
    exact calls_linesOf (depth + 1) body h
  | .setSatisfied value, _ => by
    have hline : calls ("satisfied = " ++ boolText value) = [] := by cases value <;> decide
    simp [Statement.lines, Statement.callees, calls_indent, hline]
  | .skip id, _ => by
    have hline : Mute ("state.skip(" ++ quoted id ++ ")") :=
      (Mute.append (by decide) (mute_quoted id)).append (by decide)
    simp [Statement.lines, Statement.callees, calls_of_mute (mute_indent depth hline)]
  | .leave, _ => by
    have hline : calls "return" = [] := by decide
    simp [Statement.lines, Statement.callees, calls_indent, hline]
  | .call identifier id contained, h => by
    have hname : IsWord ("node_" ++ identifier) := h _ (List.mem_singleton_self _)
    have hne : "node_" ++ identifier ≠ "" := fun hempty => by simpa using congrArg String.length hempty
    have htry : calls "try:" = [] := by decide
    have hexcept : calls "except Exception as exc:" = [] := by decide
    have hrecord : calls ("state.record(" ++ quoted id ++ ", await node_" ++ identifier ++ "(state))") =
        ["node_" ++ identifier] := by
      have hsplit : "state.record(" ++ quoted id ++ ", await node_" ++ identifier ++ "(state))" =
          "state.record(" ++ (quoted id ++ (", await " ++ ("node_" ++ identifier ++ "(state))"))) := by
        simp only [String.append_assoc]
        rw [show ", await node_" = ", await " ++ "node_" from rfl, String.append_assoc]
      rw [hsplit, calls_append (by decide), calls_append (mute_quoted id), calls_append (by decide),
        calls_node hname hne]
    have hfail : Mute ("state.fail(" ++ quoted id ++ ", exc, contained=" ++ boolText contained ++ ")") := by
      simp only [String.append_assoc]
      refine Mute.append (by decide) ((mute_quoted id).append ?_)
      cases contained <;> decide
    simp [Statement.lines, Statement.callees, calls_indent, htry, hexcept, hrecord, calls_of_mute hfail]

theorem calls_linesOf (depth : Nat) : ∀ ss : List Statement, (∀ name ∈ calleesOf ss, IsWord name) →
    (linesOf depth ss).flatMap calls = calleesOf ss
  | [], _ => by
    rw [linesOf, calleesOf]
    rfl
  | s :: rest, h => by
    rw [calleesOf, List.forall_mem_append] at h
    rw [linesOf, calleesOf, List.flatMap_append, s.calls_lines depth h.1, calls_linesOf depth rest h.2]

end

theorem calleesOf_append (first second : List Statement) :
    calleesOf (first ++ second) = calleesOf first ++ calleesOf second := by
  induction first with
  | nil => rfl
  | cons s rest ih => rw [List.cons_append, calleesOf, calleesOf, ih, List.append_assoc]

/-- Of all statements of a step only the last calls a function. -/
theorem calleesOf_stepStatements (w : Workflow) (g : Graph) (n : Node) (identifier : String) :
    calleesOf (stepStatements w g n identifier) = ["node_" ++ identifier] := by
  have hedges : ∀ edges : List Edge, calleesOf (edges.map (edgeStatement n.id)) = [] := by
    intro edges
    induction edges with
    | nil => rfl
    | cons e rest ih =>
      have hedge : (edgeStatement n.id e).callees = [] := by
        unfold edgeStatement
        split_ifs
        · rfl
        · split <;> rfl
      rw [List.map_cons, calleesOf, hedge, ih]
      rfl
  have hpaths : calleesOf (pathStatements n.id (g.incoming n.id)) = [] := by
    unfold pathStatements
    split_ifs
    · rfl
    · rw [List.cons_append, calleesOf, calleesOf_append, hedges]
      rfl
  have hguard : calleesOf (guardStatements n) = [] := by
    unfold guardStatements
    split <;> rfl
  rw [stepStatements, List.cons_append, List.cons_append, calleesOf, calleesOf_append, calleesOf_append, hpaths, hguard]
  rfl

/-- The lines of a step call the function of its node, and no other. -/
theorem called_stepLines (w : Workflow) (g : Graph) (n : Node) (order : List String) (id : String) :
    called (stepLines w g n (identifierOf (identifiers order) id)) = [nodeName (identifiers order) id] := by
  have hhead : defined? ("async def step_" ++ identifierOf (identifiers order) id ++ "(state):") =
      some (stepName (identifiers order) id) := by
    rw [← defined?_function (isWord_stepName order id), stepName, ← String.append_assoc]
    rfl
  have hbody : ∀ ss, (linesOf 1 ss).filter isBody = linesOf 1 ss := fun ss =>
    List.filter_eq_self.2 fun line hline => by rw [isBody, (indented_linesOf 0 ss line hline).defined?]; rfl
  have hempty : isBody "" = true := by rfl
  have hcalls : calls "" = [] := rfl
  have hstep := calls_linesOf 1 (stepStatements w g n (identifierOf (identifiers order) id)) (by
    rw [calleesOf_stepStatements]
    exact List.forall_mem_singleton.2 (isWord_nodeName order id))
  rw [called, stepLines, List.filter_cons_of_pos hempty, List.filter_cons_of_pos hempty,
    List.filter_cons_of_neg (by rw [isBody, hhead]; exact Bool.false_ne_true), hbody, List.flatMap_cons,
    List.flatMap_cons, hcalls, hstep, calleesOf_stepStatements]
  rfl

/-! Names that stand for their own functions -/

theorem moduleNames_nodup {order : List String} (horder : order.Nodup) : (moduleNames order).Nodup := by
  have hinjective (lead : String) : (order.map fun id => lead ++ identifierOf (identifiers order) id).Nodup :=
    horder.map_on fun a ha b hb hab => identifierOf_injective horder ha hb (String.append_right_inj lead |>.1 hab)
  have hnode : ∀ name ∈ order.map (nodeName (identifiers order)), name.toList.head? = some 'n' := by
    intro name hname
    obtain ⟨id, -, rfl⟩ := List.mem_map.1 hname
    rw [nodeName, String.toList_append]
    rfl
  have hstep : ∀ name ∈ order.map (stepName (identifiers order)), name.toList.head? = some 's' := by
    intro name hname
    obtain ⟨id, -, rfl⟩ := List.mem_map.1 hname
    rw [stepName, String.toList_append]
    rfl
  have hne : ∀ {a b : String} {c d : Char}, a.toList.head? = some c → b.toList.head? = some d → c ≠ d → a ≠ b := by
    rintro a b c d ha hb hcd rfl
    exact hcd (Option.some.inj (ha.symm.trans hb))
  have hrun : "run".toList.head? = some 'r' := rfl
  have hpolicy : "_with_policy".toList.head? = some '_' := rfl
  have hsteps : (order.map (nodeName (identifiers order)) ++ order.map (stepName (identifiers order))).Nodup :=
    List.Nodup.append (hinjective "node_") (hinjective "step_") fun name hn hs =>
      hne (hnode name hn) (hstep name hs) (by decide) rfl
  refine List.nodup_cons.2
    ⟨fun hmem => ?_, List.Nodup.append hsteps (List.nodup_singleton _) fun name hname hlast => ?_⟩
  · rcases List.mem_append.1 hmem with hmem | hmem
    · rcases List.mem_append.1 hmem with hmem | hmem
      · exact hne (hnode _ hmem) hpolicy (by decide) rfl
      · exact hne (hstep _ hmem) hpolicy (by decide) rfl
    · exact hne (by rw [List.mem_singleton.1 hmem]; exact hrun) hpolicy (by decide) rfl
  · rw [List.mem_singleton.1 hlast] at hname
    rcases List.mem_append.1 hname with hname | hname
    · exact hne (hnode _ hname) hrun (by decide) rfl
    · exact hne (hstep _ hname) hrun (by decide) rfl

/-- Every name stands for its own function if and only if no two have one normal form. -/
theorem meaning?_self_iff (normal : String → String) (defined : List String) :
    (∀ name ∈ defined, meaning? normal defined name = some name) ↔
      ∀ a ∈ defined, ∀ b ∈ defined, normal a = normal b → a = b := by
  constructor
  · intro h a ha b hb hab
    have hsame : meaning? normal defined a = meaning? normal defined b := meaning?_congr hab
    rw [h a ha, h b hb] at hsame
    exact Option.some.inj hsame
  · exact fun h name hname => meaning?_self hname fun d hd hnormal => h d hd name hname hnormal

/-- The identifiers of steps differ, and each is a word without a digit in front. It is the first spelling that no step
before has got, and it is found after no more tries in vain than there are steps before. -/
structure Identified (order : List String) : Prop where
  nodup : (order.map (identifierOf (identifiers order))).Nodup
  word : ∀ id ∈ order, IsWord (identifierOf (identifiers order) id)
  start : ∀ id ∈ order, StartsWithoutDigit (identifierOf (identifiers order) id)
  search : ∀ before id after, order = before ++ id :: after → ∃ k ≤ before.length,
    EndsAt (before.map (identifierOf (identifiers order))) (identifierSpelling id) k ∧
      identifierOf (identifiers order) id = identifierSpelling id k

theorem identified {order : List String} (horder : order.Nodup) : Identified order where
  nodup := by
    rw [map_identifierOf horder]
    exact (nodup_freshNames identifierSpelling_injective order []).1
  word := fun id _ => isWord_identifierOf order id
  start := fun _ hid => startsWithoutDigit_identifierOf horder hid
  search := by
    rintro before id after rfl
    exact identifierOf_endsAt horder

/-- The text defines the functions of the module, each once, behind what its head line spills; and that is nothing if
the id and the version are single lines. It ends with the functions of the steps and the entry. The function of each
step is defined in lines that call the function of its node, and the entry awaits it once. -/
structure Linked (w : Workflow) (order : List String) (code : String) : Prop where
  definitions : definitions (readLines code) = definitions (headLines w) ++ moduleNames order
  spilled : IsLine w.id → IsLine w.version → Program.definitions (headLines w) = []
  nodup : (moduleNames order).Nodup
  ends : ∃ front, readLines code = front ++ stepFunctions w (Graph.ofWorkflow w) order ++
    entryLines (identifiers order) ((Graph.ofWorkflow w).stagesOf order) ++ [""]
  steps : ∀ n ∈ order.filterMap (Graph.ofWorkflow w).node?,
    Program.definitions (stepLines w (Graph.ofWorkflow w) n (identifierOf (identifiers order) n.id)) =
        [stepName (identifiers order) n.id] ∧
      called (stepLines w (Graph.ofWorkflow w) n (identifierOf (identifiers order) n.id)) =
        [nodeName (identifiers order) n.id]
  entry : ∀ id ∈ order, ((entryLines (identifiers order) ((Graph.ofWorkflow w).stagesOf order)).flatMap awaited).count
    (stepName (identifiers order) id) = 1

theorem linked {e : Emitter} {w : Workflow} {emission : Emission String} {code : String} {order : List String}
    (h : e.program w = .ok emission) (hcode : emission.form = some code)
    (horder : (Graph.ofWorkflow w).topologicalOrder = .ok order) : Linked w order code where
  definitions := by
    obtain ⟨order', horder', hdefinitions⟩ := definitions_program h hcode
    rwa [Except.ok.inj (horder.symm.trans horder')]
  spilled := fun hid hversion => by
    have hlead : (headLine w).toList.head? = some '#' := head?_headLine w
    have hhead : defined? (headLine w ++ "") = none := defined?_eq_none (by rw [hlead]; rfl) ""
    rw [String.append_empty] at hhead
    rw [headLines_eq hid hversion, Program.definitions, List.filterMap_cons_none hhead, List.filterMap_nil]
  nodup := moduleNames_nodup (Graph.topologicalOrder_orders horder).nodup
  ends := by
    obtain ⟨order', read, horder', hread⟩ := program_ends h hcode
    obtain rfl : order = order' := Except.ok.inj (horder.symm.trans horder')
    refine ⟨read.map String.ofList, ?_⟩
    rw [readLines, hread]
    simp
  steps := fun n _ =>
    ⟨definitions_stepLines w _ n (isWord_identifierOf order n.id), called_stepLines w _ n order n.id⟩
  entry := fun id hid => by
    have horders := Graph.topologicalOrder_orders horder
    have hmem : ∀ id, id ∈ order ↔ id ∈ w.nodeIds := fun id => by
      rw [horders.mem, Graph.mem_nodeIds_ofWorkflow]
    exact (performs_awaited horders.nodup hmem (Graph.staged_stagesOf horders)).once id ((hmem id).1 hid)

/-- Distinct steps get distinct identifiers, whatever their ids are. The text of a program defines and calls two
functions for each step under these, and every name stands for its own function if and only if no two of the names
have one normal form. -/
theorem names_own (ids : List String) (e : Emitter) (w : Workflow) :
    (ids.Nodup → Identified ids) ∧
      ∀ (emission : Emission String) (code : String), e.program w = .ok emission → emission.form = some code →
        ∃ order, (Graph.ofWorkflow w).topologicalOrder = .ok order ∧ order.Nodup ∧ (∀ id, id ∈ order ↔ id ∈ w.nodeIds) ∧
          Linked w order code ∧
          ∀ normal : String → String,
            (∀ name ∈ moduleNames order, meaning? normal (moduleNames order) name = some name) ↔
              ∀ a ∈ moduleNames order, ∀ b ∈ moduleNames order, normal a = normal b → a = b := by
  refine ⟨fun hids => identified hids, fun emission code h hcode => ?_⟩
  obtain ⟨order, lines, horder, -, -⟩ := program_eq_ok h hcode
  have horders := Graph.topologicalOrder_orders horder
  refine ⟨order, horder, horders.nodup, fun id => ?_, linked h hcode horder, fun normal => meaning?_self_iff normal _⟩
  rw [horders.mem, Graph.mem_nodeIds_ofWorkflow]

theorem definitions_twins {emission : Emission String} {code : String} (h : builtinEmitter.program twins = .ok emission)
    (hcode : emission.form = some code) :
    definitions (readLines code) = ["_with_policy", "node_a", "node_ª", "step_a", "step_ª", "run"] := by
  have hlinked := linked h hcode order_twins
  have hid : IsLine twins.id := by
    unfold IsLine
    decide
  have hversion : IsLine twins.version := by
    unfold IsLine
    decide
  rw [hlinked.definitions, hlinked.spilled hid hversion]
  decide

/-- In the program of the twins each function is defined once under a name of its own, but not by the plain forms. -/
theorem names_own_twins : ∃ emission code, builtinEmitter.program twins = .ok emission ∧ emission.form = some code ∧
    ["a", "ª"].Nodup ∧ Identified ["a", "ª"] ∧ Linked twins ["a", "ª"] code ∧
    ¬ ∀ name ∈ moduleNames ["a", "ª"], meaning? plainForm (moduleNames ["a", "ª"]) name = some name := by
  obtain ⟨hidentified, hprograms⟩ := names_own ["a", "ª"] builtinEmitter twins
  obtain ⟨emission, hemission, hcode⟩ := program_twins
  obtain ⟨order, horder, hnodup, -, hlinked, hnormal⟩ := hprograms emission _ hemission hcode
  obtain rfl : ["a", "ª"] = order := Except.ok.inj (order_twins.symm.trans horder)
  refine ⟨emission, _, hemission, hcode, hnodup, hidentified hnodup, hlinked, fun h => ?_⟩
  have hsame := (hnormal plainForm).1 h "step_a" (by decide) "step_ª" (by decide) (by decide)
  exact absurd hsame (by decide)

/-- The names of both twins' functions have one normal form each. What the first is called by stands for the function of
the second, so that it is not called by its own name. -/
theorem twins_misnamed : ∃ emission code, builtinEmitter.program twins = .ok emission ∧ emission.form = some code ∧
    twins.nodeIds = ["a", "ª"] ∧
    definitions (readLines code) = ["_with_policy", "node_a", "node_ª", "step_a", "step_ª", "run"] ∧
    meaning? plainForm (definitions (readLines code)) "node_a" = some "node_ª" ∧
    meaning? plainForm (definitions (readLines code)) "step_a" = some "step_ª" := by
  obtain ⟨emission, hemission, hcode⟩ := program_twins
  have hdefinitions := definitions_twins hemission hcode
  refine ⟨emission, _, hemission, hcode, rfl, hdefinitions, ?_, ?_⟩
  all_goals
    rw [hdefinitions]
    decide

end Program

end Flowgraph
