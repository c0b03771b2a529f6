import Flowgraph.Proofs.Document.Steps
import Flowgraph.Proofs.Program.Calls
import Flowgraph.Proofs.Program.Pieces

/-! The composed lines of a program, read one behind the other. Most of what stands in them can be read over whatever
the texts of the workflow are. What remains are the texts that stand in the head line as they are, the characters in
the identifiers of the steps, and how long the numbers and how deep the values are. -/

namespace Flowgraph

open Text Expression

namespace Program

section
variable {stack behind cs rest final : List Char} {steps : Nat} {identifier : String}

/-! Identifiers -/

def Continues (name : String) : Prop :=
  ∀ c ∈ name.toList, continuesIdentifier c = true

theorem continues_append {s t : String} : Continues (s ++ t) ↔ Continues s ∧ Continues t := by
  unfold Continues
  rw [String.toList_append]
  exact List.forall_mem_append

theorem mayContinueName_of_isWord {c : Char} (h : isWord c = true) : mayContinueName c = true := by
  have hlow : ∀ n < 128, isWord (Char.ofNat n) = true → mayContinueName (Char.ofNat n) = true := by decide +kernel
  by_cases hc : c.toNat < 128
  · have := hlow c.toNat hc
    rw [Char.ofNat_toNat] at this
    exact this h
  · simp [mayContinueName, Nat.le_of_not_lt hc]

theorem continues_toString (n : Nat) : Continues (toString n) := by
  have hall : ∀ d < 10, continuesIdentifier d.digitChar = true := by decide
  intro c hc
  rw [Nat.toString_eq_ofList_toDigits, String.toList_ofList] at hc
  obtain ⟨d, hd, rfl⟩ := mem_toDigits (by decide) hc
  exact hall d hd

/-- The word characters of an id are kept, and everything else is replaced by what continues an identifier. -/
theorem continues_identifierBase {id : String} :
    Continues (identifierBase id) ↔ ∀ c ∈ id.toList, isWord c = true → continuesIdentifier c = true := by
  have hword : ∀ c, continuesIdentifier (wordChar c) = true ↔ (isWord c = true → continuesIdentifier c = true) := by
    intro c
    unfold wordChar
    split_ifs with hc
    · simp [hc]
    · exact iff_of_true (by decide) fun h => absurd h hc
  have hmap : (∀ c ∈ id.toList.map wordChar, continuesIdentifier c = true) ↔
      ∀ c ∈ id.toList, isWord c = true → continuesIdentifier c = true := by
    rw [List.forall_mem_map]
    exact forall₂_congr fun c _ => hword c
  rw [← hmap]
  unfold identifierBase Continues
  split
  · next hnil =>
    rw [hnil]
    exact iff_of_true (List.all_eq_true.1 (by decide)) nofun
  · next c tail hcons =>
    rw [hcons, String.toList_ofList]
    split_ifs
    · exact ⟨fun h => (List.forall_mem_cons.1 h).2, fun h => List.forall_mem_cons.2 ⟨by decide, h⟩⟩
    · rfl

theorem continues_identifierSpelling {id : String} (k : Nat) :
    Continues (identifierSpelling id k) ↔ Continues (identifierBase id) := by
  unfold identifierSpelling
  split_ifs
  · rfl
  · rw [continues_append, continues_append]
    exact ⟨fun h => h.1.1, fun h => ⟨⟨h, List.all_eq_true.1 (by decide)⟩, continues_toString (k + 1)⟩⟩

/-- The identifier of a step is one if no word character of its id is none of identifiers. -/
theorem continues_identifierOf {order : List String} {id : String} (hid : id ∈ order) :
    Continues (identifierOf (identifiers order) id) ↔
      ∀ c ∈ id.toList, isWord c = true → continuesIdentifier c = true := by
  have hkeys : Table.keys (identifiers order) = order :=
    List.map_fst_zip (Nat.le_of_eq (length_freshNames order []).symm)
  obtain ⟨name, hname⟩ := Table.exists_get?_of_mem (hkeys.symm ▸ hid)
  obtain ⟨k, rfl⟩ := eq_spelling_of_mem_zip (Table.mem_of_get? hname)
  rw [identifierOf, Table.getD, hname, Option.getD_some, continues_identifierSpelling, continues_identifierBase]

/-- The brackets open behind a piece that ends in the beginning of an identifier. -/
def unfinished? (steps : Nat) (stack cs : List Char) : Option (List Char) :=
  match cs.rtakeWhile mayContinueName with
  | [] => none
  | c :: word =>
    if mayStartName c && startsIdentifier c && word.all (fun d => mayContinueName d && continuesIdentifier d) then
      solid? steps stack (cs.rdropWhile mayContinueName)
    else none

/-- Behind a piece, the rest of an identifier is read over. -/
theorem leads_of_unfinished? (h : unfinished? steps stack cs = some behind) (hid : IsWord identifier)
    (hrest : Sealed rest) : Leads stack (cs ++ (identifier.toList ++ rest)) final ↔
      Continues identifier ∧ Leads behind rest final := by
  unfold unfinished? at h
  split at h
  · cases h
  · next c word hword =>
    split_ifs at h with hok
    simp only [Bool.and_eq_true, List.all_eq_true] at hok
    obtain ⟨⟨hname, hstart⟩, hcs⟩ := hok
    have hall : ∀ d ∈ word ++ identifier.toList, mayContinueName d = true := by
      intro d hd
      rcases List.mem_append.1 hd with hd | hd
      · exact (hcs d hd).1
      · exact mayContinueName_of_isWord (hid d hd)
    have hcontinues : (∀ d ∈ word ++ identifier.toList, continuesIdentifier d = true) ↔ Continues identifier := by
      rw [List.forall_mem_append, and_iff_right fun d hd => (hcs d hd).2, Continues]
    rw [← List.rdropWhile_append_rtakeWhile (p := mayContinueName) (l := cs), hword, List.append_assoc,
      leads_of_solid? h, ← List.append_assoc, List.cons_append, leads_word hname hstart hall hrest, hcontinues]

/-! Comments -/

theorem hasNull_append {s t : String} :
    hasNull (s ++ t).toList = false ↔ hasNull s.toList = false ∧ hasNull t.toList = false := by
  simp [hasNull]

/-- A comment is read over if there is nothing null in it. -/
theorem leads_comment (hcs : '\n' ∉ cs) : Leads stack ('#' :: (cs ++ '\n' :: rest)) final ↔
    hasNull cs = false ∧ Leads stack ('\n' :: rest) final := by
  have hall : ∀ c ∈ cs, decide (c ≠ '\n') = true := fun c hc => decide_eq_true fun heq => hcs (heq ▸ hc)
  have htoken : token? stack '#' (cs ++ '\n' :: rest) =
      if hasNull cs then none else some (stack, '\n' :: rest) := by
    change (if hasNull ((cs ++ '\n' :: rest).takeWhile (· ≠ '\n')) then none
      else some (stack, afterComment (cs ++ '\n' :: rest))) = _
    rw [afterComment, List.takeWhile_append_of_pos hall, List.dropWhile_append_of_pos hall]
    simp
  rw [leads_cons_iff, htoken]
  cases hasNull cs <;> simp

end

/-! Runs of lines -/

/-- Between statements, the lines are read over if something holds. -/
def Passes (lines : List String) (p : Prop) : Prop :=
  ∀ rest final, Leads [] (chars lines ++ rest) final ↔ p ∧ Leads [] rest final

section
variable {xs ys : List String} {p q : Prop}

theorem passes_nil : Passes [] True := fun rest final => by
  rw [true_and]
  rfl

theorem Passes.congr (h : Passes xs p) (hpq : p ↔ q) : Passes xs q := fun rest final => by
  rw [h, hpq]

theorem Passes.append (h : Passes xs p) (h' : Passes ys q) : Passes (xs ++ ys) (p ∧ q) := fun rest final => by
  have hchars : chars (xs ++ ys) = chars xs ++ chars ys := List.flatMap_append
  rw [hchars, List.append_assoc, h, h', and_assoc]

theorem Passes.cons {line : String} (h : Passes [line] p) (h' : Passes xs q) : Passes (line :: xs) (p ∧ q) :=
  h.append h'

theorem Passes.flatMap {α : Type} {as : List α} {f : α → List String} {p : α → Prop}
    (h : ∀ a ∈ as, Passes (f a) (p a)) : Passes (as.flatMap f) (∀ a ∈ as, p a) := by
  induction as with
  | nil => exact passes_nil.congr (iff_of_true trivial nofun)
  | cons a rest ih =>
    obtain ⟨ha, hrest⟩ := List.forall_mem_cons.1 h
    rw [List.flatMap_cons]
    exact (ha.append (ih hrest)).congr List.forall_mem_cons.symm

theorem passes_line_iff {line : String} :
    Passes [line] p ↔ ∀ rest final, Leads [] (line.toList ++ '\n' :: rest) final ↔ p ∧ Leads [] rest final := by
  have hchars : ∀ rest, chars [line] ++ rest = line.toList ++ '\n' :: rest := by simp [chars]
  simp only [Passes, hchars]

theorem passes_line {line : String}
    (h : ∀ rest final, Leads [] (line.toList ++ '\n' :: rest) final ↔ p ∧ Leads [] ('\n' :: rest) final) :
    Passes [line] p :=
  passes_line_iff.2 fun rest final => by rw [h, leads_newline]

/-- Lines that are always the same are read over. -/
theorem passes_solid (steps : Nat) (h : solid? steps [] (chars xs) = some []) : Passes xs True := fun rest final => by
  rw [leads_of_solid? h, true_and]

end

/-! The preamble -/

/-- Lines read so far, the last of them first, and the lines behind them make a text with a property. -/
structure Spelled (P : List Char → Prop) (before : List (List Char)) (lines : List String) : Prop where
  whole : P (before.reverse.flatMap (· ++ ['\n']) ++ chars lines)

theorem spelled_cons_ofList {P : List Char → Prop} {before : List (List Char)} {cs : List Char} {rest : List String}
    (h : Spelled P (cs :: before) rest) : Spelled P before (String.ofList cs :: rest) := by
  refine ⟨?_⟩
  have := h.whole
  simpa [chars] using this

theorem Spelled.chars {P : List Char → Prop} {lines : List String} (h : Spelled P [] lines) : P (chars lines) := by
  simpa using h.whole

theorem passes_preamble : Passes preamble True := by
  have hspelled : Spelled (fun cs => solid? 8000 [] cs = some []) [] preamble := by
    unfold preamble
    repeat refine spelled_cons_ofList ?_
    refine ⟨?_⟩
    decide +kernel
  exact passes_solid 8000 hspelled.chars

/-! The head line and the data -/

/-- The head line is a comment, in which the id and the version stand as they are. -/
theorem passes_headLine {w : Workflow} (hid : IsLine w.id) (hversion : IsLine w.version) :
    Passes [headLine w] (hasNull w.id.toList = false ∧ hasNull w.version.toList = false) := by
  have hwhole : IsLine (headLine w) := isLine_headLine.2 ⟨hid, hversion⟩
  have hline : '\n' ∉ (headLine w).toList := fun hmem => (hwhole '\n' hmem).1 rfl
  obtain ⟨cs, hcs⟩ := List.head?_eq_some_iff.1 (head?_headLine w)
  have hnull : hasNull cs = false ↔ hasNull w.id.toList = false ∧ hasNull w.version.toList = false := by
    have hhead : hasNull (headLine w).toList = false ↔ hasNull cs = false := by
      rw [hcs]
      simp [hasNull]
    have hlead : hasNull "# Generated by autoflow from workflow ".toList = false := by decide
    have hopen : hasNull " (".toList = false := by decide
    have hbetween : hasNull "), version ".toList = false := by decide
    rw [← hhead]
    unfold headLine
    simp only [hasNull_append, hasNull_quoted, hlead, hopen, hbetween, true_and, and_true]
  rw [hcs, List.mem_cons, not_or] at hline
  refine passes_line fun rest final => ?_
  rw [hcs, List.cons_append, leads_comment hline.2, hnull]

/-- What a value is assigned to is read over, and the value if it is legible. -/
theorem passes_assignment {lead : String} (v : Value) (hlead : solid? 100 [] lead.toList = some []) :
    Passes [lead ++ v.literal] (v.Legible nestingLimit) := by
  refine passes_line fun rest final => ?_
  rw [String.toList_append, List.append_assoc, leads_of_solid? hlead, Value.leads_literal (sealed_cons rfl) v]
  rfl

theorem legibleItems_texts (room : Nat) (texts : List String) :
    Value.LegibleItems room (texts.map Value.text) := by
  induction texts with
  | nil => trivial
  | cons s rest ih => exact ⟨trivial, ih⟩

theorem delayLine_eq_ok {name line : String} {delay : Number} (h : delayLine name delay = .ok line) :
    ∃ x, line = name ++ " = " ++ (Value.float x).literal := by
  unfold delayLine at h
  cases hx : delay.toFloat with
  | error f =>
    rw [hx] at h
    cases h
  | ok x =>
    rw [hx] at h
    exact ⟨x, (Except.ok.inj h).symm⟩

theorem passes_dataLines {e : Emitter} {w : Workflow} {order lines : List String}
    (h : dataLines e w order = .ok lines) :
    Passes lines ((Value.object (defaultVariables w)).Legible nestingLimit) := by
  obtain ⟨base, hbase, h⟩ := bind_eq_ok.1 h
  obtain ⟨ceiling, hceiling, h⟩ := bind_eq_ok.1 h
  obtain rfl := Except.ok.inj h
  obtain ⟨x, rfl⟩ := delayLine_eq_ok hbase
  obtain ⟨y, rfl⟩ := delayLine_eq_ok hceiling
  have hfunctions : Passes ["", functionsLine] True := passes_solid 400 (by decide +kernel)
  have hid : Passes ["WORKFLOW_ID = " ++ (Value.text w.id).literal] _ := passes_assignment _ (by decide)
  have hids : Passes ["NODE_IDS = " ++ (Value.ofTexts order).literal] _ := passes_assignment _ (by decide)
  have hvariables : Passes ["DEFAULT_VARIABLES = " ++ (Value.object (defaultVariables w)).literal] _ :=
    passes_assignment _ (by decide)
  have hbase : Passes ["RETRY_BASE_DELAY" ++ " = " ++ (Value.float x).literal] _ :=
    passes_assignment _ (by decide)
  have hceiling : Passes ["RETRY_MAX_DELAY" ++ " = " ++ (Value.float y).literal] _ :=
    passes_assignment _ (by decide)
  have hlegible : (Value.ofTexts order).Legible nestingLimit := ⟨by decide, legibleItems_texts _ order⟩
  refine (hfunctions.append (hid.append (hids.append (hvariables.append (hbase.append hceiling))))).congr ?_
  simp only [hlegible, Value.Legible, true_and, and_true]

/-! The functions of the steps -/

/-- The line that begins the function of a step is read over if its name is an identifier. -/
theorem passes_definition {lead identifier : String} (hlead : unfinished? 100 [] lead.toList = some [])
    (hid : IsWord identifier) : Passes [lead ++ identifier ++ "(state):"] (Continues identifier) := by
  have hstate : solid? 100 [] "(state):".toList = some [] := by decide
  refine passes_line fun rest final => ?_
  rw [String.toList_append, String.toList_append, List.append_assoc, List.append_assoc,
    leads_of_unfinished? hlead hid (sealed_of_head? (by decide) _), leads_of_solid? hstate]

theorem passes_comment {lead text : String} (hlead : solid? 100 [] lead.toList = some []) (hline : IsLine text)
    (hnull : hasNull text.toList = false) : Passes [lead ++ "#" ++ text] True := by
  refine passes_line fun rest final => ?_
  rw [String.toList_append, String.toList_append, List.append_assoc, List.append_assoc, leads_of_solid? hlead]
  exact (leads_comment fun hmem => (hline '\n' hmem).1 rfl).trans (and_congr_left' (iff_of_true hnull trivial))

theorem legible_ofOption_text (room : Nat) (o : Option String) : (Value.ofOption .text o).Legible room := by
  cases o <;> trivial

theorem hasNull_callText (c : Capability) : hasNull (callText c).toList = false := by
  unfold callText Value.ofOption
  cases c.runtimeCall with
  | none => decide
  | some call => exact hasNull_quoted call

theorem leads_callText {stack rest final : List Char} (c : Capability) (hrest : Sealed rest) :
    Leads stack ((callText c).toList ++ rest) final ↔ Leads stack rest final := by
  rw [callText, Value.leads_literal hrest, and_iff_right (legible_ofOption_text _ _)]

/-- A bracket is open from the first of these lines to the last. -/
theorem passes_policyLines (c : Capability) (id : String) (policy : Policy) :
    Passes ["    return await _with_policy(",
      "        lambda: state.invoke(" ++ callText c ++ ", " ++ quoted id ++ ", inputs),",
      "        " ++ toString policy.timeout ++ ", " ++ toString policy.retries ++ ")"]
      (Readable policy.timeout ∧ Readable policy.retries) := by
  have hpolicy : solid? 100 [] "    return await _with_policy(".toList = some ['('] := by decide
  have hlambda : solid? 100 ['('] "        lambda: state.invoke(".toList = some ['(', '('] := by decide
  have hcomma : ∀ stack, solid? 100 stack ", ".toList = some stack := fun _ => rfl
  have hinputs : solid? 100 ['(', '('] ", inputs),".toList = some ['('] := by decide
  have hblank : solid? 100 ['('] "        ".toList = some ['('] := by decide
  have hclose : solid? 100 ['('] ")".toList = some [] := by decide
  intro rest final
  simp only [chars, List.flatMap_cons, List.flatMap_nil, String.toList_append, List.append_assoc, List.cons_append,
    List.nil_append]
  rw [leads_of_solid? hpolicy, leads_newline, leads_of_solid? hlambda, leads_callText c (sealed_of_head? (by decide) _),
    leads_of_solid? (hcomma _), leads_quoted id (sealed_of_head? (by decide) _), leads_of_solid? hinputs, leads_newline,
    leads_of_solid? hblank, leads_int _ (sealed_of_head? (by decide) _), leads_of_solid? (hcomma _),
    leads_nat _ (sealed_of_head? (by decide) _), leads_of_solid? hclose, leads_newline]
  exact and_assoc.symm

/-- What the function of a node needs to be written so that it is read over: room for the inputs within the brackets
of a call, and numbers that are short enough. -/
structure Writable (e : Emitter) (w : Workflow) (n : Node) : Prop where
  inputs : (Value.object n.inputs).Legible (nestingLimit - 1)
  timeout : Readable (Policy.resolve w n e.defaultTimeout).timeout
  retries : Readable (Policy.resolve w n e.defaultTimeout).retries

theorem passes_nodeLines (e : Emitter) (w : Workflow) (n : Node) (c : Capability) {identifier : String}
    (hid : IsWord identifier) : Passes (nodeLines e w n c identifier) (Continues identifier ∧ Writable e w n) := by
  have hblank : Passes ["", ""] True := passes_solid 100 (by decide)
  have hdefinition : Passes ["async def node_" ++ identifier ++ "(state):"] (Continues identifier) :=
    passes_definition (by decide) hid
  have hcomment : Passes ["    # " ++ quoted n.label ++ " via " ++ callText c] True := by
    have hmark : "    # " ++ quoted n.label ++ " via " ++ callText c =
        "    " ++ "#" ++ (" " ++ quoted n.label ++ " via " ++ callText c) := by
      simp only [← String.append_assoc]
      rfl
    rw [hmark]
    refine passes_comment (by decide) ?_ ?_
    · simp only [isLine_append, isLine_quoted, callText, Value.isLine_literal, and_true]
      exact ⟨isLine_ofList (by decide), isLine_ofList (by decide)⟩
    · have hspace : hasNull " ".toList = false := by decide
      have hvia : hasNull " via ".toList = false := by decide
      simp only [hasNull_append, hasNull_quoted, hasNull_callText, hspace, hvia, and_true]
  have hinputs : Passes ["    inputs = state.resolve(" ++ (Value.object n.inputs).literal ++ ")"]
      ((Value.object n.inputs).Legible (nestingLimit - 1)) := by
    have hopen : solid? 100 [] "    inputs = state.resolve(".toList = some ['('] := by decide
    have hclose : solid? 100 ['('] ")".toList = some [] := by decide
    refine passes_line fun rest final => ?_
    rw [String.toList_append, String.toList_append, List.append_assoc, List.append_assoc, leads_of_solid? hopen,
      Value.leads_literal (sealed_of_head? (by decide) _), leads_of_solid? hclose]
    rfl
  have hpolicy := passes_policyLines c n.id (Policy.resolve w n e.defaultTimeout)
  refine (hblank.append (hdefinition.append (hcomment.append (hinputs.append hpolicy)))).congr ?_
  rw [true_and, true_and]
  refine and_congr_right fun _ => ?_
  constructor
  · rintro ⟨hi, ht, hr⟩
    exact ⟨hi, ht, hr⟩
  · intro h
    exact ⟨h.inputs, h.timeout, h.retries⟩

/-! The functions that decide -/

mutual

def Statement.called : Statement → List String
  | .ifHolds _ body => calledIn body
  | .call identifier _ _ => [identifier]
  | .setSatisfied _ | .skip _ | .leave => []

def calledIn : List Statement → List String
  | [] => []
  | s :: rest => s.called ++ calledIn rest

end

theorem calledIn_append (first second : List Statement) :
    calledIn (first ++ second) = calledIn first ++ calledIn second := by
  induction first with
  | nil => rfl
  | cons s rest ih => rw [List.cons_append, calledIn, ih, calledIn, List.append_assoc]

theorem calledIn_pathStatements (id : String) (incoming : List Edge) : calledIn (pathStatements id incoming) = [] := by
  have hedge : ∀ e : Edge, (edgeStatement id e).called = [] := by
    intro e
    unfold edgeStatement
    split_ifs
    · rfl
    · split <;> rfl
  have hedges : calledIn (incoming.map (edgeStatement id)) = [] := by
    induction incoming with
    | nil => rfl
    | cons e rest ih => rw [List.map_cons, calledIn, hedge, ih, List.append_nil]
  unfold pathStatements
  split_ifs
  · rfl
  · rw [calledIn_append, calledIn, hedges]
    rfl

/-- The statements of a step call its own function, and no other. -/
theorem calledIn_stepStatements (w : Workflow) (g : Graph) (n : Node) (identifier : String) :
    calledIn (stepStatements w g n identifier) = [identifier] := by
  have hguard : calledIn (guardStatements n) = [] := by
    unfold guardStatements
    split <;> rfl
  rw [stepStatements, calledIn_append, calledIn_append, calledIn, calledIn_pathStatements, hguard]
  rfl

theorem Passes.indented {line : String} {p : Prop} (h : Passes [line] p) (depth : Nat) : Passes [indent depth line] p := by
  refine passes_line fun rest final => ?_
  rw [leads_newline, ← passes_line_iff.1 h, indent, String.toList_append, String.toList_ofList, List.append_assoc]
  -- all blanks in front are gaps
  generalize 4 * depth = width
  induction width with
  | zero => rfl
  | succ n ih =>
    rw [List.replicate_succ, List.cons_append]
    exact (leads_of_token? rfl).trans ih

theorem leads_boolText {stack rest final : List Char} (b : Bool) (hrest : Sealed rest) :
    Leads stack ((boolText b).toList ++ rest) final ↔ Leads stack rest final :=
  (Value.leads_literal hrest (.bool b)).trans (and_iff_right trivial)

section
variable {rest final : List Char} {lead : String}

/-- A call with a quoted text. -/
theorem leads_call (hlead : solid? 100 [] lead.toList = some ['(']) (s : String) :
    Leads [] ((lead ++ quoted s ++ ")").toList ++ rest) final ↔ Leads [] rest final := by
  have hclose : solid? 100 ['('] ")".toList = some [] := by decide
  rw [String.toList_append, String.toList_append, List.append_assoc, List.append_assoc, leads_of_solid? hlead,
    leads_quoted s (sealed_of_head? (by decide) _), leads_of_solid? hclose]

end

theorem passes_test (t : Test) : Passes ["if " ++ t.text ++ ":"] True := by
  have hif : solid? 100 [] "if ".toList = some [] := by decide
  have hcolon : solid? 100 [] ":".toList = some [] := by decide
  have hcall : ∀ lead s, solid? 100 [] lead.toList = some ['('] → t.text = lead ++ quoted s ++ ")" →
      Passes ["if " ++ t.text ++ ":"] True := fun lead s hlead ht => passes_line fun rest final => by
    rw [String.toList_append, String.toList_append, List.append_assoc, List.append_assoc, leads_of_solid? hif, ht,
      leads_call hlead, leads_of_solid? hcolon, true_and]
  cases t with
  | aborted => exact passes_solid 100 (by decide)
  | succeeded id => exact hcall _ id (by decide) rfl
  | failed id => exact hcall _ id (by decide) rfl
  | refuted expression => exact hcall _ expression (by decide) rfl
  | unsatisfied => exact passes_solid 100 (by decide)

theorem passes_skip (id : String) : Passes ["state.skip(" ++ quoted id ++ ")"] True :=
  passes_line fun rest final => by rw [leads_call (by decide), true_and]

theorem passes_record (id : String) {identifier : String} (hid : IsWord identifier) :
    Passes ["state.record(" ++ quoted id ++ ", await node_" ++ identifier ++ "(state))"] (Continues identifier) := by
  have hrecord : solid? 100 [] "state.record(".toList = some ['('] := by decide
  have hnode : unfinished? 100 ['('] ", await node_".toList = some ['('] := by decide
  have hstate : solid? 100 ['('] "(state))".toList = some [] := by decide
  refine passes_line fun rest final => ?_
  simp only [String.toList_append, List.append_assoc]
  rw [leads_of_solid? hrecord, leads_quoted id (sealed_of_head? (by decide) _),
    leads_of_unfinished? hnode hid (sealed_of_head? (by decide) _), leads_of_solid? hstate]

theorem passes_fail (id : String) (contained : Bool) :
    Passes ["state.fail(" ++ quoted id ++ ", exc, contained=" ++ boolText contained ++ ")"] True := by
  have hfail : solid? 100 [] "state.fail(".toList = some ['('] := by decide
  have hcontained : solid? 100 ['('] ", exc, contained=".toList = some ['('] := by decide
  have hclose : solid? 100 ['('] ")".toList = some [] := by decide
  refine passes_line fun rest final => ?_
  simp only [String.toList_append, List.append_assoc]
  rw [leads_of_solid? hfail, leads_quoted id (sealed_of_head? (by decide) _), leads_of_solid? hcontained,
    leads_boolText contained (sealed_of_head? (by decide) _), leads_of_solid? hclose, true_and]

mutual

/-- A statement is read over if the functions that it calls have identifiers for names. -/
theorem Statement.passes_lines (depth : Nat) : ∀ {s : Statement}, (∀ id ∈ s.called, IsWord id) →
    Passes (s.lines depth) (∀ id ∈ s.called, Continues id)
  | .ifHolds test body, h => by
    rw [Statement.called] at h ⊢
    rw [Statement.lines]
    exact (((passes_test test).indented depth).cons (passes_linesOf (depth + 1) h)).congr (and_iff_right trivial)
  | .setSatisfied value, _ => by
    have hset : Passes ["satisfied = " ++ (Value.bool value).literal] _ := passes_assignment _ (by decide)
    rw [Statement.called, Statement.lines]
    exact (hset.indented depth).congr (iff_of_true trivial nofun)
  | .skip id, _ => by
    rw [Statement.called, Statement.lines]
    exact ((passes_skip id).indented depth).congr (iff_of_true trivial nofun)
  | .leave, _ => by
    have hreturn : Passes ["return"] True := passes_solid 100 (by decide)
    rw [Statement.called, Statement.lines]
    exact (hreturn.indented depth).congr (iff_of_true trivial nofun)
  | .call identifier id contained, h => by
    have htry : Passes ["try:"] True := passes_solid 100 (by decide)
    have hexcept : Passes ["except Exception as exc:"] True := passes_solid 100 (by decide)
    rw [Statement.called] at h ⊢
    have hrecord := passes_record id (h identifier List.mem_cons_self)
    rw [Statement.lines]
    refine ((htry.indented depth).cons ((hrecord.indented (depth + 1)).cons ((hexcept.indented depth).cons
      ((passes_fail id contained).indented (depth + 1))))).congr ?_
    simp

theorem passes_linesOf (depth : Nat) : ∀ {ss : List Statement}, (∀ id ∈ calledIn ss, IsWord id) →
    Passes (linesOf depth ss) (∀ id ∈ calledIn ss, Continues id)
  | [], _ => by
    rw [calledIn, linesOf]
    exact passes_nil.congr (iff_of_true trivial nofun)
  | s :: rest, h => by
    rw [calledIn, List.forall_mem_append] at h
    rw [calledIn, linesOf]
    exact ((s.passes_lines depth h.1).append (passes_linesOf depth h.2)).congr List.forall_mem_append.symm

end

theorem passes_stepLines (w : Workflow) (g : Graph) (n : Node) {identifier : String} (hid : IsWord identifier) :
    Passes (stepLines w g n identifier) (Continues identifier) := by
  have hblank : Passes ["", ""] True := passes_solid 100 (by decide)
  have hdefinition : Passes ["async def step_" ++ identifier ++ "(state):"] (Continues identifier) :=
    passes_definition (by decide) hid
  have hbody : Passes (linesOf 1 (stepStatements w g n identifier))
      (∀ id ∈ calledIn (stepStatements w g n identifier), Continues id) :=
    passes_linesOf 1 (by simpa [calledIn_stepStatements] using hid)
  refine (hblank.append (hdefinition.append hbody)).congr ?_
  rw [calledIn_stepStatements, List.forall_mem_singleton, true_and, and_self_iff]

/-! The entry -/

section
variable {stack rest final : List Char} {order : List String}

theorem leads_step (hstate : solid? 100 stack "(state)".toList = some stack) (id : String) :
    Leads stack (("step_" ++ identifierOf (identifiers order) id ++ "(state)").toList ++ rest) final ↔
      Continues (identifierOf (identifiers order) id) ∧ Leads stack rest final := by
  have hstep : unfinished? 100 stack "step_".toList = some stack := rfl
  simp only [String.toList_append, List.append_assoc]
  rw [leads_of_unfinished? hstep (isWord_identifierOf order id) (sealed_of_head? (by decide) _),
    leads_of_solid? hstate]

theorem leads_steps (hstate : solid? 100 stack "(state)".toList = some stack) (stage : List String) :
    Leads stack ((", ".intercalate
      (stage.map fun id => "step_" ++ identifierOf (identifiers order) id ++ "(state)")).toList ++ rest) final ↔
      (∀ id ∈ stage, Continues (identifierOf (identifiers order) id)) ∧ Leads stack rest final := by
  have hcomma : solid? 100 stack ", ".toList = some stack := rfl
  rw [String.toList_intercalate]
  induction stage with
  | nil => simp
  | cons id more ih =>
    cases more with
    | nil => simpa using leads_step hstate id
    | cons next more =>
      simp only [List.map_cons] at ih ⊢
      rw [List.intercalate_cons_cons, List.append_assoc, List.append_assoc, leads_step hstate, leads_of_solid? hcomma,
        List.forall_mem_cons, and_assoc]
      exact and_congr_right' ih

end

theorem passes_stageLine (order stage : List String) : Passes [stageLine (identifiers order) stage]
    (∀ id ∈ stage, Continues (identifierOf (identifiers order) id)) := by
  have hawait : solid? 100 [] "    await ".toList = some [] := by decide
  have hgather : solid? 100 [] "    await asyncio.gather(".toList = some ['('] := by decide
  have hclose : solid? 100 ['('] ")".toList = some [] := by decide
  have hsteps : Passes ["    await asyncio.gather(" ++ ", ".intercalate
      (stage.map fun id => "step_" ++ identifierOf (identifiers order) id ++ "(state)") ++ ")"]
      (∀ id ∈ stage, Continues (identifierOf (identifiers order) id)) := passes_line fun rest final => by
    rw [String.toList_append, String.toList_append, List.append_assoc, List.append_assoc, leads_of_solid? hgather,
      leads_steps (by decide), leads_of_solid? hclose]
  match stage with
  | [] => exact hsteps
  | [id] =>
    refine passes_line fun rest final => ?_
    change Leads [] (("    await " ++ ("step_" ++ identifierOf (identifiers order) id ++ "(state)")).toList ++ _) _ ↔ _
    rw [String.toList_append, List.append_assoc, leads_of_solid? hawait, leads_step (by decide),
      List.forall_mem_singleton]
  | _ :: _ :: _ => exact hsteps

theorem Passes.map {α : Type} {as : List α} {f : α → String} {p : α → Prop} (h : ∀ a ∈ as, Passes [f a] (p a)) :
    Passes (as.map f) (∀ a ∈ as, p a) := by
  rw [List.map_eq_flatMap]
  exact Passes.flatMap h

theorem passes_entryLines (order : List String) (stages : List (List String)) :
    Passes (entryLines (identifiers order) stages)
      (∀ stage ∈ stages, ∀ id ∈ stage, Continues (identifierOf (identifiers order) id)) := by
  have hhead : Passes ["", "", "async def run(invoke, variables=None):", "    state = _RunState(invoke, variables)"] True :=
    passes_solid 200 (by decide)
  have hlast : Passes ["    return state.result()"] True := passes_solid 100 (by decide)
  have hstages : Passes (stages.map (stageLine (identifiers order))) _ :=
    Passes.map fun stage _ => passes_stageLine order stage
  refine ((hhead.append hstages).append hlast).congr ?_
  rw [true_and, and_true]

/-! The whole program -/

/-- The lines of a program, all of whose nodes have capabilities, are read over if the head line is, the variables are
legible, the nodes can be written, and all names of functions are identifiers. -/
theorem passes_lines {e : Emitter} {w : Workflow} {g : Graph} {order lines : List String} {p : Prop}
    (h : Program.lines e w g order = .ok lines) (hhead : Passes [headLine w] p)
    (hcallable : ∀ n ∈ order.filterMap g.node?, ∃ c, e.registry.find? n = some c) :
    Passes lines (p ∧ (Value.object (defaultVariables w)).Legible nestingLimit ∧
      (∀ n ∈ order.filterMap g.node?, Continues (identifierOf (identifiers order) n.id) ∧ Writable e w n) ∧
      (∀ n ∈ order.filterMap g.node?, Continues (identifierOf (identifiers order) n.id)) ∧
      ∀ stage ∈ g.stagesOf order, ∀ id ∈ stage, Continues (identifierOf (identifiers order) id)) := by
  obtain ⟨data, hdata, h⟩ := bind_eq_ok.1 h
  obtain rfl := Except.ok.inj h
  have hsteps : Passes ((order.filterMap g.node?).flatMap fun n =>
      stepLines w g n (identifierOf (identifiers order) n.id))
      (∀ n ∈ order.filterMap g.node?, Continues (identifierOf (identifiers order) n.id)) :=
    Passes.flatMap fun n _ => passes_stepLines w g n (isWord_identifierOf order n.id)
  have hentry := passes_entryLines order (g.stagesOf order)
  refine (((((hhead.cons passes_preamble).append (passes_dataLines hdata)).append
    (Passes.flatMap (p := fun n => Continues (identifierOf (identifiers order) n.id) ∧ Writable e w n)
      fun n hn => ?_)).append hsteps).append hentry).congr ?_
  · obtain ⟨c, hc⟩ := hcallable n hn
    rw [hc]
    exact passes_nodeLines e w n c (isWord_identifierOf order n.id)
  · simp only [and_true, and_assoc]

end Program

end Flowgraph
