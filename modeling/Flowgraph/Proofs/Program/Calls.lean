import Flowgraph.Proofs.Graph
import Flowgraph.Proofs.Program.Lines

/-! What the lines of a program call and define. The names of the functions of steps are words, no two of them
spelled alike. Read character by character, the line of a stage awaits the functions of its nodes; and the
lines of a step define its function at the margin, and nothing else. -/

namespace Flowgraph

open Text Expression

namespace Program

/-! Names of steps -/

def stepName (names : Table String) (id : String) : String :=
  "step_" ++ identifierOf names id

theorem identifierSpelling_injective (id : String) : Function.Injective (identifierSpelling id) :=
  numbered_injective (by decide) (Nat.succ_injective)

theorem map_getD_zip {keys values : List String} (hkeys : keys.Nodup) (hlength : values.length = keys.length) :
    keys.map (fun k => Table.getD (keys.zip values) k "") = values := by
  induction keys generalizing values with
  | nil => rw [List.length_eq_zero_iff.1 hlength, List.map_nil]
  | cons key rest ih =>
    cases values with
    | nil => simp at hlength
    | cons value others =>
      obtain ⟨hnew, hrest⟩ := List.nodup_cons.1 hkeys
      have hothers : ∀ k ∈ rest, Table.getD ((key, value) :: rest.zip others) k "" =
          Table.getD (rest.zip others) k "" := by
        intro k hk
        have hne : key ≠ k := by
          rintro rfl
          exact hnew hk
        simp [Table.getD, Table.get?, hne]
      rw [List.zip_cons_cons, List.map_cons, List.map_congr_left hothers, ih hrest (by simpa using hlength)]
      simp [Table.getD, Table.get?]

/-- No two steps share an identifier, as it is spelled. -/
theorem identifierOf_injective {order : List String} (horder : order.Nodup) {a b : String} (ha : a ∈ order)
    (hb : b ∈ order) (h : identifierOf (identifiers order) a = identifierOf (identifiers order) b) : a = b := by
  have hall : order.map (identifierOf (identifiers order)) = freshNames identifierSpelling order [] :=
    map_getD_zip horder (length_freshNames order [])
  have hnodup := (nodup_freshNames identifierSpelling_injective order []).1
  rw [← hall] at hnodup
  exact List.inj_on_of_nodup_map hnodup ha hb h

def IsWord (s : String) : Prop :=
  ∀ c ∈ s.toList, isWord c = true

instance (s : String) : Decidable (IsWord s) :=
  decidable_of_iff (s.toList.all isWord = true) List.all_eq_true

theorem isWord_append {s t : String} : IsWord (s ++ t) ↔ IsWord s ∧ IsWord t := by
  unfold IsWord
  rw [String.toList_append]
  exact List.forall_mem_append

theorem isWord_wordChar (c : Char) : isWord (wordChar c) = true := by
  unfold wordChar
  split_ifs with h
  · exact h
  · decide

theorem isWord_digit {c : Char} (h : c.isDigit = true) : isWord c = true := by
  simp only [Char.isDigit, Bool.and_eq_true, decide_eq_true_eq, ge_iff_le, UInt32.le_iff_toNat_le] at h
  have hlow : ¬ c.toNat < 48 := Nat.not_lt.2 h.1
  have hhigh : c.toNat ≤ 57 := h.2
  change inRanges ((48, 57) :: wordRanges.tail) c.toNat = true
  rw [inRanges, if_neg hlow, if_pos hhigh]

theorem isWord_identifierBase (id : String) : IsWord (identifierBase id) := by
  have hmap : ∀ c ∈ id.toList.map wordChar, isWord c = true := by
    intro c hc
    obtain ⟨d, -, rfl⟩ := List.mem_map.1 hc
    exact isWord_wordChar d
  unfold identifierBase
  split
  · decide
  · next c rest heq =>
    rw [heq] at hmap
    rw [IsWord, String.toList_ofList]
    split_ifs
    · exact List.forall_mem_cons.2 ⟨by decide, hmap⟩
    · exact hmap

theorem isWord_identifierOf (order : List String) (id : String) : IsWord (identifierOf (identifiers order) id) := by
  unfold identifierOf Table.getD
  cases hid : Table.get? (identifiers order) id with
  | none => simp [IsWord]
  | some name =>
    have hname : name ∈ freshNames identifierSpelling order [] := (List.of_mem_zip (Table.mem_of_get? hid)).2
    obtain ⟨a, k, rfl⟩ := eq_spelling_of_mem_freshNames hname
    have hnumber : IsWord (toString (k + 1)) := by
      intro c hc
      rw [Nat.toString_eq_ofList_toDigits, String.toList_ofList] at hc
      exact isWord_digit (Nat.isDigit_of_mem_toDigits (by omega) (by omega) hc)
    simp only [Option.getD_some, identifierSpelling]
    split_ifs
    · exact isWord_identifierBase a
    · exact isWord_append.2 ⟨isWord_append.2 ⟨isWord_identifierBase a, by decide⟩, hnumber⟩

theorem isWord_stepName (order : List String) (id : String) : IsWord (stepName (identifiers order) id) :=
  isWord_append.2 ⟨by decide, isWord_identifierOf order id⟩

theorem stepName_injective {order : List String} (horder : order.Nodup) {a b : String} (ha : a ∈ order)
    (hb : b ∈ order) (h : stepName (identifiers order) a = stepName (identifiers order) b) : a = b :=
  identifierOf_injective horder ha hb (String.append_right_inj _ |>.1 h)

/-! Reading what a line calls -/

/-- A line read so far: the word that is under way, whether it stands behind a point, and the names that
brackets were opened behind. -/
structure Scan where
  word : List Char := []
  behindPoint : Bool := false
  called : List String := []
  deriving DecidableEq

/-- A word before an opening bracket is the name of a function that is called, unless it stands behind a point. -/
def Scan.read (s : Scan) (c : Char) : Scan :=
  if isWord c then { s with word := s.word ++ [c] }
  else
    { behindPoint := c = '.'
      called := if c = '(' ∧ s.word ≠ [] ∧ s.behindPoint = false then s.called ++ [String.ofList s.word] else s.called }

def awaited (line : String) : List String :=
  if "    await ".toList.isPrefixOf line.toList then (line.toList.foldl Scan.read {}).called else []

theorem Scan.read_word {cs : List Char} (h : ∀ c ∈ cs, isWord c = true) (s : Scan) :
    cs.foldl Scan.read s = { s with word := s.word ++ cs } := by
  induction cs generalizing s with
  | nil => simp
  | cons c rest ih =>
    obtain ⟨hc, hrest⟩ := List.forall_mem_cons.1 h
    rw [List.foldl_cons, Scan.read, if_pos hc, ih hrest]
    simp

theorem Scan.read_close (s : Scan) : s.read ')' = { called := s.called } := by
  simp [Scan.read, show isWord ')' = false by decide]

/-- Reading a call adds the name that is called. -/
theorem Scan.read_call {name : String} (hname : IsWord name) (hne : name ≠ "") (called : List String) :
    (name ++ "(state)").toList.foldl Scan.read { called } = { called := called ++ [name] } := by
  have hword : name.toList ≠ [] := by simpa using hne
  have hopen : Scan.read { word := name.toList, called } '(' = { called := called ++ [name] } := by
    simp [Scan.read, show isWord '(' = false by decide, hword]
  have hargument : IsWord "state" := by decide
  have hsplit : "(state)".toList = '(' :: ("state".toList ++ [')']) := rfl
  rw [String.toList_append, List.foldl_append, Scan.read_word hname, List.nil_append, hsplit, List.foldl_cons, hopen,
    List.foldl_append, Scan.read_word hargument, List.foldl_cons, List.foldl_nil, Scan.read_close]

theorem Scan.read_calls {names : List String} (h : ∀ name ∈ names, IsWord name ∧ name ≠ "") (called : List String) :
    (", ".intercalate (names.map (· ++ "(state)"))).toList.foldl Scan.read { called } =
      { called := called ++ names } := by
  have hcomma : ∀ called, ", ".toList.foldl Scan.read { called } = { called } := fun called => by
    simp [Scan.read, show isWord ',' = false by decide, isWord_space]
  rw [String.toList_intercalate]
  induction names generalizing called with
  | nil => simp
  | cons name rest ih =>
    obtain ⟨⟨hword, hne⟩, hrest⟩ := List.forall_mem_cons.1 h
    cases rest with
    | nil => simpa using Scan.read_call hword hne called
    | cons next rest =>
      have hothers := ih hrest (called ++ [name])
      simp only [List.map_cons] at hothers ⊢
      rw [List.intercalate_cons_cons, List.foldl_append, List.foldl_append, Scan.read_call hword hne, hcomma, hothers]
      simp

theorem awaited_append {lead rest : String} (hlead : "    await ".toList.isPrefixOf lead.toList = true)
    (hread : lead.toList.foldl Scan.read {} = {}) :
    awaited (lead ++ rest) = (rest.toList.foldl Scan.read {}).called := by
  have hprefix : "    await ".toList.isPrefixOf (lead ++ rest).toList = true := by
    rw [List.isPrefixOf_iff_prefix, String.toList_append]
    exact (List.isPrefixOf_iff_prefix.1 hlead).trans (List.prefix_append _ _)
  rw [awaited, if_pos hprefix, String.toList_append, List.foldl_append, hread]

/-- The line of a stage awaits the functions of its nodes. -/
theorem awaited_stageLine (order : List String) {stage : List String} (h : stage ≠ []) :
    awaited (stageLine (identifiers order) stage) = stage.map (stepName (identifiers order)) := by
  have hname : ∀ name ∈ stage.map (stepName (identifiers order)), IsWord name ∧ name ≠ "" := by
    intro name hmem
    obtain ⟨id, -, rfl⟩ := List.mem_map.1 hmem
    refine ⟨isWord_stepName order id, fun hempty => ?_⟩
    have := congrArg String.length hempty
    rw [stepName, String.length_append] at this
    simp at this
  have hcalls : (stage.map fun id => "step_" ++ identifierOf (identifiers order) id ++ "(state)") =
      (stage.map (stepName (identifiers order))).map (· ++ "(state)") := by
    rw [List.map_map]
    rfl
  rw [stageLine, hcalls]
  have hsome : stage.map (stepName (identifiers order)) ≠ [] := by simpa using h
  generalize stage.map (stepName (identifiers order)) = names at hname hsome
  match names, hname, hsome with
  | [name], hname, _ =>
    obtain ⟨hword, hne⟩ := hname name (List.mem_cons_self ..)
    change awaited ("    await " ++ (name ++ "(state)")) = [name]
    rw [awaited_append (by decide) (by decide +kernel), Scan.read_call hword hne, List.nil_append]
  | first :: second :: rest, hname, _ =>
    change awaited ("    await asyncio.gather(" ++ ", ".intercalate ((first :: second :: rest).map (· ++ "(state)")) ++
      ")") = first :: second :: rest
    rw [String.append_assoc, awaited_append (by decide) (by decide +kernel), String.toList_append, List.foldl_append,
      Scan.read_calls hname]
    simp [Scan.read_close]

theorem map_awaited_entryLines (order : List String) {stages : List (List String)} (h : ∀ stage ∈ stages, stage ≠ []) :
    (entryLines (identifiers order) stages).map awaited =
      [[], [], [], []] ++ stages.map (List.map (stepName (identifiers order))) ++ [[]] := by
  have hhead : ["", "", "async def run(invoke, variables=None):",
      "    state = _RunState(invoke, variables)"].map awaited = [[], [], [], []] := by
    decide +kernel
  have hlast : ["    return state.result()"].map awaited = [[]] := by
    decide +kernel
  have hstages : (stages.map (stageLine (identifiers order))).map awaited =
      stages.map (List.map (stepName (identifiers order))) := by
    rw [List.map_map]
    exact List.map_congr_left fun stage hstage => awaited_stageLine order (h stage hstage)
  rw [entryLines, List.map_append, List.map_append, hhead, hlast, hstages]

/-! Reading what lines define -/

def defined? (line : String) : Option String :=
  if "async def ".toList.isPrefixOf line.toList then
    some (String.ofList ((line.toList.drop "async def ".length).takeWhile isWord))
  else none

def definitions (lines : List String) : List String :=
  lines.filterMap defined?

def Indented (line : String) : Prop :=
  ∃ depth rest, line = indent (depth + 1) rest

theorem Indented.defined? {line : String} (h : Indented line) : defined? line = none := by
  obtain ⟨depth, rest, rfl⟩ := h
  have hblank : (indent (depth + 1) rest).toList = ' ' :: (List.replicate (4 * depth + 3) ' ' ++ rest.toList) := by
    rw [indent, String.toList_append, String.toList_ofList, show 4 * (depth + 1) = 4 * depth + 3 + 1 by omega,
      List.replicate_succ, List.cons_append]
  rw [Program.defined?, hblank]
  rfl

mutual

theorem Statement.indented_lines (depth : Nat) : ∀ (s : Statement), ∀ line ∈ s.lines (depth + 1), Indented line
  | .ifHolds test body, line, h => by
    rw [Statement.lines] at h
    rcases List.mem_cons.1 h with rfl | h
    · exact ⟨_, _, rfl⟩
    · exact indented_linesOf (depth + 1) body line h
  | .setSatisfied value, line, h => by
    rw [Statement.lines, List.mem_singleton] at h
    exact ⟨_, _, h⟩
  | .skip id, line, h => by
    rw [Statement.lines, List.mem_singleton] at h
    exact ⟨_, _, h⟩
  | .leave, line, h => by
    rw [Statement.lines, List.mem_singleton] at h
    exact ⟨_, _, h⟩
  | .call identifier id contained, line, h => by
    rw [Statement.lines] at h
    simp only [List.mem_cons, List.not_mem_nil, or_false] at h
    rcases h with h | h | h | h <;> exact ⟨_, _, h⟩

theorem indented_linesOf (depth : Nat) : ∀ (ss : List Statement), ∀ line ∈ linesOf (depth + 1) ss, Indented line
  | [], line, h => by
    rw [linesOf] at h
    cases h
  | s :: rest, line, h => by
    rw [linesOf] at h
    rcases List.mem_append.1 h with h | h
    · exact s.indented_lines depth line h
    · exact indented_linesOf depth rest line h

end

/-- A line that begins the definition of a function of a state. -/
theorem defined?_function {name : String} (h : IsWord name) :
    defined? ("async def " ++ name ++ "(state):") = some name := by
  have hline : ("async def " ++ name ++ "(state):").toList =
      "async def ".toList ++ (name.toList ++ '(' :: "state):".toList) := by
    simp
  rw [defined?, hline, if_pos (List.isPrefixOf_iff_prefix.2 (List.prefix_append _ _)), String.length, List.drop_left,
    List.takeWhile_append_of_pos h, List.takeWhile_cons_of_neg (by decide), List.append_nil, String.ofList_toList]

/-- The lines of a step define its function, and nothing else. -/
theorem definitions_stepLines (w : Workflow) (g : Graph) (n : Node) {identifier : String} (h : IsWord identifier) :
    definitions (stepLines w g n identifier) = ["step_" ++ identifier] := by
  have hbody : definitions (linesOf 1 (stepStatements w g n identifier)) = [] :=
    List.filterMap_eq_nil_iff.2 fun line hline => (indented_linesOf 0 _ line hline).defined?
  have hhead : defined? ("async def step_" ++ identifier ++ "(state):") = some ("step_" ++ identifier) := by
    rw [← defined?_function (isWord_append.2 ⟨by decide, h⟩), ← String.append_assoc]
    rfl
  have hempty : defined? "" = none := by rfl
  rw [definitions, stepLines, List.filterMap_cons_none hempty, List.filterMap_cons_none hempty,
    List.filterMap_cons_some hhead]
  exact congrArg _ hbody

def stepFunctions (w : Workflow) (g : Graph) (order : List String) : List String :=
  (order.filterMap g.node?).flatMap fun n => stepLines w g n (identifierOf (identifiers order) n.id)

theorem map_id_filterMap_node? {g : Graph} {order : List String} (h : ∀ id ∈ order, id ∈ g.nodeIds) :
    (order.filterMap g.node?).map Node.id = order := by
  induction order with
  | nil => rfl
  | cons id rest ih =>
    obtain ⟨hid, hrest⟩ := List.forall_mem_cons.1 h
    obtain ⟨n, hn⟩ := Graph.node?_of_mem hid
    rw [List.filterMap_cons_some hn, List.map_cons, ih hrest, Graph.node?_some_id hn]

theorem definitions_stepFunctions (w : Workflow) {g : Graph} {order : List String} (h : ∀ id ∈ order, id ∈ g.nodeIds) :
    definitions (stepFunctions w g order) = order.map (stepName (identifiers order)) := by
  have hsteps : definitions (stepFunctions w g order) =
      (order.filterMap g.node?).map fun n => stepName (identifiers order) n.id := by
    rw [definitions, stepFunctions, List.filterMap_flatMap, List.map_eq_flatMap]
    exact List.flatMap_congr fun n _ => definitions_stepLines w g n (isWord_identifierOf order n.id)
  have hids := congrArg (List.map (stepName (identifiers order))) (map_id_filterMap_node? h)
  rw [List.map_map] at hids
  rw [hsteps]
  exact hids

end Program

end Flowgraph
