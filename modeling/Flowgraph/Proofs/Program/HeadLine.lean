import Flowgraph.Proofs.Program.Acceptance

/-! Where a program is read as it was composed. The id and the version of the workflow stand in the head line as they
are, so a line end in one of them breaks that line; no other text of a workflow breaks a line. -/

namespace Flowgraph

open Text Expression

namespace Program

/-- The text of a program is read as the lines that were composed, a comment and the preamble in front, if and
only if no line ends in the id or in the version of the workflow. Whatever the other texts are, all lines but
the comment are whole. -/
theorem program_read_iff {e : Emitter} {w : Workflow} {emission : Emission String} {code : String}
    (h : e.program w = .ok emission) (hcode : emission.form = some code) :
    ∃ order rest, (Graph.ofWorkflow w).topologicalOrder = .ok order ∧
      Program.lines e w (Graph.ofWorkflow w) order = .ok (headLine w :: preamble ++ rest) ∧
      code = String.ofList (chars (headLine w :: preamble ++ rest)) ∧
      (headLine w).toList.head? = some '#' ∧ Unbroken (preamble ++ rest) ∧
      (splitLines (unifyLines code.toList) = (headLine w :: preamble ++ rest).map String.toList ++ [[]] ↔
        IsLine w.id ∧ IsLine w.version) := by
  obtain ⟨order, lines, horder, hlines, rfl⟩ := program_eq_ok h hcode
  obtain ⟨rest, rfl, hrest⟩ := lines_eq_ok hlines
  have hunbroken : Unbroken (preamble ++ rest) := unbroken_append.2 ⟨unbroken_preamble, hrest⟩
  refine ⟨order, rest, horder, hlines, rfl, head?_headLine w, hunbroken, ?_⟩
  rw [String.toList_ofList, ← isLine_headLine]
  constructor
  · intro hread
    have hhead : (headLine w).toList ∈ splitLines (unifyLines (chars (headLine w :: preamble ++ rest))) := by
      rw [hread]
      exact List.mem_append_left _ List.mem_cons_self
    exact oneLine_of_mem_splitLines hhead
  · intro hhead
    exact splitLines_chars (unbroken_cons.2 ⟨hhead, hunbroken⟩)

/-! A program that the id of its workflow extends -/

def titled (id : String) : Workflow where
  id
  name := "w"
  version := "1"
  nodes := [{ id := "a", type := .trigger, provider := "trigger", operation := "manual" }]

def smuggler : Workflow :=
  titled "w\nimport os #"

def titledRest (id : String) : List String :=
  rest (Program.lines builtinEmitter (titled id) (Graph.ofWorkflow (titled id)) ["a"])

theorem titled_smuggler : titled smuggler.id = smuggler := rfl

section
variable {id : String}

theorem passes_headLine_smuggler : Passes [headLine smuggler] True := by
  have hchars : chars [headLine smuggler] =
      chars ["" ++ "#" ++ " Generated by autoflow from workflow 'w' (w", "import os " ++ "#" ++ "), version 1"] := by
    decide
  have hcomment : Passes ["" ++ "#" ++ " Generated by autoflow from workflow 'w' (w"] True :=
    passes_comment (by decide) (isLine_ofList (by decide)) (by decide)
  have himport : Passes ["import os " ++ "#" ++ "), version 1"] True :=
    passes_comment (by decide) (isLine_ofList (by decide)) (by decide)
  have hboth := (hcomment.cons himport).congr (and_self_iff)
  exact fun rest final => by rw [hchars, hboth]

theorem passes_headLine_titled (h : id ∈ ["w", smuggler.id]) : Passes [headLine (titled id)] True := by
  rcases List.mem_cons.1 h with rfl | h
  · have hline : IsLine "w" ∧ IsLine "1" := ⟨isLine_ofList (by decide), isLine_ofList (by decide)⟩
    exact (passes_headLine (w := titled "w") hline.1 hline.2).congr (by decide)
  · obtain rfl := List.mem_singleton.1 h
    exact passes_headLine_smuggler

theorem lines_titled (h : id ∈ ["w", smuggler.id]) :
    Program.lines builtinEmitter (titled id) (Graph.ofWorkflow (titled id)) ["a"] =
      .ok (headLine (titled id) :: preamble ++ titledRest id) := by
  refine lines_eq_ok_of_isSome ?_
  revert id
  decide

theorem program_titled (h : id ∈ ["w", smuggler.id]) :
    ∃ emission, builtinEmitter.program (titled id) = .ok emission ∧
      emission.form = some (String.ofList (chars (headLine (titled id) :: preamble ++ titledRest id))) := by
  have hcallable : ∀ id ∈ ["w", smuggler.id], builtinEmitter.registry.objections (some .runtime) (titled id) = [] := by
    decide
  have hnull : ∀ id ∈ ["w", smuggler.id], (id.toList.any fun c => c.toNat = 0) = false := by decide
  have hhead : ∀ id ∈ ["w", smuggler.id], '\r' ∉ (headLine (titled id)).toList ∧
      indentFault? (spill (headLine (titled id))) = none ∧ linesFault? (spill (headLine (titled id))) = none := by
    decide
  have horder : (Graph.ofWorkflow (titled id)).topologicalOrder = .ok ["a"] := by rfl
  have hpolicy : ∀ id ∈ ["w", smuggler.id], ∀ n ∈ (titled id).nodes,
      Readable (Policy.resolve (titled id) n builtinEmitter.defaultTimeout).timeout ∧
        Readable (Policy.resolve (titled id) n builtinEmitter.defaultTimeout).retries := by
    decide
  have hwritable : ∀ n ∈ (titled id).nodes, Writable builtinEmitter (titled id) n := fun n hn =>
    ⟨List.mem_singleton.1 hn ▸ ⟨by decide, trivial⟩, (hpolicy id h n hn).1, (hpolicy id h n hn).2⟩
  have hids : ∀ n ∈ (titled id).nodes, ∀ c ∈ n.id.toList, isWord c = true → continuesIdentifier c = true :=
    List.forall_mem_singleton.2 (List.forall_mem_singleton.2 (by decide))
  have hnodup : (titled id).nodeIds.Nodup := List.nodup_singleton "a"
  have hsound := (objection?_lines_eq_none_iff_of_head hnodup (Graph.topologicalOrder_orders horder)
    (hcallable id h) (lines_titled h) (passes_headLine_titled h) (hhead id h).1 (hhead id h).2.1 (hhead id h).2.2).2
    ⟨trivial, hids, ⟨by decide, trivial⟩, hwritable⟩
  refine ⟨{ form := some (String.ofList (chars (headLine (titled id) :: preamble ++ titledRest id))) }, ?_, rfl⟩
  rw [program_of_lines (hcallable id h) horder (lines_titled h), hsound]
  exact if_neg (Bool.eq_false_iff.1 (hnull id h))

end

/-- The second line of the program is code that stands in the id, and not the empty line that was composed. -/
theorem smuggler_reads_import : ∃ emission code lines, builtinEmitter.program smuggler = .ok emission ∧
    emission.form = some code ∧
    Program.lines builtinEmitter smuggler (Graph.ofWorkflow smuggler) ["a"] = .ok lines ∧
    code = String.ofList (chars lines) ∧ lines[1]? = some "" ∧
    (splitLines (unifyLines code.toList))[1]? = some "import os #), version 1".toList := by
  have hsecond : smuggler.id ∈ ["w", smuggler.id] := List.mem_cons_of_mem _ List.mem_cons_self
  have hlines := lines_titled hsecond
  obtain ⟨emission, hemission, hcode⟩ := program_titled hsecond
  rw [titled_smuggler] at hlines hemission hcode
  refine ⟨emission, _, _, hemission, hcode, hlines, rfl, rfl, ?_⟩
  have hhead : (headLine smuggler).toList = "# Generated by autoflow from workflow 'w' (w".toList ++
      '\n' :: "import os #), version 1".toList := by
    decide
  rw [String.toList_ofList, List.cons_append, chars_cons, hhead, List.append_assoc, List.cons_append,
    splitLines_append (by decide), splitLines_append (by decide)]
  rfl

/-- With an id of one line the program is read as it was composed; that of the smuggling workflow is not. -/
theorem program_read_iff_smuggler :
    (∃ emission code, builtinEmitter.program (titled "w") = .ok emission ∧ emission.form = some code ∧
      ∃ order rest, (Graph.ofWorkflow (titled "w")).topologicalOrder = .ok order ∧
        Program.lines builtinEmitter (titled "w") (Graph.ofWorkflow (titled "w")) order =
          .ok (headLine (titled "w") :: preamble ++ rest) ∧
        splitLines (unifyLines code.toList) =
          (headLine (titled "w") :: preamble ++ rest).map String.toList ++ [[]]) ∧
    ∃ emission code, builtinEmitter.program smuggler = .ok emission ∧ emission.form = some code ∧
      ∃ order rest, (Graph.ofWorkflow smuggler).topologicalOrder = .ok order ∧
        Program.lines builtinEmitter smuggler (Graph.ofWorkflow smuggler) order =
          .ok (headLine smuggler :: preamble ++ rest) ∧
        splitLines (unifyLines code.toList) ≠ (headLine smuggler :: preamble ++ rest).map String.toList ++ [[]] := by
  constructor
  · obtain ⟨emission, hemission, hcode⟩ := program_titled List.mem_cons_self
    obtain ⟨order, rest, horder, hlines, -, -, -, hread⟩ := program_read_iff hemission hcode
    have hlasting : IsLine (titled "w").id ∧ IsLine (titled "w").version := by
      unfold IsLine
      decide
    exact ⟨emission, _, hemission, hcode, order, rest, horder, hlines, hread.2 hlasting⟩
  · obtain ⟨emission, hemission, hcode⟩ := program_titled (List.mem_cons_of_mem _ List.mem_cons_self)
    rw [titled_smuggler] at hemission hcode
    obtain ⟨order, rest, horder, hlines, -, -, -, hread⟩ := program_read_iff hemission hcode
    have hid : ¬ IsLine smuggler.id := by
      unfold IsLine
      decide
    exact ⟨emission, _, hemission, hcode, order, rest, horder, hlines, fun heq => hid (hread.1 heq).1⟩

end Program

end Flowgraph
