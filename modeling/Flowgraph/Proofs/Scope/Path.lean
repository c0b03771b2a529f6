import Flowgraph.Proofs.Table
import Flowgraph.Proofs.Text.Split
import Flowgraph.Proofs.Wire.Field
import Flowgraph.Scope.Reference

/-! Paths to recorded outputs. A path is taken apart at its points, so that an id with a point in it is not one part
of the path but several, and the path leads to where these lead one by one. -/

namespace Flowgraph

namespace Table

theorem get?_mapValues {α β : Type} (t : Table α) (f : α → β) (key : String) :
    (t.mapValues f).get? key = (t.get? key).map f := by
  induction t with
  | nil => rfl
  | cons entry rest ih =>
    by_cases h : entry.1 = key
    · simp [mapValues, get?, h]
    · simpa [mapValues, get?, h] using ih

end Table

namespace Text

theorem trimRight_toList {s : String} (h : Trimmed s) : trimRight s.toList = s.toList := by
  have hends : trimRight (trimLeft s.toList) = s.toList := by
    have hchars := congrArg String.toList h.1
    rwa [trim, String.toList_ofList] at hchars
  rw [trimRight_eq] at hends ⊢
  conv_lhs => rw [← hends]
  rw [List.rdropWhile_idempotent, hends]

/-- Nothing is trimmed off a text that begins with no blank and ends with a trimmed text. -/
theorem trim_append {c : Char} {cs : List Char} {s t : String} (hs : s.toList = c :: cs) (hc : isBlank c = false)
    (ht : Trimmed t) : trim (s ++ t) = s ++ t := by
  have hlist : (s ++ t).toList = c :: (cs ++ t.toList) := by simp [hs]
  have hleft : trimLeft (c :: (cs ++ t.toList)) = c :: (cs ++ t.toList) := by
    rw [trimLeft, List.dropWhile_cons_of_neg (by simp [hc])]
  have hne : t.toList ≠ [] := by simpa using ht.2
  have hright : trimRight (c :: (cs ++ t.toList)) = c :: (cs ++ t.toList) := by
    have hend := trimRight_toList ht
    rw [trimRight_eq, List.rdropWhile_eq_self_iff] at hend ⊢
    intro _
    simpa [List.getLast_cons, List.getLast_append, hne] using hend hne
  rw [trim, hlist, trimChars, hleft, hright, ← hlist, String.ofList_toList]

end Text

theorem Objects.follow_none {α : Type} (o : Objects α) (parts : List String) : o.follow none parts = .ok none := by
  rw [follow]

namespace Scope

def segments (text : String) : List String :=
  (text.splitOn ".").filter (· ≠ "")

def outputPath (id field : String) : String :=
  "nodes." ++ id ++ "." ++ field

section
variable {s : Scope} {node : Option String} {id field a b : String}

theorem splitOn_point (text : String) : text.splitOn "." = (text.toList.splitOn '.').map String.ofList :=
  Text.splitOn_singleton text '.'

theorem segments_append (a b : String) : segments (a ++ "." ++ b) = segments a ++ segments b := by
  have hlist : (a ++ "." ++ b).toList = a.toList ++ '.' :: b.toList := by simp
  simp only [segments, splitOn_point, hlist, List.splitOn_append_cons_self, List.map_append, List.filter_append]

/-- A text without a point is its only part. -/
theorem segments_of_not_mem (hne : a ≠ "") (h : '.' ∉ a.toList) : segments a = [a] := by
  simp [segments, splitOn_point, List.splitOn_eq_singleton h, hne]

theorem not_mem_of_mem_segments (h : b ∈ segments a) : '.' ∉ b.toList := by
  obtain ⟨hb, -⟩ := List.mem_filter.1 h
  rw [splitOn_point] at hb
  obtain ⟨piece, hpiece, rfl⟩ := List.mem_map.1 hb
  intro hpoint
  rw [String.toList_ofList] at hpoint
  exact (Text.mem_of_mem_splitOn hpiece '.' hpoint).2 rfl

/-- Where a path into recorded outputs leads: first by the parts of the id, then by the field. -/
theorem resolvePath_outputPath (hfield : Text.Trimmed field) (hpoint : '.' ∉ field.toList) :
    s.resolvePath node (outputPath id field) = Value.objects.follow (some s.outputsValue) (segments id ++ [field]) := by
  have hpath : outputPath id field = "nodes" ++ "." ++ (id ++ "." ++ field) := by
    simp [outputPath, String.append_assoc]
  have htrim : Text.trim (outputPath id field) = outputPath id field := by
    have hchars : ("nodes." ++ id ++ ".").toList = 'n' :: ("odes.".toList ++ id.toList ++ ".".toList) := by simp
    exact Text.trim_append hchars (by decide) hfield
  have hnodes : segments "nodes" = ["nodes"] := segments_of_not_mem (by decide) (by decide)
  have hparts : pathParts (outputPath id field) = "nodes" :: (segments id ++ [field]) := by
    change segments (Text.trim (outputPath id field)) = _
    rw [htrim, hpath, segments_append, segments_append, hnodes, segments_of_not_mem hfield.2 hpoint]
    rfl
  unfold resolvePath Context.resolvePath
  rw [hparts]
  rfl

theorem follow_outputsValue (part : String) (rest : List String) :
    Value.objects.follow (some s.outputsValue) (part :: rest) =
      Value.objects.follow ((s.outputs.get? part).map Value.object) rest := by
  rw [outputsValue, Objects.follow]
  change Value.objects.follow (Table.get? (s.outputs.mapValues Value.object) part) rest = _
  rw [Table.get?_mapValues]

/-- The path of a step leads to all that it has recorded if its id is one part. -/
theorem resolvePath_nodes (hid : Text.Trimmed id) (hpoint : '.' ∉ id.toList) :
    s.resolvePath node ("nodes." ++ id) = .ok ((s.outputs.get? id).map Value.object) := by
  have htrim : Text.trim ("nodes." ++ id) = "nodes." ++ id := by
    have hchars : "nodes.".toList = 'n' :: "odes.".toList := by simp
    exact Text.trim_append hchars (by decide) hid
  have hnodes : segments "nodes" = ["nodes"] := segments_of_not_mem (by decide) (by decide)
  have hparts : pathParts ("nodes." ++ id) = ["nodes", id] := by
    change segments (Text.trim ("nodes." ++ id)) = _
    rw [htrim]
    change segments ("nodes" ++ "." ++ id) = _
    rw [segments_append, hnodes, segments_of_not_mem hid.2 hpoint]
    rfl
  unfold resolvePath Context.resolvePath
  rw [hparts]
  change Value.objects.follow (some s.outputsValue) [id] = _
  rw [follow_outputsValue]
  cases s.outputs.get? id <;> rfl

def lone (id : String) (outputs : Fields) : Scope :=
  (make [] []).recordOutput id outputs

theorem outputs_lone (id : String) (outputs : Fields) : (lone id outputs).outputs = [(id, outputs)] := rfl

/-- What a step with a point in its id has recorded is not found: no step has the id that the path leads to. -/
theorem resolvePath_lone_of_point (hfield : Text.Trimmed field) (hpoint : '.' ∉ field.toList)
    (hdotted : '.' ∈ id.toList) (outputs : Fields) :
    (lone id outputs).resolvePath node (outputPath id field) = .ok none := by
  have hother : ∀ part, '.' ∉ part.toList → (lone id outputs).outputs.get? part = none := by
    intro part hpart
    have hdiffer : id ≠ part := by
      rintro rfl
      exact hpart hdotted
    simp [outputs_lone, Table.get?, hdiffer]
  rw [resolvePath_outputPath hfield hpoint]
  cases hparts : segments id with
  | nil =>
    rw [List.nil_append, follow_outputsValue, hother field hpoint]
    exact Objects.follow_none _ _
  | cons part rest =>
    have hpart : part ∈ segments id := by simp [hparts]
    rw [List.cons_append, follow_outputsValue, hother part (not_mem_of_mem_segments hpart)]
    exact Objects.follow_none _ _

/-- Every field of every output that has been recorded for a step is found by its path, whatever else the context
holds, if and only if there is no point in the id of the step. -/
theorem resolvePath_outputPath_iff {v : Value} (hid : Reading.identifier v = .accepted id)
    (hfield : Text.Trimmed field) (hplain : ∀ c ∈ field.toList, c ≠ '.' ∧ c ≠ '\x7b' ∧ c ≠ '\x7d') :
    (∀ (s : Scope) node outputs, s.outputs.get? id = some outputs →
      s.resolvePath node (outputPath id field) = .ok (Table.get? outputs field)) ↔ '.' ∉ id.toList := by
  have hpoint : '.' ∉ field.toList := fun hmem => (hplain '.' hmem).1 rfl
  have hne : id ≠ "" := by
    obtain ⟨raw, -, hraw, rfl⟩ := Reading.identifier_eq_accepted.1 hid
    exact hraw
  constructor
  · intro h hdotted
    have hfound := h (lone id [(field, .null)]) none [(field, .null)] (by simp [outputs_lone, Table.get?])
    rw [resolvePath_lone_of_point hfield hpoint hdotted] at hfound
    simp [Table.get?] at hfound
  · intro hid s node outputs houtputs
    rw [resolvePath_outputPath hfield hpoint, segments_of_not_mem hne hid, List.singleton_append,
      follow_outputsValue, houtputs]
    change Value.objects.follow (Table.get? outputs field) [] = _
    cases Table.get? outputs field <;> rfl

end

/-- A step whose id has no point, and blanks around it in its payload. -/
theorem resolvePath_outputPath_iff_fetch :
    Reading.identifier (.text " fetch ") = .accepted "fetch" ∧ Text.Trimmed "status" ∧
      (∀ c ∈ "status".toList, c ≠ '.' ∧ c ≠ '\x7b' ∧ c ≠ '\x7d') ∧
      (lone "fetch" [("body", .null), ("status", .int 200)]).resolvePath none "nodes.fetch.status" =
        .ok (some (.int 200)) := by
  have hid : Reading.identifier (.text " fetch ") = .accepted "fetch" := by rfl
  have hfield : Text.Trimmed "status" := by decide
  have hplain : ∀ c ∈ "status".toList, c ≠ '.' ∧ c ≠ '\x7b' ∧ c ≠ '\x7d' := by simp
  refine ⟨hid, hfield, hplain, ?_⟩
  have hfound := (resolvePath_outputPath_iff hid hfield hplain).2 (by decide)
  exact hfound (lone "fetch" [("body", .null), ("status", .int 200)]) none _ rfl

/-- The output of a step with a point in its id is not found. In its place a field of another step's output is, if
that has one. -/
theorem dotted_output_lost :
    Reading.identifier (.text "a.b") = .accepted "a.b" ∧ Text.Trimmed "x" ∧
      (lone "a.b" [("x", .int 1)]).resolvePath none "nodes.a.b.x" = .ok none ∧
      ((lone "a.b" [("x", .int 1)]).recordOutput "a" [("b", .object [("x", .int 2)])]).resolvePath none "nodes.a.b.x" =
        .ok (some (.int 2)) := by
  have hfield : Text.Trimmed "x" := by decide
  have hparts : segments "a.b" = ["a", "b"] := by
    change segments ("a" ++ "." ++ "b") = _
    rw [segments_append, segments_of_not_mem (by decide) (by decide), segments_of_not_mem (by decide) (by decide)]
    rfl
  refine ⟨by rfl, hfield, ?_, ?_⟩
  · exact resolvePath_lone_of_point hfield (by decide) (by decide) _
  · change Scope.resolvePath _ none (outputPath "a.b" "x") = _
    rw [resolvePath_outputPath hfield (by decide), hparts]
    rfl

end Scope

end Flowgraph
