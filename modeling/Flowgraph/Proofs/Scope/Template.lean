import Flowgraph.Scope.Guard
import Mathlib.Data.List.DropRight
import Mathlib.Data.List.TakeWhile
import Mathlib.Tactic

/-! Texts with references. A text without any is itself when it is filled in, whatever the variables are. A
text that is one reference is filled in with the value itself, and as an expression it is true when that value
is. -/

namespace Flowgraph

namespace Template

def Plain (text : String) : Prop :=
  ∀ path, Part.reference path ∉ parts text

section
variable {cs rest tail : List Char} {c : Char} {ps : List Part} {path text : String} {steps : Nat}

theorem readReference_eq_some : readReference cs = some (path, tail) ↔
    ∃ body, cs = '\x7b' :: '\x7b' :: (body ++ '\x7d' :: '\x7d' :: tail) ∧ body ≠ [] ∧
      (∀ c ∈ body, c ≠ '\x7b' ∧ c ≠ '\x7d') ∧ path = String.ofList (Text.trimChars body) := by
  constructor
  · intro h
    unfold readReference at h
    split at h
    · next rest =>
      dsimp only at h
      have hsplit := List.takeWhile_append_dropWhile
        (p := fun c : Char => decide (c ≠ '\x7b') && decide (c ≠ '\x7d')) (l := rest)
      have hbody : ∀ c ∈ rest.takeWhile (fun c => decide (c ≠ '\x7b') && decide (c ≠ '\x7d')),
          c ≠ '\x7b' ∧ c ≠ '\x7d' := fun c hc => by simpa using List.all_eq_true.1 List.all_takeWhile c hc
      revert h hsplit hbody
      generalize rest.takeWhile (fun c => decide (c ≠ '\x7b') && decide (c ≠ '\x7d')) = body
      generalize rest.dropWhile (fun c => decide (c ≠ '\x7b') && decide (c ≠ '\x7d')) = after
      rintro h rfl hbody
      rw [List.drop_left] at h
      split at h
      · split_ifs at h with hempty
        cases h
        exact ⟨body, rfl, by simpa using hempty, hbody, rfl⟩
      · cases h
    · cases h
  · rintro ⟨body, rfl, hne, hbody, rfl⟩
    have htake : (body ++ '\x7d' :: '\x7d' :: tail).takeWhile
        (fun c => decide (c ≠ '\x7b') && decide (c ≠ '\x7d')) = body := by
      rw [List.takeWhile_append_of_pos fun c hc => by simpa using hbody c hc]
      simp
    simp only [readReference, htake, List.drop_left, List.isEmpty_iff, hne, if_false]

theorem readReference_append (h : readReference cs = some (path, tail)) (more : List Char) :
    readReference (cs ++ more) = some (path, tail ++ more) := by
  obtain ⟨body, rfl, hne, hbody, rfl⟩ := readReference_eq_some.1 h
  exact readReference_eq_some.2 ⟨body, by simp, hne, hbody, rfl⟩

theorem length_readReference (h : readReference cs = some (path, tail)) : tail.length + 4 < cs.length := by
  obtain ⟨body, rfl, hne, -, -⟩ := readReference_eq_some.1 h
  have := List.length_pos_of_ne_nil hne
  simp only [List.length_cons, List.length_append]
  omega

theorem reference_mem_consPlain : Part.reference path ∈ consPlain c ps ↔ Part.reference path ∈ ps := by
  unfold consPlain
  split <;> simp

/-- A reference that stands behind other characters is not missed, unless an earlier one is found. -/
theorem exists_reference_mem_split (before : List Char) (h : readReference cs = some (path, tail))
    (hsteps : (before ++ cs).length ≤ steps) : ∃ path, Part.reference path ∈ split steps (before ++ cs) := by
  induction before generalizing steps with
  | nil =>
    obtain ⟨body, hcs, -⟩ := readReference_eq_some.1 h
    rw [List.nil_append] at hsteps ⊢
    cases steps with
    | zero =>
      rw [hcs] at hsteps
      cases hsteps
    | succ n =>
      rw [hcs] at h ⊢
      exact ⟨path, by rw [split, h]; exact List.mem_cons_self⟩
  | cons c before ih =>
    rw [List.cons_append] at hsteps ⊢
    cases steps with
    | zero => cases hsteps
    | succ n =>
      rw [split]
      split
      · exact ⟨_, List.mem_cons_self⟩
      · obtain ⟨found, hfound⟩ := ih (Nat.le_of_succ_le_succ hsteps)
        exact ⟨found, reference_mem_consPlain.2 hfound⟩

/-- What is trimmed off a text is blank and stands at its two ends. -/
theorem exists_trimChars (cs : List Char) : ∃ before after, (∀ c ∈ before, Text.isBlank c = true) ∧
    (∀ c ∈ after, Text.isBlank c = true) ∧ cs = before ++ Text.trimChars cs ++ after := by
  refine ⟨cs.takeWhile Text.isBlank, (Text.trimLeft cs).rtakeWhile Text.isBlank,
    fun c hc => List.mem_takeWhile_imp hc, fun c hc => List.mem_rtakeWhile_imp hc, ?_⟩
  have hright : Text.trimChars cs ++ (Text.trimLeft cs).rtakeWhile Text.isBlank = Text.trimLeft cs :=
    List.rdropWhile_append_rtakeWhile
  rw [List.append_assoc, hright]
  exact List.takeWhile_append_dropWhile.symm

theorem Plain.whole?_eq_none (h : Plain text) : whole? text = none := by
  unfold whole?
  rw [Text.trim, String.toList_ofList]
  split
  · next path hread =>
    obtain ⟨before, after, -, -, htext⟩ := exists_trimChars text.toList
    rw [List.append_assoc] at htext
    have hlength : (before ++ (Text.trimChars text.toList ++ after)).length ≤ text.length := by
      rw [← htext, String.length_toList]
    obtain ⟨found, hfound⟩ := exists_reference_mem_split before (readReference_append hread after) hlength
    rw [← htext] at hfound
    exact absurd hfound (h found)
  · rfl

/-! Texts that are one reference -/

theorem split_eq_singleton (h : split steps cs = [.reference path]) (hsteps : cs.length ≤ steps) :
    readReference cs = some (path, []) := by
  cases steps with
  | zero => cases h
  | succ n =>
    cases cs with
    | nil => cases h
    | cons c rest =>
      rw [split] at h
      split at h
      · next found tail hread =>
        obtain ⟨hpath, htail⟩ := List.cons_eq_cons.1 h
        cases hpath
        have hlt := length_readReference hread
        cases tail with
        | nil => exact hread
        | cons c' tail =>
          cases n with
          | zero => simp only [List.length_cons] at hlt hsteps; omega
          | succ n =>
            rw [split] at htail
            split at htail
            · cases htail
            · unfold consPlain at htail
              split at htail <;> cases htail
      · unfold consPlain at h
        split at h <;> cases h

/-- Blanks are trimmed off braces only from outside. -/
theorem trimChars_of_readReference (h : readReference cs = some (path, [])) : Text.trimChars cs = cs := by
  obtain ⟨body, rfl, -, -, -⟩ := readReference_eq_some.1 h
  have hleft : Text.trimLeft ('\x7b' :: '\x7b' :: (body ++ ['\x7d', '\x7d'])) =
      '\x7b' :: '\x7b' :: (body ++ ['\x7d', '\x7d']) := List.dropWhile_cons_of_neg (by decide)
  rw [Text.trimChars, hleft, Text.trimRight]
  have hreverse : ('\x7b' :: '\x7b' :: (body ++ ['\x7d', '\x7d'])).reverse =
      '\x7d' :: '\x7d' :: (body.reverse ++ ['\x7b', '\x7b']) := by simp
  rw [hreverse, List.dropWhile_cons_of_neg (by decide), ← hreverse, List.reverse_reverse]

theorem whole?_of_parts (h : parts text = [.reference path]) : whole? text = some path := by
  have hread := split_eq_singleton h (by rw [String.length_toList])
  unfold whole?
  rw [Text.trim, String.toList_ofList, trimChars_of_readReference hread, hread]

theorem allBlank_of_parts (h : parts text = [.reference path]) : Text.allBlank text = false := by
  obtain ⟨body, htext, -⟩ := readReference_eq_some.1 (split_eq_singleton h (by rw [String.length_toList]))
  rw [Text.allBlank, htext]
  rfl

end

end Template

namespace Scope

open Template

section
variable {s : Scope} {node : Option String} {text path : String} {c : Char} {ps : List Part} {steps : Nat}
  {cs : List Char}

def filledParts (s : Scope) (node : Option String) (ps : List Part) : Except Failure String :=
  (ps.mapM (s.fillPart node)).map String.join

theorem filledParts_plain (cs : List Char) (ps : List Part) :
    s.filledParts node (.plain cs :: ps) = (s.filledParts node ps).map (String.ofList cs ++ ·) := by
  unfold filledParts
  rw [List.mapM_cons]
  cases ps.mapM (s.fillPart node) with
  | error f => rfl
  | ok texts =>
    change Except.ok (String.join (String.ofList cs :: texts)) = Except.ok (String.ofList cs ++ String.join texts)
    rw [String.join_cons]

theorem filledParts_consPlain (c : Char) (ps : List Part) :
    s.filledParts node (consPlain c ps) = (s.filledParts node ps).map (String.ofList [c] ++ ·) := by
  unfold consPlain
  split
  · next cs rest =>
    rw [filledParts_plain, filledParts_plain]
    cases s.filledParts node rest with
    | error f => rfl
    | ok t =>
      change Except.ok (String.ofList ([c] ++ cs) ++ t) = Except.ok (String.ofList [c] ++ (String.ofList cs ++ t))
      rw [String.ofList_append, String.append_assoc]
  · exact filledParts_plain [c] ps

theorem filledParts_split (h : ∀ path, Part.reference path ∉ split steps cs) (hsteps : cs.length ≤ steps) :
    s.filledParts node (split steps cs) = .ok (String.ofList cs) := by
  induction steps generalizing cs with
  | zero =>
    rw [List.length_eq_zero_iff.1 (Nat.le_zero.1 hsteps)]
    rfl
  | succ n ih =>
    cases cs with
    | nil => rfl
    | cons c rest =>
      rw [split] at h ⊢
      split at h
      · next found tail _ => exact absurd List.mem_cons_self (h found)
      · rw [filledParts_consPlain, ih (fun path hp => h path (reference_mem_consPlain.2 hp))
          (Nat.le_of_succ_le_succ hsteps)]
        change Except.ok (String.ofList [c] ++ String.ofList rest) = _
        rw [← String.ofList_append]
        rfl

theorem fillText_of_whole?_eq_none (h : whole? text = none) :
    s.fillText node text = (s.filledParts node (parts text)).map Value.text := by
  unfold fillText filledParts
  rw [h]
  cases (parts text).mapM (s.fillPart node) <;> rfl

/-- A text without references is filled in with itself. -/
theorem fillText_plain (h : Plain text) : s.fillText node text = .ok (.text text) := by
  have hparts : s.filledParts node (parts text) = .ok (String.ofList text.toList) :=
    filledParts_split h (by rw [String.length_toList])
  rw [fillText_of_whole?_eq_none h.whole?_eq_none, hparts, String.ofList_toList]
  rfl

/-- A text that is one reference is filled in with the value that it leads to. -/
theorem fillText_reference {found : Option Value} (h : parts text = [.reference path])
    (hv : s.resolvePath node path = .ok found) : s.fillText node text = .ok (found.getD .null) := by
  unfold fillText
  rw [whole?_of_parts h]
  dsimp only
  rw [hv]
  rfl

end

end Scope

namespace Expression

theorem parse_placeholder : parse "__ref0" = some (.name "__ref0") := rfl

theorem evaluate_placeholder {names : Names} {d : Datum} (h : names "__ref0" = some d) :
    evaluate names "__ref0" = some d := by
  have hrun : ∀ n, (eval names (n + 1) (.name "__ref0")).run {} = .ok (d, {}) := fun n => by
    rw [eval]
    unfold lookUp
    simp only [h]
    rfl
  unfold evaluate
  rw [parse_placeholder, show depthFor "__ref0" = 4023 + 1 from rfl]
  simp only [Option.bind_eq_bind, Option.bind_some]
  rw [hrun]

end Expression

theorem Datum.truthy_ofValue (v : Value) : (Datum.ofValue v).truthy = v.truthy := by
  cases v with
  | list items => cases items <;> rfl
  | object fields => cases fields <;> rfl
  | _ => rfl

namespace Scope

variable {s : Scope} {node : Option String} {text path : String}

theorem evaluate_of_bind {source : String} {bound : Fields} (hblank : Text.allBlank text = false)
    (hbind : s.context.bindReferences .null node [] (Template.parts text) = .ok (source, bound)) :
    s.evaluate node text = .ok ((Expression.evaluate
      (Expression.seen (Context.visible Datum.functionNames bound (s.names node))) source).map Datum.truthy
        |>.getD false) := by
  unfold evaluate Context.evaluate
  rw [if_neg (by rw [hblank]; exact Bool.false_ne_true), show Expression.language.null = .null from rfl, hbind]
  rfl

/-- As an expression, a text that is one reference is true when the value that it leads to is. -/
theorem evaluate_reference {found : Option Value} (h : Template.parts text = [.reference path])
    (hv : s.resolvePath node path = .ok found) : s.evaluate node text = .ok (found.getD .null).truthy := by
  have hv' : s.context.resolvePath node path = .ok found := hv
  have hbind : s.context.bindReferences .null node [] (Template.parts text) =
      .ok ("__ref0", [("__ref0", found.getD .null)]) := by
    rw [h]
    simp only [Context.bindReferences, hv']
    rfl
  have hname : Expression.seen (Context.visible Datum.functionNames [("__ref0", found.getD .null)] (s.names node))
      "__ref0" = some (Datum.ofValue (found.getD .null)) := by
    unfold Expression.seen Context.visible
    rw [if_neg (by decide)]
    rfl
  rw [evaluate_of_bind (Template.allBlank_of_parts h) hbind, Expression.evaluate_placeholder hname]
  exact congrArg Except.ok (Datum.truthy_ofValue _)

/-! Fields -/

/-- Filling in leaves the keys as they are; what one stands for is filled in by itself. -/
theorem get?_fillFields {fields filled : Fields} (h : s.fillFields node fields = .ok filled) (key : String) :
    match Table.get? fields key with
    | none => Table.get? filled key = none
    | some v => ∃ v', s.fill node v = .ok v' ∧ Table.get? filled key = some v' := by
  induction fields generalizing filled with
  | nil =>
    rw [fillFields] at h
    cases h
    rfl
  | cons entry rest ih =>
    obtain ⟨k, v⟩ := entry
    rw [fillFields] at h
    cases hv : s.fill node v with
    | error f =>
      rw [hv] at h
      cases h
    | ok v' =>
      cases hrest : s.fillFields node rest with
      | error f =>
        rw [hv, hrest] at h
        cases h
      | ok filledRest =>
        rw [hv, hrest] at h
        cases h
        unfold Table.get?
        by_cases hk : k = key
        · rw [if_pos hk, if_pos hk]
          exact ⟨v', hv, rfl⟩
        · rw [if_neg hk, if_neg hk]
          exact ih hrest

theorem fill_getD {fields filled : Fields} (h : s.fillFields node fields = .ok filled) (key : String) :
    s.fill node (Table.getD fields key .null) = .ok (Table.getD filled key .null) := by
  have hkey := get?_fillFields h key
  unfold Table.getD
  split at hkey
  · next hnone =>
    rw [hnone, hkey, Option.getD_none]
    rfl
  · next v hsome =>
    obtain ⟨v', hfill, hget⟩ := hkey
    rw [hsome, hget, Option.getD_some, Option.getD_some, hfill]

end Scope

end Flowgraph
