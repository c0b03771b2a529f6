import Flowgraph.Proofs.Failing
import Flowgraph.Proofs.Scope.Path
import Flowgraph.Proofs.Scope.Template
import Flowgraph.Proofs.Text.Ranges

/-! What keeps a guard from being decided. Evaluation itself never fails: what goes wrong in it counts as false.
The references of the guard are followed before, and one of them breaks off where its path enters a sequence with a
part that looks like an index and is no number, or where an attribute cannot be looked up. The guard changes nothing
but what its expression does. -/

namespace Flowgraph

open Text Decimal

namespace Decimal

variable {c : Char} {ds : List Char}

theorem readSign_of_isDigit (h : isDigit c = true) : readSign (c :: ds) = (false, c :: ds) := by
  unfold readSign
  split
  · next heq =>
    obtain rfl : c = '-' := (List.cons_eq_cons.1 heq).1
    exact absurd h (by decide)
  · next heq =>
    obtain rfl : c = '+' := (List.cons_eq_cons.1 heq).1
    exact absurd h (by decide)
  · rfl

/-- Digits that have a value are read to the end. -/
theorem spanDigits_of_isDecimal (h : ∀ c ∈ ds, isDecimal c = true) :
    (spanDigits ds).1.length = ds.length ∧ (spanDigits ds).2 = [] := by
  induction ds with
  | nil => exact ⟨rfl, rfl⟩
  | cons c rest ih =>
    obtain ⟨hc, hrest⟩ := List.forall_mem_cons.1 h
    obtain ⟨d, hd⟩ := Option.isSome_iff_exists.1 ((isSome_decimalValue? c).trans hc)
    obtain ⟨hlength, hend⟩ := ih hrest
    unfold spanDigits
    rw [hd]
    exact ⟨congrArg (· + 1) hlength, hend⟩

/-- A digit without a value is not read over. -/
theorem spanDigits_ne_nil (hdigit : ∀ c ∈ ds, isDigit c = true) (h : ∃ c ∈ ds, isDecimal c = false) :
    (spanDigits ds).2 ≠ [] := by
  induction ds with
  | nil => simp at h
  | cons c rest ih =>
    obtain ⟨hc, hrest⟩ := List.forall_mem_cons.1 hdigit
    unfold spanDigits
    cases hd : decimalValue? c with
    | some d =>
      have hdecimal : isDecimal c = true := by rw [← isSome_decimalValue?, hd]; rfl
      obtain ⟨e, he, hnone⟩ := h
      rcases List.mem_cons.1 he with rfl | he
      · rw [hdecimal] at hnone
        cases hnone
      · exact ih hrest ⟨e, he, hnone⟩
    | none =>
      have hlow : c ≠ '_' := by
        rintro rfl
        exact absurd hc (by decide)
      simp [hlow]

/-- A text of digits is a number exactly if all its digits have a value and there are not too many. -/
theorem readDigits_isDigit (hne : ds ≠ []) (hdigit : ∀ c ∈ ds, isDigit c = true) :
    (∃ values, readDigits ds = some (values, []) ∧ values.length ≤ digitLimit) ↔
      (∀ c ∈ ds, isDecimal c = true) ∧ ds.length ≤ digitLimit := by
  by_cases hall : ∀ c ∈ ds, isDecimal c = true
  · obtain ⟨hlength, hend⟩ := spanDigits_of_isDecimal hall
    have hstart : startsWithDigit ds = true := by
      cases ds with
      | nil => exact absurd rfl hne
      | cons c rest => exact hall c List.mem_cons_self
    have hread : readDigits ds = some ((spanDigits ds).1, []) := by
      rw [readDigits, if_pos hstart, ← hend]
    rw [hread, and_iff_right hall, ← hlength]
    simp
  · refine iff_of_false ?_ fun h => hall h.1
    rintro ⟨values, hread, -⟩
    unfold readDigits at hread
    split_ifs at hread
    refine spanDigits_ne_nil hdigit ?_ (congrArg Prod.snd (Option.some.inj hread))
    simpa using hall

/-- A text without blanks around it is a whole number if digits that are not too many stand behind its sign. -/
theorem readInteger_eq_ok {cs body : List Char} {negative : Bool} (htrim : trimChars cs = cs)
    (hsign : readSign cs = (negative, body)) :
    (∃ n, readInteger cs = .ok n) ↔ ∃ values, readDigits body = some (values, []) ∧ values.length ≤ digitLimit := by
  unfold readInteger
  rw [htrim, hsign]
  dsimp only
  split
  · next values hread =>
    rw [hread]
    split_ifs with hlimit
    · simpa using hlimit
    · simpa using hlimit
    · simpa using hlimit
  · next hread =>
    refine iff_of_false nofun ?_
    rintro ⟨values, hvalues, -⟩
    exact hread values hvalues

end Decimal

namespace Template

/-- Where a reference is found, there are braces. -/
theorem brace_mem_of_reference_mem {path : String} {steps : Nat} {cs : List Char}
    (h : Part.reference path ∈ split steps cs) : '\x7b' ∈ cs := by
  induction steps generalizing cs with
  | zero => cases h
  | succ n ih =>
    cases cs with
    | nil => cases h
    | cons c rest =>
      rw [split] at h
      split at h
      · next found tail hread =>
        obtain ⟨body, hcs, -⟩ := readReference_eq_some.1 hread
        rw [hcs]
        exact List.mem_cons_self
      · exact List.mem_cons_of_mem c (ih (reference_mem_consPlain.1 h))

theorem not_allBlank_of_reference_mem {path text : String} (h : Part.reference path ∈ parts text) :
    allBlank text = false := by
  rw [allBlank, List.all_eq_false]
  exact ⟨'\x7b', brace_mem_of_reference_mem h, by decide⟩

end Template

namespace Scope

def hyphens (part : String) : List Char :=
  part.toList.takeWhile (· = '-')

def indexDigits (part : String) : List Char :=
  part.toList.dropWhile (· = '-')

/-- A part that looks like an index but is no number: it has more than one hyphen, a digit that has no decimal
value, or too many digits. -/
def Misnumbered (part : String) : Prop :=
  isIndex part = true ∧
    (1 < (hyphens part).length ∨ (∃ c ∈ indexDigits part, isDecimal c = false) ∨
      digitLimit < (indexDigits part).length)

section
variable {part : String}

/-! Parts -/

theorem isIndex_iff : isIndex part = true ↔
    indexDigits part ≠ [] ∧ ∀ c ∈ indexDigits part, isDigit c = true := by
  unfold isIndex
  change (!(indexDigits part).isEmpty && (indexDigits part).all isDigit) = true ↔ _
  rw [Bool.and_eq_true, List.all_eq_true, Bool.not_eq_true', ← Bool.not_eq_true, List.isEmpty_iff]

theorem hyphens_append_indexDigits (part : String) : hyphens part ++ indexDigits part = part.toList :=
  List.takeWhile_append_dropWhile

theorem hyphens_eq_replicate (part : String) : hyphens part = List.replicate (hyphens part).length '-' := by
  refine List.eq_replicate_iff.2 ⟨rfl, fun c hc => ?_⟩
  exact of_decide_eq_true (List.all_eq_true.1 List.all_takeWhile c hc)

/-- Nothing is trimmed off a part that looks like an index. -/
theorem trimChars_of_isIndex (h : isIndex part = true) : trimChars part.toList = part.toList := by
  obtain ⟨hne, hdigit⟩ := isIndex_iff.1 h
  have hblank : ∀ c ∈ part.toList, isBlank c = false := by
    intro c hc
    rw [← hyphens_append_indexDigits, hyphens_eq_replicate] at hc
    rcases List.mem_append.1 hc with hc | hc
    · rw [List.eq_of_mem_replicate hc]
      decide
    · exact not_isBlank_of_isDigit (hdigit c hc)
  have hkept : ∀ cs : List Char, (∀ c ∈ cs, isBlank c = false) → cs.dropWhile isBlank = cs := by
    intro cs hcs
    cases cs with
    | nil => rfl
    | cons c rest => rw [List.dropWhile_cons, hcs c List.mem_cons_self, if_neg Bool.false_ne_true]
  rw [trimChars, trimLeft, hkept _ hblank, trimRight,
    hkept _ fun c hc => hblank c (List.mem_reverse.1 hc), List.reverse_reverse]

theorem readInteger_of_isIndex (h : isIndex part = true) :
    (∃ n, readInteger part.toList = .ok n) ↔ ¬ Misnumbered part := by
  obtain ⟨hne, hdigit⟩ := isIndex_iff.1 h
  have hnot : ¬ Misnumbered part ↔
      (hyphens part).length ≤ 1 ∧ (∀ c ∈ indexDigits part, isDecimal c = true) ∧ (indexDigits part).length ≤ digitLimit := by
    simp [Misnumbered, h]
  have hread : ∀ negative body, readSign part.toList = (negative, body) →
      ((∃ n, readInteger part.toList = .ok n) ↔
        ∃ values, readDigits body = some (values, []) ∧ values.length ≤ digitLimit) :=
    fun _ _ => readInteger_eq_ok (trimChars_of_isIndex h)
  rw [hnot]
  obtain ⟨c, ds, hds⟩ := List.exists_cons_of_ne_nil hne
  have hc : isDigit c = true := hdigit c (hds ▸ List.mem_cons_self)
  have hpart := hyphens_append_indexDigits part
  rw [hyphens_eq_replicate] at hpart
  match hcount : (hyphens part).length with
  | 0 =>
    rw [hcount, List.replicate_zero, List.nil_append] at hpart
    have hsign : readSign part.toList = (false, indexDigits part) := by
      rw [← hpart, hds]
      exact readSign_of_isDigit hc
    rw [hread _ _ hsign, readDigits_isDigit hne hdigit]
    simp
  | 1 =>
    rw [hcount] at hpart
    have hsign : readSign part.toList = (true, indexDigits part) := by
      rw [← hpart]
      rfl
    rw [hread _ _ hsign, readDigits_isDigit hne hdigit]
    simp
  | k + 2 =>
    rw [hcount] at hpart
    have hsign : readSign part.toList = (true, List.replicate (k + 1) '-' ++ indexDigits part) := by
      rw [← hpart]
      rfl
    rw [hread _ _ hsign]
    have hnone : readDigits (List.replicate (k + 1) '-' ++ indexDigits part) = none := by
      rw [readDigits, if_neg]
      exact (by decide : ¬ isDecimal '-' = true)
    rw [hnone]
    simp

theorem readIndex_eq_ok : (∃ n, readIndex part = .ok n) ↔ ∃ n, readInteger part.toList = .ok n := by
  unfold readIndex
  cases readInteger part.toList with
  | ok n => exact iff_of_true ⟨n, rfl⟩ ⟨n, rfl⟩
  | error e =>
    refine iff_of_false ?_ nofun
    rintro ⟨n, hn⟩
    cases e <;> cases hn

end

end Scope

/-! Paths -/

/-- A path cannot go on: it is at a sequence, and its next part looks like an index and is no number; or the next
part is to be an attribute of what it is at, and looking that up fails. -/
inductive Objects.Stops {α : Type} (o : Objects α) (x : α) (part : String) : Prop
  | misnumbered {items : List α} (hx : o.shape x = .sequence items) (hpart : Scope.Misnumbered part)
  | unnamed {f : Failure} (htable : ∀ fs, o.shape x ≠ .table fs)
      (hindex : ∀ items, o.shape x = .sequence items → Scope.isIndex part = false) (hx : o.named x part = .error f)

/-- The path leads to an object at which it cannot go on. -/
def Context.Breaks {α : Type} (c : Context α) (node : Option String) (path : String) : Prop :=
  ∃ first before part after x, Scope.pathParts path = first :: (before ++ part :: after) ∧
    c.objects.follow (c.head? node first) before = .ok (some x) ∧ c.objects.Stops x part

section
variable {α : Type} {o : Objects α} {c : Context α} {l : Language α} {node : Option String} {path part text : String}
  {x : α}

theorem Objects.stepInto_errs_iff : Errs (o.stepInto part x) ↔ o.Stops x part := by
  unfold stepInto
  cases hx : o.shape x with
  | table fs =>
    refine iff_of_false (not_errs_ok _) ?_
    rintro (⟨hsequence, -⟩ | ⟨htable, -⟩)
    · rw [hx] at hsequence
      cases hsequence
    · exact htable fs hx
  | sequence items =>
    dsimp only
    split_ifs with hindex
    · have hread : ¬ Errs (Scope.readIndex part) ↔ ∃ n, readInteger part.toList = .ok n :=
        not_errs_iff.trans Scope.readIndex_eq_ok
      change Errs (itemAt? items <$> Scope.readIndex part) ↔ _
      rw [errs_map, ← not_iff_not, hread, Scope.readInteger_of_isIndex hindex, not_iff_not]
      refine ⟨.misnumbered hx, ?_⟩
      rintro (⟨-, hpart⟩ | ⟨-, hnone, -⟩)
      · exact hpart
      · exact absurd hindex (by rw [hnone items hx]; exact Bool.false_ne_true)
    · constructor
      · rintro ⟨f, hf⟩
        exact .unnamed (fun fs hfs => by rw [hx] at hfs; cases hfs) (fun _ _ => Bool.not_eq_true _ ▸ hindex) hf
      · rintro (⟨-, hpart⟩ | ⟨-, -, hf⟩)
        · exact absurd hpart.1 hindex
        · exact ⟨_, hf⟩
  | plain =>
    constructor
    · rintro ⟨f, hf⟩
      exact .unnamed (fun fs hfs => by rw [hx] at hfs; cases hfs) (fun items hs => by rw [hx] at hs; cases hs) hf
    · rintro (⟨hsequence, -⟩ | ⟨-, -, hf⟩)
      · rw [hx] at hsequence
        cases hsequence
      · exact ⟨_, hf⟩

/-- Among values it is only lists at which a path cannot go on. -/
theorem Value.stops_iff {v : Value} :
    Value.objects.Stops v part ↔ ∃ items, v = .list items ∧ Scope.Misnumbered part := by
  constructor
  · rintro (⟨hx, hpart⟩ | ⟨-, -, hf⟩)
    · cases v with
      | list items => exact ⟨items, rfl, hpart⟩
      | _ => cases hx
    · cases hf
  · rintro ⟨items, rfl, hpart⟩
    exact .misnumbered rfl hpart

theorem Objects.follow_errs_iff {parts : List String} {found : Option α} :
    Errs (o.follow found parts) ↔
      ∃ before part after x, parts = before ++ part :: after ∧ o.follow found before = .ok (some x) ∧
        o.Stops x part := by
  induction parts generalizing found with
  | nil => cases found <;> simp [follow]
  | cons first rest ih =>
    cases found with
    | none => simp [follow]
    | some y =>
      rw [follow, errs_bind, stepInto_errs_iff]
      constructor
      · rintro (hstops | ⟨found, hinto, hfails⟩)
        · exact ⟨[], first, rest, y, rfl, by rw [follow], hstops⟩
        · obtain ⟨before, part, after, x, rfl, hbefore, hstops⟩ := ih.1 hfails
          refine ⟨first :: before, part, after, x, rfl, ?_, hstops⟩
          rw [follow, hinto]
          exact hbefore
      · rintro ⟨before, part, after, x, hparts, hbefore, hstops⟩
        cases before with
        | nil =>
          obtain ⟨rfl, rfl⟩ := List.cons_eq_cons.1 hparts
          rw [follow] at hbefore
          obtain rfl := Option.some.inj (Except.ok.inj hbefore)
          exact Or.inl hstops
        | cons other before =>
          obtain ⟨rfl, rfl⟩ := List.cons_eq_cons.1 hparts
          rw [follow] at hbefore
          obtain ⟨found, hinto, hbefore⟩ := bind_eq_ok.1 hbefore
          exact Or.inr ⟨found, hinto, ih.2 ⟨before, part, after, x, rfl, hbefore, hstops⟩⟩

namespace Context

theorem resolvePath_errs_iff : Errs (c.resolvePath node path) ↔ c.Breaks node path := by
  unfold resolvePath Breaks
  cases Scope.pathParts path with
  | nil => simp
  | cons first rest =>
    dsimp only
    rw [Objects.follow_errs_iff]
    constructor
    · rintro ⟨before, part, after, x, rfl, h⟩
      exact ⟨first, before, part, after, x, rfl, h⟩
    · rintro ⟨first', before, part, after, x, hparts, h⟩
      obtain ⟨rfl, rfl⟩ := List.cons_eq_cons.1 hparts
      exact ⟨before, part, after, x, rfl, h⟩

/-! References -/

theorem bindReferences_errs_iff {null : α} {parts : List Template.Part} {bound : Table α} :
    Errs (c.bindReferences null node bound parts) ↔
      ∃ path, Template.Part.reference path ∈ parts ∧ c.Breaks node path := by
  induction parts generalizing bound with
  | nil => simp [bindReferences]
  | cons p rest ih =>
    cases p with
    | plain cs =>
      rw [bindReferences, errs_bind_of_not fun _ => not_errs_pure _, ih]
      simp
    | reference first =>
      rw [bindReferences]
      -- whatever the first reference is bound to, the others fail as they would without it
      refine (errs_bind_of_forall (P := ∃ path, Template.Part.reference path ∈ rest ∧ c.Breaks node path)
        fun found => ?_).trans ?_
      · exact (errs_bind_of_not fun _ => not_errs_pure _).trans ih
      · rw [resolvePath_errs_iff]
        simp

theorem evaluate_of_allBlank (hblank : allBlank text = true) : c.evaluate l node text = (.ok true, c) := by
  rw [evaluate, if_pos hblank]

theorem evaluate_of_error {f : Failure} (hblank : allBlank text = false)
    (hbind : c.bindReferences l.null node [] (Template.parts text) = .error f) :
    c.evaluate l node text = (.error f, c) := by
  rw [evaluate, if_neg (by simp [hblank]), hbind]

theorem evaluate_of_bind {source : String} {bound : Table α} (hblank : allBlank text = false)
    (hbind : c.bindReferences l.null node [] (Template.parts text) = .ok (source, bound)) :
    c.evaluate l node text =
      (.ok ((l.run (visible l.functions bound (c.names node)) source c).1.getD false),
        (l.run (visible l.functions bound (c.names node)) source c).2) := by
  rw [evaluate, if_neg (by simp [hblank]), hbind]

theorem language_run (names : String → Option (String ⊕ Value)) (source : String) (c : Context Value) :
    Expression.language.run names source c =
      ((Expression.evaluate (Expression.seen names) source).map Datum.truthy, c) := rfl

/-- The guards of a run are made of expressions that change nothing. -/
theorem evaluate_language (s : Scope) (node : Option String) (text : String) :
    s.context.evaluate Expression.language node text = (s.evaluate node text, s.context) := by
  refine Prod.ext rfl ?_
  cases hblank : allBlank text with
  | true => rw [evaluate_of_allBlank hblank]
  | false =>
    cases hbind : s.context.bindReferences Expression.language.null node [] (Template.parts text) with
    | error f => rw [evaluate_of_error hblank hbind]
    | ok found =>
      rw [evaluate_of_bind hblank hbind, language_run]

end Context

end

/-- A list, or another value; and the method of a list that adds an item to it. -/
inductive Held where
  | value (v : Value)
  | append (items : List Value)

def Held.objects : Objects Held where
  shape
    | .value (.object fs) => .table (Table.mapValues fs .value)
    | .value (.list items) => .sequence (items.map .value)
    | _ => .plain
  named
    | .value (.list items), "append" => .ok (some (.append items))
    | .append items, "__self__" => .ok (some (.value (.list items)))
    | _, _ => .ok none

def holding (items : List Value) : Context Held where
  objects := Held.objects
  head? _ name := if name = "items" then some (.value (.list items)) else none
  names _ := [("items", .value (.list items))]

def appending : Language Held where
  functions := []
  null := .value .null
  run names source c :=
    match names "items" with
    | some (.inr (.value (.list items))) =>
      if source = "items.append(3)" then (some false, holding (items ++ [.int 3])) else (none, c)
    | _ => (none, c)

namespace Scope

def listed : Scope :=
  make [] [("items", .list [.int 1, .int 2])]

end Scope

namespace Scope

end Scope

end Flowgraph
