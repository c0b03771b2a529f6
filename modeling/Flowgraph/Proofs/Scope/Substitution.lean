import Flowgraph.Proofs.Scope.Path
import Flowgraph.Proofs.Scope.Template

/-! Literals joined with references. However these are spaced, such a text is taken apart at its references and is
filled in with the values that they lead to: with the value itself where the text is one reference, else with the
literals as they stand and the values as text between them. What has been inserted is not read again. In a nested
value each text is filled in by itself, and all else stays as it is. -/

namespace Flowgraph

namespace Text

theorem isBlank_of_allBlank {s : String} (h : allBlank s = true) : ∀ c ∈ s.toList, isBlank c = true :=
  List.all_eq_true.1 h

theorem trimRight_append {cs blanks : List Char} (h : ∀ c ∈ blanks, isBlank c = true) :
    trimRight (cs ++ blanks) = trimRight cs := by
  rw [trimRight, List.reverse_append, List.dropWhile_append_of_pos fun c hc => h c (List.mem_reverse.1 hc)]
  rfl

/-- Blanks around a text are trimmed off it. -/
theorem trimChars_surrounded {before cs after : List Char} (hbefore : ∀ c ∈ before, isBlank c = true)
    (hafter : ∀ c ∈ after, isBlank c = true) : trimChars (before ++ (cs ++ after)) = trimChars cs := by
  have hempty : trimLeft after = [] := List.dropWhile_eq_nil_iff.2 hafter
  have hleft : trimLeft (before ++ (cs ++ after)) = trimLeft (cs ++ after) :=
    List.dropWhile_append_of_pos hbefore
  have hmiddle : trimLeft (cs ++ after) =
      if (trimLeft cs).isEmpty then trimLeft after else trimLeft cs ++ after := List.dropWhile_append
  rw [trimChars, hleft, hmiddle, hempty, trimChars]
  split
  · next hnil => rw [List.isEmpty_iff.1 hnil]
  · exact trimRight_append hafter

end Text

namespace Template

def Braceless (text : String) : Prop :=
  ∀ c ∈ text.toList, c ≠ '\x7b' ∧ c ≠ '\x7d'

instance (text : String) : Decidable (Braceless text) :=
  List.decidableBAll _ _

structure Literal where
  text : String
  braceless : Braceless text

/-- A path between double braces, with blanks around it. -/
structure Reference where
  before : String
  path : String
  after : String
  blank_before : Text.allBlank before = true
  blank_after : Text.allBlank after = true
  braceless : Braceless path
  not_blank : Text.allBlank path = false

/-- Literals joined with references. -/
inductive Pattern where
  | last (t : Literal)
  | next (t : Literal) (r : Reference) (rest : Pattern)

def Reference.body (r : Reference) : String :=
  r.before ++ r.path ++ r.after

def Reference.source (r : Reference) : String :=
  "\x7b\x7b" ++ r.body ++ "\x7d\x7d"

namespace Pattern

def source : Pattern → String
  | last t => t.text
  | next t r rest => t.text ++ r.source ++ source rest

def references : Pattern → List Reference
  | last _ => []
  | next _ r rest => r :: references rest

def lone? : Pattern → Option Reference
  | next t r (last u) => if Text.allBlank t.text && Text.allBlank u.text then some r else none
  | _ => none

def inserted : Option Value → String
  | some v => v.display
  | none => ""

def joined (value : String → Option Value) : Pattern → String
  | last t => t.text
  | next t r rest => t.text ++ inserted (value r.path) ++ joined value rest

def filled (value : String → Option Value) (p : Pattern) : Value :=
  match p.lone? with
  | some r => (value r.path).getD .null
  | none => .text (p.joined value)

end Pattern

section
variable {cs : List Char} {path : String}

theorem readReference_literal {c : Char} (hc : c ≠ '\x7b') : readReference (c :: cs) = none := by
  cases hread : readReference (c :: cs) with
  | none => rfl
  | some found =>
    obtain ⟨body, hcs, -⟩ := readReference_eq_some.1 hread
    exact absurd (List.cons_eq_cons.1 hcs).1 hc

theorem Reference.toList_source (r : Reference) :
    r.source.toList = '\x7b' :: '\x7b' :: (r.body.toList ++ ['\x7d', '\x7d']) := by
  simp [Reference.source]

theorem Reference.trim_body (r : Reference) : Text.trim r.body = Text.trim r.path := by
  have hbody : r.body.toList = r.before.toList ++ (r.path.toList ++ r.after.toList) := by
    simp [Reference.body, String.append_assoc]
  rw [Text.trim, Text.trim, hbody, Text.trimChars_surrounded (Text.isBlank_of_allBlank r.blank_before)
    (Text.isBlank_of_allBlank r.blank_after)]

theorem not_brace_of_isBlank {c : Char} (h : Text.isBlank c = true) : c ≠ '\x7b' ∧ c ≠ '\x7d' := by
  constructor
  · rintro rfl
    revert h
    decide
  · rintro rfl
    revert h
    decide

theorem Reference.braceless_body (r : Reference) : Braceless r.body := by
  intro c hc
  simp only [Reference.body, String.toList_append, List.mem_append] at hc
  rcases hc with (hc | hc) | hc
  · exact not_brace_of_isBlank (Text.isBlank_of_allBlank r.blank_before c hc)
  · exact r.braceless c hc
  · exact not_brace_of_isBlank (Text.isBlank_of_allBlank r.blank_after c hc)

theorem Reference.body_ne_nil (r : Reference) : r.body.toList ≠ [] := by
  intro hnil
  have hpath : r.path.toList = [] := by
    simp only [Reference.body, String.toList_append, List.append_eq_nil_iff] at hnil
    exact hnil.1.2
  have hblank := r.not_blank
  rw [Text.allBlank, hpath] at hblank
  cases hblank

/-- A reference at the front is read as far as it goes, whatever stands behind it. -/
theorem Reference.readReference_source (r : Reference) (tail : List Char) :
    readReference (r.source.toList ++ tail) = some (Text.trim r.path, tail) := by
  refine readReference_eq_some.2 ⟨r.body.toList, ?_, r.body_ne_nil, r.braceless_body, ?_⟩
  · rw [r.toList_source]
    simp
  · rw [← r.trim_body, Text.trim]

theorem split_source (r : Reference) (n : Nat) (tail : List Char) :
    split (n + 1) (r.source.toList ++ tail) = .reference (Text.trim r.path) :: split n tail := by
  have hread := r.readReference_source tail
  rw [r.toList_source] at hread ⊢
  rw [List.cons_append] at hread ⊢
  rw [split, hread]

/-! Texts that are one reference -/

theorem Pattern.exists_of_lone?_eq_some {p : Pattern} {r : Reference} (h : p.lone? = some r) :
    ∃ t u, p = next t r (last u) ∧ Text.allBlank t.text = true ∧ Text.allBlank u.text = true := by
  unfold Pattern.lone? at h
  split at h
  · next t found u =>
    split_ifs at h with hblank
    cases h
    exact ⟨t, u, rfl, (Bool.and_eq_true_iff.1 hblank).1, (Bool.and_eq_true_iff.1 hblank).2⟩
  · cases h

theorem brace_not_mem {text : String} (h : Braceless text) : '\x7b' ∉ text.toList :=
  fun hmem => (h _ hmem).1 rfl

theorem append_cons_inj {as bs xs ys : List Char} {c : Char} (ha : c ∉ as) (hb : c ∉ bs)
    (h : as ++ c :: xs = bs ++ c :: ys) : as = bs ∧ xs = ys := by
  have hdrop : ∀ front behind : List Char, c ∉ front →
      (front ++ c :: behind).dropWhile (· ≠ c) = c :: behind := by
    intro front behind hfront
    have hpass : ∀ d ∈ front, decide (d ≠ c) = true := fun d hd =>
      decide_eq_true fun he => hfront (he ▸ hd)
    rw [List.dropWhile_append_of_pos hpass]
    simp
  have hbehind : c :: xs = c :: ys := by
    rw [← hdrop as xs ha, h, hdrop bs ys hb]
  rw [hbehind] at h
  exact ⟨List.append_cancel_right h, (List.cons_eq_cons.1 hbehind).2⟩

/-- A pattern from which blanks can be taken off both ends so that one reference is left has none but this. -/
theorem Pattern.lone?_of_source {p : Pattern} {before after : List Char}
    (hbefore : ∀ c ∈ before, Text.isBlank c = true) (hafter : ∀ c ∈ after, Text.isBlank c = true)
    (hread : readReference cs = some (path, [])) (h : p.source.toList = before ++ cs ++ after) :
    ∃ r, p.lone? = some r := by
  obtain ⟨body, rfl, -⟩ := readReference_eq_some.1 hread
  have hfront : '\x7b' ∉ before := fun hmem => (not_brace_of_isBlank (hbefore _ hmem)).1 rfl
  cases p with
  | last t =>
    refine absurd ?_ (brace_not_mem t.braceless)
    rw [← Pattern.source, h]
    simp
  | next t r rest =>
    have hsource : t.text.toList ++ '\x7b' :: '\x7b' :: (r.body.toList ++ '\x7d' :: '\x7d' :: rest.source.toList) =
        before ++ '\x7b' :: '\x7b' :: (body ++ '\x7d' :: '\x7d' :: after) := by
      simpa [Pattern.source, r.toList_source] using h
    obtain ⟨hliteral, hbehind⟩ := append_cons_inj (brace_not_mem t.braceless) hfront hsource
    -- both read a reference at the same place, so what they leave is the same
    have hrest : rest.source.toList = after := by
      have hours := r.readReference_source rest.source.toList
      have htheirs := readReference_append hread after
      rw [r.toList_source] at hours
      simp only [List.cons_append, List.append_assoc, List.nil_append] at hours htheirs
      rw [hbehind, htheirs] at hours
      simpa using (congrArg (Option.map Prod.snd) hours).symm
    cases rest with
    | last u =>
      have ht : Text.allBlank t.text = true := by simpa [Text.allBlank, hliteral] using hbefore
      have hu : Text.allBlank u.text = true := by
        rw [Pattern.source] at hrest
        simpa [Text.allBlank, hrest] using hafter
      exact ⟨r, by simp [Pattern.lone?, ht, hu]⟩
    | next u q rest =>
      have hmem : '\x7b' ∈ after := by
        rw [← hrest]
        simp [Pattern.source, q.toList_source]
      exact absurd rfl (not_brace_of_isBlank (hafter _ hmem)).1

theorem whole?_source (p : Pattern) : whole? p.source = p.lone?.map fun r => Text.trim r.path := by
  cases hlone : p.lone? with
  | some r =>
    obtain ⟨t, u, rfl, ht, hu⟩ := Pattern.exists_of_lone?_eq_some hlone
    have hread : readReference r.source.toList = some (Text.trim r.path, []) := by
      simpa using r.readReference_source []
    have htrim : Text.trimChars (Pattern.next t r (.last u)).source.toList = r.source.toList := by
      simp only [Pattern.source, String.toList_append, List.append_assoc]
      rw [Text.trimChars_surrounded (Text.isBlank_of_allBlank ht) (Text.isBlank_of_allBlank hu),
        trimChars_of_readReference hread]
    unfold whole?
    rw [Text.trim, String.toList_ofList, htrim, hread]
    rfl
  | none =>
    unfold whole?
    rw [Text.trim, String.toList_ofList]
    split
    · next path hread =>
      obtain ⟨before, after, hbefore, hafter, hsource⟩ := exists_trimChars p.source.toList
      obtain ⟨r, hr⟩ := Pattern.lone?_of_source hbefore hafter hread hsource
      rw [hlone] at hr
      cases hr
    · rfl

end

end Template

namespace Scope

open Template

section
variable {s : Scope} {node : Option String} {path t : String} {cs rest : List Char} {n steps : Nat}
  {value : String → Option Value}

theorem resolvePath_trim (path : String) : s.resolvePath node (Text.trim path) = s.resolvePath node path := by
  have hparts : pathParts (Text.trim path) = pathParts path := by
    rw [pathParts, Text.trim_trim, pathParts]
  unfold resolvePath Context.resolvePath
  rw [hparts]

theorem insertedText_of_resolvePath {found : Option Value} (h : s.resolvePath node path = .ok found) :
    s.insertedText node path = .ok (Pattern.inserted found) := by
  unfold insertedText
  rw [h]
  cases found <;> rfl

theorem filledParts_reference (h : s.insertedText node path = .ok t) (ps : List Part) :
    s.filledParts node (.reference path :: ps) = (s.filledParts node ps).map (t ++ ·) := by
  unfold filledParts
  rw [List.mapM_cons]
  change (s.insertedText node path >>= _).map _ = _
  rw [h]
  cases ps.mapM (s.fillPart node) with
  | error f => rfl
  | ok texts =>
    change Except.ok (String.join (t :: texts)) = Except.ok (t ++ String.join texts)
    rw [String.join_cons]

/-- Characters without a brace are filled in with themselves, in front of what the rest is filled in with. -/
theorem filledParts_literal (h : '\x7b' ∉ cs) :
    s.filledParts node (split (cs.length + n) (cs ++ rest)) =
      (s.filledParts node (split n rest)).map (String.ofList cs ++ ·) := by
  induction cs with
  | nil =>
    rw [List.length_nil, Nat.zero_add, List.nil_append]
    cases s.filledParts node (split n rest) <;> simp [Except.map]
  | cons c cs ih =>
    obtain ⟨hc, hcs⟩ := not_or.1 (mt List.mem_cons.2 h)
    rw [List.length_cons, Nat.add_right_comm, List.cons_append, split, readReference_literal (Ne.symm hc)]
    dsimp only
    rw [filledParts_consPlain, ih hcs]
    cases s.filledParts node (split n rest) with
    | error f => rfl
    | ok text =>
      change Except.ok (String.ofList [c] ++ (String.ofList cs ++ text)) = Except.ok (String.ofList (c :: cs) ++ text)
      rw [← String.append_assoc, ← String.ofList_append, List.singleton_append]

/-- A pattern is taken apart at its references and at nothing else, in as many steps as it has characters. -/
theorem filledParts_pattern {p : Pattern}
    (hvalue : ∀ r ∈ p.references, s.resolvePath node r.path = .ok (value r.path))
    (hsteps : p.source.toList.length ≤ steps) :
    s.filledParts node (split steps p.source.toList) = .ok (p.joined value) := by
  induction p generalizing steps with
  | last t =>
    obtain ⟨n, rfl⟩ := Nat.exists_eq_add_of_le hsteps
    have hend : s.filledParts node (split n []) = .ok "" := by cases n <;> rfl
    have hliteral : s.filledParts node (split (t.text.toList.length + n) (t.text.toList ++ [])) =
        (s.filledParts node (split n [])).map (String.ofList t.text.toList ++ ·) :=
      filledParts_literal (brace_not_mem t.braceless)
    rw [List.append_nil, hend] at hliteral
    rw [Pattern.source, hliteral]
    change Except.ok (String.ofList t.text.toList ++ "") = _
    rw [String.ofList_toList, String.append_empty]
    rfl
  | next t r rest ih =>
    have hlength : t.text.toList.length + (1 + rest.source.toList.length) ≤ steps := by
      simp only [Pattern.source, r.toList_source, String.toList_append, List.length_append, List.length_cons] at hsteps
      omega
    obtain ⟨m, rfl⟩ := Nat.exists_eq_add_of_le hlength
    have hr : s.insertedText node (Text.trim r.path) = .ok (Pattern.inserted (value r.path)) := by
      apply insertedText_of_resolvePath
      rw [resolvePath_trim]
      exact hvalue r List.mem_cons_self
    have hrest := ih (fun q hq => hvalue q (List.mem_cons_of_mem _ hq)) (Nat.le_add_right rest.source.toList.length m)
    have hcount : t.text.toList.length + (1 + rest.source.toList.length) + m =
        t.text.toList.length + (rest.source.toList.length + m + 1) := by omega
    rw [Pattern.source, String.toList_append, String.toList_append, List.append_assoc, hcount,
      filledParts_literal (brace_not_mem t.braceless), split_source, filledParts_reference hr, hrest]
    change Except.ok (String.ofList t.text.toList ++ (Pattern.inserted (value r.path) ++ rest.joined value)) = _
    rw [String.ofList_toList, ← String.append_assoc]
    rfl

/-- A pattern is filled in with what its paths lead to. -/
theorem fillText_pattern {p : Pattern}
    (hvalue : ∀ r ∈ p.references, s.resolvePath node r.path = .ok (value r.path)) :
    s.fillText node p.source = .ok (p.filled value) := by
  have hwhole := whole?_source p
  unfold Pattern.filled
  cases hlone : p.lone? with
  | some r =>
    obtain ⟨t, u, rfl, -, -⟩ := Pattern.exists_of_lone?_eq_some hlone
    rw [hlone] at hwhole
    unfold fillText
    rw [hwhole]
    dsimp only [Option.map_some]
    rw [resolvePath_trim, hvalue r List.mem_cons_self]
    rfl
  | none =>
    rw [hlone] at hwhole
    rw [fillText_of_whole?_eq_none hwhole, parts, filledParts_pattern hvalue (by rw [String.length_toList])]
    rfl

end

end Scope

/-! Nested values -/

namespace Value

section
variable {f : String → Value}

mutual

def mapTexts (f : String → Value) : Value → Value
  | text t => f t
  | list items => list (mapItems f items)
  | object fields => object (mapFields f fields)
  | v => v

def mapItems (f : String → Value) : List Value → List Value
  | [] => []
  | v :: rest => mapTexts f v :: mapItems f rest

def mapFields (f : String → Value) : List (String × Value) → List (String × Value)
  | [] => []
  | (key, v) :: rest => (key, mapTexts f v) :: mapFields f rest

end

mutual

def texts : Value → List String
  | text t => [t]
  | list items => itemTexts items
  | object fields => fieldTexts fields
  | _ => []

def itemTexts : List Value → List String
  | [] => []
  | v :: rest => texts v ++ itemTexts rest

def fieldTexts : List (String × Value) → List String
  | [] => []
  | (_, v) :: rest => texts v ++ fieldTexts rest

end

theorem mapTexts_list (items : List Value) : (list items).mapTexts f = list (items.map (mapTexts f)) := by
  have hitems : ∀ vs, mapItems f vs = vs.map (mapTexts f) := by
    intro vs
    induction vs with
    | nil => rfl
    | cons v rest ih => rw [mapItems, ih, List.map_cons]
  rw [mapTexts, hitems]

theorem mapTexts_object (fields : List (String × Value)) :
    (object fields).mapTexts f = object (fields.map fun field => (field.1, field.2.mapTexts f)) := by
  have hfields : ∀ fs, mapFields f fs = fs.map fun field => (field.1, field.2.mapTexts f) := by
    intro fs
    induction fs with
    | nil => rfl
    | cons field rest ih => rw [mapFields, ih, List.map_cons]
  rw [mapTexts, hfields]

end

end Value

namespace Scope

open Template

section
variable {s : Scope} {node : Option String} {f : String → Value}

mutual

/-- A value is filled in text by text. -/
theorem fill_eq_mapTexts : (v : Value) → (∀ t ∈ v.texts, s.fill node (.text t) = .ok (f t)) →
    s.fill node v = .ok (v.mapTexts f)
  | .null, _ | .bool _, _ | .int _, _ | .float _, _ => rfl
  | .text t, h => h t List.mem_cons_self
  | .list items, h => by
    rw [fill, fillItems_eq_map items h, Value.mapTexts_list]
    rfl
  | .object fields, h => by
    rw [fill, fillFields_eq_map fields h, Value.mapTexts_object]
    rfl

theorem fillItems_eq_map : (items : List Value) →
    (∀ t ∈ Value.itemTexts items, s.fill node (.text t) = .ok (f t)) →
      s.fillItems node items = .ok (items.map (Value.mapTexts f))
  | [], _ => rfl
  | v :: rest, h => by
    rw [fillItems, fill_eq_mapTexts v fun t ht => h t (List.mem_append_left _ ht),
      fillItems_eq_map rest fun t ht => h t (List.mem_append_right _ ht)]
    rfl

theorem fillFields_eq_map : (fields : List (String × Value)) →
    (∀ t ∈ Value.fieldTexts fields, s.fill node (.text t) = .ok (f t)) →
      s.fillFields node fields = .ok (fields.map fun field => (field.1, field.2.mapTexts f))
  | [], _ => rfl
  | (key, v) :: rest, h => by
    rw [fillFields, fill_eq_mapTexts v fun t ht => h t (List.mem_append_left _ ht),
      fillFields_eq_map rest fun t ht => h t (List.mem_append_right _ ht)]
    rfl

end

end

/-- Literals joined with references are filled in with what the references lead to, a text without references with
itself, and a nested value text by text. -/
theorem fill_substitutes (s : Scope) (node : Option String) :
    (∀ (p : Pattern) (value : String → Option Value),
      (∀ r ∈ p.references, s.resolvePath node r.path = .ok (value r.path)) →
        s.fill node (.text p.source) = .ok (p.filled value)) ∧
    (∀ t, Plain t → s.fill node (.text t) = .ok (.text t)) ∧
    ∀ (v : Value) (f : String → Value), (∀ t ∈ v.texts, s.fill node (.text t) = .ok (f t)) →
      s.fill node v = .ok (v.mapTexts f) := by
  refine ⟨?_, ?_, ?_⟩
  · intro p value hvalue
    rw [fill, fillText_pattern hvalue]
  · intro t ht
    rw [fill, fillText_plain ht]
  · intro v f hf
    exact fill_eq_mapTexts v hf

def fetched : Scope :=
  lone "fetch" [("status", .int 200), ("body", .text "\x7b\x7b vars.who \x7d\x7d")]

def fetchedAt : String → Option Value
  | "nodes.fetch.status" => some (.int 200)
  | "nodes.fetch.body" => some (.text "\x7b\x7b vars.who \x7d\x7d")
  | _ => none

def statusAlone : Pattern :=
  .next ⟨"\n", by decide⟩ ⟨" ", "nodes.fetch.status", "\t", by decide, by decide, by decide, by decide⟩
    (.last ⟨" ", by decide⟩)

def summary : Pattern :=
  .next ⟨"got ", by decide⟩ ⟨" ", "nodes.fetch.status", " ", by decide, by decide, by decide, by decide⟩
    (.next ⟨": ", by decide⟩ ⟨"", "nodes.fetch.body", "  ", by decide, by decide, by decide, by decide⟩
      (.next ⟨"", by decide⟩ ⟨"", "nodes.fetch.gone", "", by decide, by decide, by decide, by decide⟩
        (.last ⟨"!", by decide⟩)))

def report : Value :=
  .object [("\x7b\x7bnodes\x7d\x7d", .list [.text statusAlone.source, .text summary.source]),
    ("rest", .list [.text "\x7bbody\x7d", .null])]

def reported (text : String) : Value :=
  if text = statusAlone.source then .int 200
  else if text = summary.source then .text "got 200: \x7b\x7b vars.who \x7d\x7d!"
  else .text text

/-- A lone reference gives the number itself, what has been inserted is not read again, and keys, single braces and
other values stay as they are. -/
theorem fill_substitutes_fetched :
    (∀ r ∈ statusAlone.references ++ summary.references, fetched.resolvePath none r.path = .ok (fetchedAt r.path)) ∧
      Plain "\x7bbody\x7d" ∧
      fetched.fill none report =
        .ok (.object [("\x7b\x7bnodes\x7d\x7d", .list [.int 200, .text "got 200: \x7b\x7b vars.who \x7d\x7d!"]),
          ("rest", .list [.text "\x7bbody\x7d", .null])]) := by
  have hpath : ∀ field, Text.Trimmed field → '.' ∉ field.toList →
      fetched.resolvePath none (outputPath "fetch" field) =
        Value.objects.follow (some fetched.outputsValue) ["fetch", field] := by
    intro field hfield hpoint
    rw [resolvePath_outputPath hfield hpoint, segments_of_not_mem (by decide) (by decide)]
    rfl
  have hvalue : ∀ r ∈ statusAlone.references ++ summary.references,
      fetched.resolvePath none r.path = .ok (fetchedAt r.path) := by
    intro r hr
    simp only [statusAlone, summary, Pattern.references, List.cons_append, List.nil_append, List.mem_cons,
      List.not_mem_nil, or_false] at hr
    rcases hr with rfl | rfl | rfl | rfl
    · exact hpath "status" (by decide) (by decide)
    · exact hpath "status" (by decide) (by decide)
    · exact hpath "body" (by decide) (by decide)
    · exact hpath "gone" (by decide) (by decide)
  have hplain : Plain "\x7bbody\x7d" := by
    intro path hmem
    have hparts : parts "\x7bbody\x7d" = [.plain "\x7bbody\x7d".toList] := by rfl
    simp [hparts] at hmem
  obtain ⟨hpattern, hsame, hnested⟩ := fill_substitutes fetched none
  have htexts : ∀ t ∈ report.texts, fetched.fill none (.text t) = .ok (reported t) := by
    intro t ht
    simp only [report, Value.texts, Value.itemTexts, Value.fieldTexts, List.cons_append, List.nil_append,
      List.mem_cons, List.not_mem_nil, or_false] at ht
    rcases ht with rfl | rfl | rfl
    · exact hpattern statusAlone fetchedAt fun r hr => hvalue r (List.mem_append_left _ hr)
    · exact hpattern summary fetchedAt fun r hr => hvalue r (List.mem_append_right _ hr)
    · exact hsame _ hplain
  exact ⟨hvalue, hplain, hnested report reported htexts⟩

end Scope

end Flowgraph
