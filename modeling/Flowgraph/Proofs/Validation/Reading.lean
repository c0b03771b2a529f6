import Flowgraph.Proofs.Validation.Model
import Flowgraph.Workflow.Decode
import Mathlib.Data.List.TakeWhile

/-! A valid payload and the workflow read from it. Reading trims ids, which the validation of payloads
does not: a workflow read from a valid payload is valid exactly when no two ids have become the same. -/

namespace Flowgraph

namespace Text

theorem all_dropWhile (p : Char → Bool) (cs : List Char) : (cs.dropWhile p).all p = cs.all p := by
  induction cs with
  | nil => rfl
  | cons c rest ih =>
    rw [List.dropWhile_cons]
    split_ifs with hc
    · rw [ih, List.all_cons, hc, Bool.true_and]
    · rfl

/-- Trimming leaves blank texts blank, and no others become so. -/
@[simp] theorem allBlank_trim (s : String) : allBlank (trim s) = allBlank s := by
  rw [allBlank, trim, String.toList_ofList, trimChars, trimRight, List.all_reverse, all_dropWhile, List.all_reverse,
    trimLeft, all_dropWhile, allBlank]

theorem trim_eq_empty {s : String} : trim s = "" ↔ allBlank s = true := by
  constructor
  · intro h
    rw [← allBlank_trim, h]
    rfl
  · intro h
    have hleft : trimLeft s.toList = [] := List.dropWhile_eq_nil_iff.2 (List.all_eq_true.1 h)
    rw [trim, trimChars, hleft]
    rfl

end Text

namespace Reading

variable {α : Type} {fs : Fields} {name : String} {read : Value → Reading α} {v : Value}

theorem find?_word : find? fs (.word name) = (Table.get? fs name).map fun v => (name, v) := by
  unfold find? FieldName.word
  cases Table.get? fs name <;> rfl

theorem required_eq_accepted {a : α} :
    required fs (.word name) read = accepted a ↔ ∃ v, Table.get? fs name = some v ∧ read v = accepted a := by
  rw [required, find?_word]
  cases Table.get? fs name with
  | none => simp
  | some v => simp [under_eq_accepted]

theorem optional_eq_accepted {a fallback : α} :
    optional fs (.word name) fallback read = accepted a ↔
      Table.get? fs name = none ∧ a = fallback ∨ ∃ v, Table.get? fs name = some v ∧ read v = accepted a := by
  rw [optional, find?_word]
  cases Table.get? fs name with
  | none => simp [eq_comm]
  | some v => simp [under_eq_accepted]

theorem text_eq_accepted {s : String} : text v = accepted s ↔ v = .text s := by
  cases v <;> simp [text, reject]

theorem identifier_eq_accepted {s : String} :
    identifier v = accepted s ↔ ∃ raw, v = .text raw ∧ Text.trim raw ≠ "" ∧ s = Text.trim raw := by
  rw [identifier, andThen_eq_accepted]
  constructor
  · rintro ⟨raw, hraw, hs⟩
    split_ifs at hs with hempty
    · cases hs
    · exact ⟨raw, text_eq_accepted.1 hraw, hempty, (accepted.inj hs).symm⟩
  · rintro ⟨raw, rfl, hraw, rfl⟩
    exact ⟨raw, rfl, if_neg hraw⟩

theorem member_eq_accepted {members : List α} {label : α → String} {m : α}
    (h : member members label v = accepted m) : v = .text (label m) := by
  unfold member at h
  split at h
  · next m' hm =>
    obtain ⟨s, hs, hm⟩ := Option.bind_eq_some_iff.1 hm
    obtain rfl := accepted.inj h
    have := List.find?_some hm
    cases v with
    | text t =>
      obtain rfl : t = s := by simpa [Value.text?] using hs
      simpa using (of_decide_eq_true this).symm
    | _ => cases hs
  · cases h

theorem positive_ne_zero {n : Nat} (h : positive v = accepted n) : n ≠ 0 := by
  rw [positive, andThen_eq_accepted] at h
  obtain ⟨k, -, hk⟩ := h
  split_ifs at hk with hpos
  · obtain rfl := accepted.inj hk
    omega
  · cases hk

theorem perhaps_positive {n : Option Nat} (h : perhaps fs (.word name) positive = accepted n) : n ≠ some 0 := by
  rintro rfl
  rcases optional_eq_accepted.1 h with ⟨-, hno⟩ | ⟨v, -, hv⟩
  · cases hno
  · unfold nullable at hv
    split_ifs at hv
    · cases hv
    · cases hp : positive v with
      | accepted n =>
        rw [hp] at hv
        obtain rfl : n = 0 := by simpa [Reading.map] using hv
        exact positive_ne_zero hp rfl
      | rejected issues =>
        rw [hp] at hv
        cases hv

theorem record_eq_accepted {model : String} {ofFields : Fields → Reading α} {a : α} :
    record model ofFields v = accepted a ↔ ∃ fs, v = .object fs ∧ ofFields fs = accepted a := by
  cases v <;> simp [record, Value.fields?, reject]

theorem itemsFrom_eq_accepted {index : Nat} {vs : List Value} {as : List α} :
    itemsFrom read index vs = accepted as ↔ List.Forall₂ (fun v a => read v = accepted a) vs as := by
  induction vs generalizing index as with
  | nil => simp [itemsFrom, eq_comm]
  | cons v rest ih =>
    simp only [itemsFrom, map_eq, seq_eq, apply_eq_accepted, under_eq_accepted, ih, List.forall₂_cons_left_iff]
    constructor
    · rintro ⟨g, as', ⟨f, a, hf, ha, rfl⟩, has, rfl⟩
      obtain rfl := accepted.inj hf
      exact ⟨a, as', ha, has, rfl⟩
    · rintro ⟨a, as', ha, has, rfl⟩
      exact ⟨_, as', ⟨_, a, rfl, ha, rfl⟩, has, rfl⟩

theorem items_eq_accepted {as : List α} :
    items read v = accepted as ↔ ∃ vs, v = .list vs ∧ List.Forall₂ (fun v a => read v = accepted a) vs as := by
  cases v <;> simp [items, Value.items?, reject, itemsFrom_eq_accepted]

end Reading

/-! What is read from a payload -/

open Reading

def trimmedIds (payload : Value) (list : String) : List String :=
  (((payload.field? list).bind Value.items?).getD []).filterMap fun item =>
    ((item.field? "id").bind Value.text?).map Text.trim

/-- What tells where a node was read from. -/
structure Node.ReadFrom (v : Value) (n : Node) : Prop where
  id : ∃ raw, v.field? "id" = some (.text raw) ∧ n.id = Text.trim raw
  type : v.field? "type" = some (.text n.type.name)
  filled : n.Filled

structure Edge.ReadFrom (v : Value) (e : Edge) : Prop where
  id : ∃ raw, v.field? "id" = some (.text raw) ∧ e.id = Text.trim raw
  source : ∃ raw, v.field? "source" = some (.text raw) ∧ e.source = Text.trim raw
  target : ∃ raw, v.field? "target" = some (.text raw) ∧ e.target = Text.trim raw
  filled : e.Filled

theorem required_identifier {fs : Fields} {name s : String} (h : required fs (.word name) identifier = accepted s) :
    (∃ raw, Table.get? fs name = some (.text raw) ∧ s = Text.trim raw) ∧ Text.allBlank s = false := by
  obtain ⟨v, hv, hread⟩ := required_eq_accepted.1 h
  obtain ⟨raw, rfl, hraw, rfl⟩ := identifier_eq_accepted.1 hread
  refine ⟨⟨raw, hv, rfl⟩, ?_⟩
  rw [Text.allBlank_trim, Bool.eq_false_iff]
  exact fun hblank => hraw (Text.trim_eq_empty.2 hblank)

theorem NodeRuntime.timeout_ne_zero {v : Value} {r : NodeRuntime} (h : NodeRuntime.ofValue v = accepted r) :
    r.timeout ≠ some 0 := by
  obtain ⟨fs, -, h⟩ := record_eq_accepted.1 h
  simp only [NodeRuntime.ofFields, map_eq, seq_eq, apply_eq_accepted] at h
  obtain ⟨_, _, ⟨_, _, ⟨_, t, hmk, ht, rfl⟩, _, rfl⟩, _, rfl⟩ := h
  obtain rfl := accepted.inj hmk
  exact perhaps_positive ht

theorem Settings.timeout_ne_zero {v : Value} {s : Settings} (h : Settings.ofValue v = accepted s) :
    s.timeout ≠ some 0 := by
  obtain ⟨fs, -, h⟩ := record_eq_accepted.1 h
  simp only [Settings.ofFields, map_eq, seq_eq, apply_eq_accepted] at h
  obtain ⟨_, t, ⟨_, _, ⟨_, _, hmk, _, rfl⟩, _, rfl⟩, ht, rfl⟩ := h
  obtain rfl := accepted.inj hmk
  exact perhaps_positive ht

theorem Node.readFrom {v : Value} {n : Node} (h : Node.ofValue v = accepted n) : n.ReadFrom v := by
  obtain ⟨fs, rfl, hread⟩ := record_eq_accepted.1 h
  simp only [Node.ofFields, map_eq, seq_eq, apply_eq_accepted] at hread
  obtain ⟨_, _, ⟨_, _, ⟨_, runtime, ⟨_, _, ⟨_, _, ⟨_, _, ⟨_, _, ⟨_, _, ⟨_, operation, ⟨_, provider, ⟨_, type, ⟨_, id,
    hmk, hid, rfl⟩, htype, rfl⟩, hprovider, rfl⟩, hoperation, rfl⟩, _, rfl⟩, _, rfl⟩, _, rfl⟩, _, rfl⟩, _, rfl⟩,
    hruntime, rfl⟩, _, rfl⟩, _, rfl⟩ := hread
  obtain rfl := accepted.inj hmk
  obtain ⟨hraw, hid⟩ := required_identifier hid
  obtain ⟨t, ht, htype⟩ := required_eq_accepted.1 htype
  have hprovider := (required_identifier hprovider).2
  have hoperation := (required_identifier hoperation).2
  have htimeout : runtime.timeout ≠ some 0 := by
    rcases optional_eq_accepted.1 hruntime with ⟨-, rfl⟩ | ⟨r, -, hr⟩
    · simp
    · exact NodeRuntime.timeout_ne_zero hr
  exact ⟨hraw, member_eq_accepted htype ▸ ht, hid, hprovider, hoperation, htimeout⟩

theorem Edge.readFrom {v : Value} {e : Edge} (h : Edge.ofValue v = accepted e) : e.ReadFrom v := by
  obtain ⟨fs, rfl, hread⟩ := record_eq_accepted.1 h
  simp only [Edge.ofFields, map_eq, seq_eq, apply_eq_accepted] at hread
  obtain ⟨_, _, ⟨_, _, ⟨_, _, ⟨_, _, ⟨_, _, ⟨_, target, ⟨_, source, ⟨_, id, hmk, hid, rfl⟩, hsource, rfl⟩,
    htarget, rfl⟩, _, rfl⟩, _, rfl⟩, _, rfl⟩, _, rfl⟩, _, rfl⟩ := hread
  obtain rfl := accepted.inj hmk
  obtain ⟨hraw, hid⟩ := required_identifier hid
  obtain ⟨hrawSource, hsource⟩ := required_identifier hsource
  obtain ⟨hrawTarget, htarget⟩ := required_identifier htarget
  exact ⟨hraw, hrawSource, hrawTarget, hid, hsource, htarget⟩

/-- The id and the name of a variable are read as they are. -/
theorem Variable.readFrom {v : Value} {x : Variable} (h : Variable.ofValue v = accepted x) :
    v.field? "id" = some (.text x.id) ∧ v.field? "name" = some (.text x.name) := by
  obtain ⟨fs, rfl, hread⟩ := record_eq_accepted.1 h
  simp only [Variable.ofFields, map_eq, seq_eq, apply_eq_accepted] at hread
  obtain ⟨_, _, ⟨_, _, ⟨_, _, ⟨_, _, ⟨_, _, ⟨_, name, ⟨_, id, hmk, hid, rfl⟩, hname, rfl⟩,
    _, rfl⟩, _, rfl⟩, _, rfl⟩, _, rfl⟩, _, rfl⟩ := hread
  obtain rfl := accepted.inj hmk
  obtain ⟨_, hid, hid'⟩ := required_eq_accepted.1 hid
  obtain ⟨_, hname, hname'⟩ := required_eq_accepted.1 hname
  rw [text_eq_accepted.1 hid'] at hid
  rw [text_eq_accepted.1 hname'] at hname
  exact ⟨hid, hname⟩

/-- A list that may be missing, and what was read from its items. -/
def Workflow.ItemsFrom {α : Type} (v : Value) (list : String) (read : Value → Reading α) (as : List α) : Prop :=
  ∃ vs, Validation.Listed ((v.field? list).getD .null) vs ∧ List.Forall₂ (fun v a => read v = accepted a) vs as

structure Workflow.ReadFrom (v : Value) (w : Workflow) : Prop where
  id : v.field? "id" = some (.text w.id)
  name : v.field? "name" = some (.text w.name)
  version : v.field? "version" = some (.text w.version)
  timeout : w.settings.timeout ≠ some 0
  nodes : ItemsFrom v "nodes" Node.ofValue w.nodes
  edges : ItemsFrom v "edges" Edge.ofValue w.edges
  vars : ItemsFrom v "variables" Variable.ofValue w.vars

theorem required_text {fs : Fields} {name s : String} (h : required fs (.word name) text = accepted s) :
    Table.get? fs name = some (.text s) := by
  obtain ⟨v, hv, hread⟩ := required_eq_accepted.1 h
  rw [hv, text_eq_accepted.1 hread]

theorem Workflow.ItemsFrom.of_items {α : Type} {fs : Fields} {list : String} {read : Value → Reading α}
    {as : List α} {v : Value} (hv : Table.get? fs list = some v) (h : items read v = accepted as) :
    ItemsFrom (.object fs) list read as := by
  obtain ⟨vs, rfl, has⟩ := items_eq_accepted.1 h
  refine ⟨vs, Or.inr ?_, has⟩
  change (Table.get? fs list).getD .null = _
  rw [hv]
  rfl

theorem Workflow.ItemsFrom.of_optional {α : Type} {fs : Fields} {list : String} {read : Value → Reading α}
    {as : List α} (h : optional fs (.word list) [] (items read) = accepted as) :
    ItemsFrom (.object fs) list read as := by
  rcases optional_eq_accepted.1 h with ⟨hv, rfl⟩ | ⟨v, hv, hread⟩
  · refine ⟨[], Or.inl ⟨?_, rfl⟩, List.Forall₂.nil⟩
    change (Table.get? fs list).getD .null = _
    rw [hv]
    rfl
  · exact of_items hv hread

theorem Workflow.readFrom {v : Value} {w : Workflow} (h : Workflow.ofValue v = accepted w) : w.ReadFrom v := by
  obtain ⟨fs, rfl, hread⟩ := record_eq_accepted.1 h
  simp only [Workflow.ofFields, map_eq, seq_eq, apply_eq_accepted] at hread
  obtain ⟨_, _, ⟨_, vars, ⟨_, edges, ⟨_, nodes, ⟨_, settings, ⟨_, version, ⟨_, _, ⟨_, name, ⟨_, id,
    hmk, hid, rfl⟩, hname, rfl⟩, _, rfl⟩, hversion, rfl⟩, hsettings, rfl⟩, hnodes, rfl⟩, hedges, rfl⟩, hvars, rfl⟩,
    _, rfl⟩ := hread
  obtain rfl := accepted.inj hmk
  obtain ⟨v, hv, hnodes⟩ := required_eq_accepted.1 hnodes
  have htimeout : settings.timeout ≠ some 0 := by
    rcases optional_eq_accepted.1 hsettings with ⟨-, rfl⟩ | ⟨s, -, hs⟩
    · simp
    · exact Settings.timeout_ne_zero hs
  exact ⟨required_text hid, required_text hname, required_text hversion, htimeout, .of_items hv hnodes,
    .of_optional hedges, .of_optional hvars⟩

end Flowgraph
