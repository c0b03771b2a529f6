import Flowgraph.Proofs.Edit.Effect
import Flowgraph.Proofs.Table
import Flowgraph.Proofs.Wire.RoundTrip

/-! What an update of a step leaves alone. The step is written as a payload, the updates are put into it, and it
is read again: a field that no update names comes back as it comes back from the payload, so that nothing but
numbers that are not finite is lost. The result then stands in the place of every step with the id. -/

namespace Flowgraph

open Numbered Reading

/-! Fields that are not named -/

/-- Each field of a step, its id apart, is that of another step unless it has one of the given names; places are
compared in a way of their own. -/
structure Node.AgreeBut (same : Option Position → Option Position → Prop) (names : List String) (m n : Node) :
    Prop where
  type : "type" ∉ names → n.type = m.type
  provider : "provider" ∉ names → n.provider = m.provider
  operation : "operation" ∉ names → n.operation = m.operation
  name : "name" ∉ names → n.name = m.name
  description : "description" ∉ names → n.description = m.description
  position : "position" ∉ names → same m.position n.position
  inputs : "inputs" ∉ names → n.inputs = m.inputs
  outputs : "outputs" ∉ names → n.outputs = m.outputs
  runtime : "runtime" ∉ names → n.runtime = m.runtime
  credentials : "credentials" ∉ names → n.credentials = m.credentials
  condition : "condition" ∉ names → n.condition = m.condition

/-- The coordinates are the same floating-point numbers. -/
def Position.Alike (p q : Position) : Prop :=
  q.written = p.written

/-- The same step but for fields of the given names. -/
structure Node.SameBut (names : List String) (m n : Node) : Prop where
  id : n.id = m.id
  rest : Node.AgreeBut (Option.Rel Position.Alike) names m n

theorem accepted_unique {α : Type} {r : Reading α} {a b : α} (ha : r = accepted a) (hb : r = accepted b) : a = b :=
  accepted.inj (ha.symm.trans hb)

namespace Node

variable {n n' : Node} {gs : Fields} {names : List String}

/-- A place comes back from a payload as it was written. -/
theorem position_of_read (hget : Table.get? gs "position" = n.position.map Position.toWire)
    (hread : n'.MadeOf gs) : n'.position = n.position.map Position.written := by
  cases hposition : n.position with
  | none =>
    rw [hposition] at hget
    have hmissing : perhaps gs (.word "position") Position.ofValue = accepted none := perhaps_of_missing hget hget
    exact accepted.inj (hread.position.symm.trans hmissing)
  | some p =>
    rw [hposition] at hget
    have hread : perhaps gs (.word "position") Position.ofValue = accepted n'.position := hread.position
    obtain ⟨q, hq, hn'⟩ := perhaps_some_of_get? hget rfl hread
    obtain rfl : p.written = q := accepted.inj (p.ofValue_toWire.symm.trans hq)
    exact hn'

/-- What is read from a payload in which some fields are those of a step has these fields of the step. -/
theorem agreeBut_of_read (hn : n.Normal) (hget : ∀ key ∉ names, Table.get? gs key = Table.get? n.wireFields key)
    (hread : n'.MadeOf gs) : n.written.AgreeBut Eq names n' := by
  have hwire {key : String} {v : Option Value} (h : key ∉ names) (hkey : Table.get? n.wireFields key = v) :
      Table.get? gs key = v := (hget key h).trans hkey
  refine
    { type := fun h => accepted_unique hread.type (required_of_get? (hwire h ?_) (member_nodeType _))
      provider := fun h => accepted_unique hread.provider
        (required_of_get? (hwire h ?_) (identifier_text hn.provider))
      operation := fun h => accepted_unique hread.operation
        (required_of_get? (hwire h ?_) (identifier_text hn.operation))
      name := fun h => accepted_unique hread.name (perhaps_wireText (hwire h ?_) (Or.inr rfl))
      description := fun h => accepted_unique hread.description (perhaps_wireText (hwire h ?_) (Or.inr rfl))
      position := fun h => (position_of_read (hwire h ?_) hread).symm
      inputs := fun h => accepted_unique hread.inputs (optional_of_get? (hwire h ?_) (fields_object _))
      outputs := fun h => accepted_unique hread.outputs
        (perhaps_of_written (hwire h ?_) (Or.inr rfl) fun _ _ => ⟨rfl, fields_object _⟩)
      runtime := fun h => accepted_unique hread.runtime
        (optional_of_get? (hwire h ?_) (NodeRuntime.ofValue_toWire hn.timeout))
      credentials := fun h => accepted_unique hread.credentials
        (perhaps_of_written_self (hwire h ?_) (Or.inr rfl) fun c _ => ⟨rfl, c.ofValue_toWire⟩)
      condition := fun h => accepted_unique hread.condition
        (perhaps_of_written_self (hwire h ?_) (Or.inr rfl) fun c _ => ⟨rfl, c.ofValue_toWire⟩) }
  all_goals simp [wireFields, written, FieldName.word]

/-- A step that comes back from a payload with some fields put into it is the same but for these exactly if the
others held no number that is not finite. -/
theorem sameBut_iff (hn : n.Normal) (hget : ∀ key ∉ names, Table.get? gs key = Table.get? n.wireFields key)
    (hread : n'.MadeOf gs) (hid : n'.id = n.id) : n.SameBut names n' ↔
      ("inputs" ∉ names → fieldsFinite n.inputs = true) ∧ ("outputs" ∉ names → n.outputs.all fieldsFinite = true) := by
  have hagree := agreeBut_of_read hn hget hread
  have hposition : "position" ∉ names → Option.Rel Position.Alike n.position n'.position := by
    intro hname
    have hwire : Table.get? n.wireFields "position" = n.position.map Position.toWire := by simp [wireFields]
    rw [position_of_read ((hget _ hname).trans hwire) hread]
    cases n.position with
    | none => exact .none
    | some p => exact .some rfl
  have hinputs : n.written.inputs = n.inputs ↔ fieldsFinite n.inputs = true := fieldsToWire_eq_self n.inputs
  have houtputs : n.written.outputs = n.outputs ↔ n.outputs.all fieldsFinite = true :=
    map_fieldsToWire_eq_self n.outputs
  rw [← hinputs, ← houtputs]
  constructor
  · intro h
    refine ⟨fun hname => ?_, fun hname => ?_⟩
    · exact (hagree.inputs hname).symm.trans (h.rest.inputs hname)
    · exact (hagree.outputs hname).symm.trans (h.rest.outputs hname)
  · rintro ⟨hi, ho⟩
    refine ⟨hid, { hagree with position := hposition, inputs := fun h => ?_, outputs := fun h => ?_ }⟩
    · exact (hagree.inputs h).trans (hi h)
    · exact (hagree.outputs h).trans (ho h)

end Node

/-! The step that is put in -/

namespace Edit

variable {count count' : Nat}

/-- No id is generated for a payload that has one. -/
theorem gives_withId {kind id : String} {fs gs : Fields} (hid : Table.get? fs "id" = some (.text id)) (hne : id ≠ "") :
    (withId kind fs).Gives count gs count' ↔ fs = gs ∧ count = count' := by
  have htruthy : (Table.getD fs "id" .null).truthy = true := by
    rw [Table.getD, hid]
    exact decide_eq_true hne
  rw [withId, if_pos htruthy, gives_pure]

theorem gives_nodeOf_object {action : EditAction} {id : String} {fs : Fields} {n : Node}
    (hid : Table.get? fs "id" = some (.text id)) (hne : id ≠ "") :
    (nodeOf action (.raw (.object fs))).Gives count n count' ↔ n.MadeOf fs ∧ count = count' := by
  have hentries : (Value.object fs).entries = .ok fs := rfl
  simp only [nodeOf, gives_bind, gives_ofFailure, hentries, Except.ok.injEq]
  constructor
  · rintro ⟨_, _, ⟨rfl, rfl⟩, gs, k, hgs, haccept⟩
    obtain ⟨rfl, rfl⟩ := (gives_withId hid hne).1 hgs
    obtain ⟨hread, rfl⟩ := gives_accept.1 haccept
    exact ⟨Node.ofFields_eq_accepted.1 hread, rfl⟩
  · rintro ⟨hmade, rfl⟩
    exact ⟨fs, count, ⟨rfl, rfl⟩, fs, count, (gives_withId hid hne).2 ⟨rfl, rfl⟩,
      gives_accept.2 ⟨Node.ofFields_eq_accepted.2 hmade, rfl⟩⟩

end Edit

namespace Workflow

open Edit

variable {w w' : Workflow} {id updates : Value} {count count' : Nat}

def updatedFields (n : Node) (fs : Fields) : Fields :=
  (Table.merge n.wireFields fs).set "id" (.text n.id)

/-- A field that no update names is that of the step. -/
theorem get?_updatedFields {n : Node} {fs : Fields} {key : String} (h : key ∉ Table.keys fs) :
    Table.get? (updatedFields n fs) key = Table.get? n.wireFields key := by
  have hmerge := Table.get?_merge_of_notMem h n.wireFields
  by_cases hid : key = "id"
  · subst hid
    rw [updatedFields, Table.get?_set_self]
    simp [Node.wireFields]
  · rw [updatedFields, Table.get?_set_ne _ _ hid, hmerge]

/-- What an update that is not refused does. -/
theorem gives_updateNode (hid : ∀ n ∈ w.nodes, n.id ≠ "") (h : (w.updateNode id updates).Gives count w' count') :
    ∃ (n : Node) (fs : Fields) (n' : Node), w.nodeAt? id = some n ∧ updates = .object fs ∧
      n'.MadeOf (updatedFields n fs) ∧
      w' = { w with nodes := w.nodes.map fun m => if m.id = n.id then { n' with id := n.id } else m } := by
  unfold updateNode at h
  obtain ⟨n, _, hn, h⟩ := gives_bind.1 h
  obtain ⟨hat, rfl⟩ := gives_nodeAt.1 hn
  cases updates with
  | object fs =>
    dsimp only at h
    split_ifs at h with hsame
    · unfold replaceNode at h
      obtain ⟨current, _, hcurrent, h⟩ := gives_bind.1 h
      obtain ⟨hagain, rfl⟩ := gives_nodeAt.1 hcurrent
      obtain rfl : n = current := Option.some.inj (hat.symm.trans hagain)
      obtain ⟨n', _, hn', h⟩ := gives_bind.1 h
      obtain ⟨rfl, -⟩ := gives_pure.1 h
      have hne := hid n (mem_of_nodeAt? hat).1
      obtain ⟨hmade, -⟩ := (gives_nodeOf_object (Table.get?_set_self _ _ _) hne).1 hn'
      exact ⟨n, fs, n', hat, rfl, hmade, rfl⟩
    · exact absurd h not_gives_refuse
  | _ =>
    obtain ⟨hno, -⟩ := gives_ofFailure.1 h
    cases hno

/-- The step that is found is the first with its id. -/
theorem exists_split_of_nodeAt? {n : Node} (h : w.nodeAt? id = some n) :
    ∃ before after, w.nodes = before ++ n :: after ∧ n.id ∉ before.map Node.id := by
  obtain ⟨s, -, hfind⟩ := Option.bind_eq_some_iff.1 h
  obtain ⟨hs, before, after, hnodes, hbefore⟩ := List.find?_eq_some_iff_append.1 hfind
  obtain rfl : n.id = s := of_decide_eq_true hs
  refine ⟨before, after, hnodes, fun hmem => ?_⟩
  obtain ⟨m, hm, hmid⟩ := List.mem_map.1 hmem
  simpa [hmid] using hbefore m hm

/-- The first step with an id is replaced, and so are those behind it that have the id. -/
theorem map_replaced {before after : List Node} {n n' : Node} (h : n.id ∉ before.map Node.id) :
    (before ++ n :: after).map (fun m => if m.id = n.id then n' else m) =
      before ++ n' :: after.map fun m => if m.id = n.id then n' else m := by
  have hfront : before.map (fun m => if m.id = n.id then n' else m) = before := by
    refine (List.map_congr_left fun m hm => if_neg fun heq => h ?_).trans (List.map_id _)
    exact heq ▸ List.mem_map_of_mem hm
  rw [List.map_append, List.map_cons, hfront, if_pos rfl]

/-- A step in the place of all steps with an id changes nothing exactly if these are all that step. -/
theorem map_replaced_eq_self {nodes : List Node} {id : String} {n : Node} :
    nodes.map (fun m => if m.id = id then n else m) = nodes ↔ ∀ m ∈ nodes, m.id = id → m = n := by
  conv_lhs => rhs; rw [← List.map_id nodes]
  rw [List.map_inj_left]
  refine forall₂_congr fun m _ => ?_
  split_ifs with hm
  · rw [id_eq, forall_prop_of_true hm, eq_comm]
  · simp [hm]

/-- An update that is not refused changes the first step with the id, and in it at most what the updates name,
apart from numbers in its inputs and outputs that are not finite; every other step with the id is replaced by it,
and nothing else changes. -/
theorem updateNode_changes (hw : w.Normal) (h : (w.updateNode id updates).Gives count w' count') :
    ∃ fs before n n' after, (updates = .object fs ∧ id = .text n.id) ∧
      (w.nodes = before ++ n :: after ∧ n.id ∉ before.map Node.id) ∧
      w' = { w with nodes := before ++ n' :: after.map fun m => if m.id = n.id then n' else m } ∧
      (w' = { w with nodes := before ++ n' :: after } ↔ ∀ m ∈ after, m.id = n.id → m = n') ∧
      (n.SameBut (Table.keys fs) n' ↔
        ("inputs" ∉ Table.keys fs → fieldsFinite n.inputs = true) ∧
          ("outputs" ∉ Table.keys fs → n.outputs.all fieldsFinite = true)) ∧
      n.SameBut ("inputs" :: "outputs" :: Table.keys fs) n' := by
  obtain ⟨n, fs, made, hat, rfl, hmade, rfl⟩ := gives_updateNode (fun n hn => (hw.nodes n hn).id.2) h
  obtain ⟨hmem, rfl⟩ := mem_of_nodeAt? hat
  obtain ⟨before, after, hnodes, hbefore⟩ := exists_split_of_nodeAt? hat
  have hn := hw.nodes n hmem
  -- the id that is written into the payload is the one that is read
  have hid : made.id = n.id :=
    accepted_unique hmade.id (required_of_get? (Table.get?_set_self _ _ _) (identifier_text hn.id))
  have hmadeid : { made with id := n.id } = made := by
    rw [← hid]
  rw [hmadeid]
  have hresult : w.nodes.map (fun m => if m.id = n.id then made else m) =
      before ++ made :: after.map fun m => if m.id = n.id then made else m := by
    rw [hnodes]
    exact map_replaced hbefore
  refine ⟨fs, before, n, made, after, ⟨rfl, rfl⟩, ⟨hnodes, hbefore⟩, by rw [hresult], ?_, ?_, ?_⟩
  · rw [hresult, ← map_replaced_eq_self]
    constructor
    · intro heq
      exact (List.cons.inj (List.append_cancel_left (congrArg Workflow.nodes heq))).2
    · intro heq
      rw [heq]
  · exact Node.sameBut_iff hn (fun _ => get?_updatedFields) hmade hid
  · refine (Node.sameBut_iff hn (fun key hkey => get?_updatedFields fun hmem => hkey ?_) hmade hid).2 ?_
    · exact List.mem_cons_of_mem _ (List.mem_cons_of_mem _ hmem)
    · simp

def paired (inputs : Fields) (id : String) : Workflow where
  id := "w"
  name := "w"
  version := "1"
  nodes :=
    [{ id := "a", type := .trigger, provider := "p", operation := "o", inputs },
      { id, type := .action, provider := "p", operation := "o" }]

theorem normal_paired (inputs : Fields) {id : String} (h : Text.Trimmed id) : (paired inputs id).Normal := by
  have htrimmed : ∀ s ∈ ["a", "p", "o"], Text.Trimmed s := by decide
  refine ⟨by simp [paired], fun n hn => ?_, fun e he => absurd he List.not_mem_nil⟩
  simp only [paired, List.mem_cons, List.not_mem_nil, or_false] at hn
  rcases hn with rfl | rfl
  · exact ⟨htrimmed _ (by simp), htrimmed _ (by simp), htrimmed _ (by simp), by simp, by simp⟩
  · exact ⟨h, htrimmed _ (by simp), htrimmed _ (by simp), by simp, by simp⟩

def named (inputs : Fields) : Node :=
  { id := "a", type := .trigger, provider := "p", operation := "o", name := some "A", inputs }

def naming : Value :=
  .object [("name", .text "A")]

/-- Of two steps the first gets a name, and that is all. -/
theorem updateNode_changes_paired :
    (paired [("x", .list [.int 1, .null])] "b").Normal ∧ ∃ w' count',
      ((paired [("x", .list [.int 1, .null])] "b").updateNode (.text "a") naming).Gives 0 w' count' ∧
      ∃ n m n', (paired [("x", .list [.int 1, .null])] "b").nodes = [n, m] ∧
        w' = { paired [("x", .list [.int 1, .null])] "b" with nodes := [n', m] } ∧ n.SameBut ["name"] n' := by
  set w := paired [("x", .list [.int 1, .null])] "b"
  have hnormal : w.Normal := normal_paired _ (by decide)
  have hgives : (w.updateNode (.text "a") naming).Gives 0
      { w with nodes := [named [("x", .list [.int 1, .null])], w.nodes.getLast (by decide)] } 0 := by
    rfl
  refine ⟨hnormal, _, 0, hgives, ?_⟩
  obtain ⟨fs, before, n, n', after, ⟨hfs, hid⟩, ⟨hnodes, hbefore⟩, hresult, -, hsame, -⟩ :=
    updateNode_changes hnormal hgives
  obtain rfl := Value.object.inj hfs
  have hna : n.id = "a" := (Value.text.inj hid).symm
  cases before with
  | cons first rest =>
    have hfirst : first.id = "a" := congrArg Node.id (List.cons.inj hnodes).1.symm
    exact absurd (by rw [hna, List.map_cons, hfirst]; exact List.mem_cons_self) hbefore
  | nil =>
    obtain ⟨rfl, rfl⟩ := List.cons.inj hnodes
    refine ⟨_, _, n', rfl, hresult, hsame.2 ⟨fun _ => ?_, fun _ => rfl⟩⟩
    decide +kernel

/-- A step with the id of the trigger is lost, and so is an input that is not finite. -/
theorem updateNode_changes_more :
    (∃ w', ((paired [] "a").updateNode (.text "a") naming).Gives 0 w' 0 ∧
      ¬ ∃ before n n' after, (paired [] "a").nodes = before ++ n :: after ∧
        w' = { paired [] "a" with nodes := before ++ n' :: after }) ∧
    ∃ w', ((paired [("x", .float Decimal.infinity)] "b").updateNode (.text "a") naming).Gives 0 w' 0 ∧
      w'.nodes.map Node.inputs = [[("x", .null)], []] := by
  constructor
  · refine ⟨{ paired [] "a" with nodes := [named [], named []] }, rfl, ?_⟩
    rintro ⟨before, n, n', after, hnodes, hresult⟩
    have hresult : [named [], named []] = before ++ n' :: after := congrArg Workflow.nodes hresult
    cases before with
    | nil =>
      have hlast := (List.cons.inj hnodes).2.trans (List.cons.inj hresult).2.symm
      exact absurd (congrArg (List.map Node.type) hlast) (by decide)
    | cons first rest =>
      have hfirst := (List.cons.inj hnodes).1.trans (List.cons.inj hresult).1.symm
      exact absurd (congrArg Node.name hfirst) (by decide)
  · exact ⟨{ paired [] "b" with nodes := [named [("x", .null)], _] }, rfl, rfl⟩

end Workflow

end Flowgraph
