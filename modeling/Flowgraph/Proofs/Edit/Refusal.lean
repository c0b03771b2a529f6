import Flowgraph.Proofs.Edit.Effect
import Flowgraph.Proofs.Failing
import Flowgraph.Proofs.Value.Entries

/-! How edits fail. What is wrong with a step, a connection, an id or a place is refused by a fault that says so.
But the data of an operation are taken apart before anything in them is read, and what has not the form that its
action takes for granted makes the operation fail by itself: what is given for a step or a connection and is no
table, updates that are no object, and an order that is no sequence or whose unknown members are no texts. -/

namespace Flowgraph

open Numbered Flowgraph.Numbering

theorem Mishap.raise_eq_error {α : Type} {kind : FaultKind} {message : String} {given : Fields} {e : Mishap}
    (h : (raise kind message given : Except Mishap α) = .error e) : ∃ f, e = .fault f ∧ f.kind = kind :=
  ⟨_, (Except.error.inj h).symm, Fault.kind_of kind message given⟩

/-- A fault that refuses an edit. -/
def Mishap.IsRefusal (e : Mishap) : Prop :=
  ∃ f, e = .fault f ∧ f.kind = .edit

namespace Edit

/-- The work is refused, or it fails with one of these failures, and with each of them it does. -/
structure Escapes {α : Type} (x : Numbered α) (count : Nat) (F : Failure → Prop) : Prop where
  cases : ∀ e, x.Fails count e → e.IsRefusal ∨ ∃ f, F f ∧ e = .failure f
  fails : ∀ f, F f → x.Fails count (.failure f)

section
variable {α β : Type} {x : Numbered α} {f : α → Numbered β} {count : Nat} {F F' : Failure → Prop}
  {action : EditAction}

theorem Escapes.congr (h : Escapes x count F) (hF : ∀ f, F f ↔ F' f) : Escapes x count F' := by
  obtain rfl : F = F' := funext fun f => propext (hF f)
  exact h

/-- Nothing but refusals comes of work without a failure to escape. -/
theorem Escapes.refused_iff (h : Escapes x count F) : (∀ e, x.Fails count e → e.IsRefusal) ↔ ∀ f, ¬ F f := by
  constructor
  · intro hrefused f hf
    obtain ⟨g, hg, -⟩ := hrefused _ (h.fails f hf)
    cases hg
  · intro hno e he
    rcases h.cases e he with hrefusal | ⟨f, hf, -⟩
    · exact hrefusal
    · exact absurd hf (hno f)

theorem escapes_of_not_fails (h : ∀ e, ¬ x.Fails count e) : Escapes x count fun _ => False where
  cases e he := absurd he (h e)
  fails _ hf := hf.elim

theorem escapes_pure (a : α) : Escapes (pure a) count fun _ => False :=
  escapes_of_not_fails fun _ => not_fails_pure

theorem escapes_of_raise {message : String} {given : Fields} :
    Escapes (.of (Mishap.raise .edit message given) : Numbered α) count fun _ => False where
  cases _ he := Or.inl (Mishap.raise_eq_error (fails_of.1 he))
  fails _ hf := hf.elim

theorem escapes_refuse {message : String} : Escapes (refuse action message : Numbered α) count fun _ => False :=
  escapes_of_raise

theorem fails_ofFailure {r : Except Failure α} {e : Mishap} :
    (ofFailure r).Fails count e ↔ ∃ f, r = .error f ∧ e = .failure f := by
  cases r <;> simp [ofFailure, Mishap.ofFailure, eq_comm]

theorem escapes_ofFailure (r : Except Failure α) : Escapes (ofFailure r) count fun f => r = .error f where
  cases _ he := Or.inr (fails_ofFailure.1 he)
  fails f hf := fails_ofFailure.2 ⟨f, hf, rfl⟩

theorem escapes_accept {head : String} (r : Reading α) : Escapes (accept action head r) count fun _ => False := by
  cases r with
  | accepted a => exact escapes_pure a
  | rejected issues => exact escapes_refuse

/-- Work that goes on with a result lets through what its parts let through. -/
theorem Escapes.bind {G : α → Failure → Prop} (hx : Escapes x count F)
    (hf : ∀ a k, x.Gives count a k → Escapes (f a) k (G a)) :
    Escapes (x >>= f) count fun g => F g ∨ ∃ a k, x.Gives count a k ∧ G a g where
  cases e he := by
    rcases fails_bind.1 he with he | ⟨a, k, ha, he⟩
    · exact (hx.cases e he).imp_right fun ⟨g, hg, heq⟩ => ⟨g, Or.inl hg, heq⟩
    · exact ((hf a k ha).cases e he).imp_right fun ⟨g, hg, heq⟩ => ⟨g, Or.inr ⟨a, k, ha, hg⟩, heq⟩
  fails g hg := by
    rcases hg with hg | ⟨a, k, ha, hg⟩
    · exact fails_bind.2 (Or.inl (hx.fails g hg))
    · exact fails_bind.2 (Or.inr ⟨a, k, ha, (hf a k ha).fails g hg⟩)

/-- Work that goes on, and then lets nothing through. -/
theorem Escapes.bind_left (hx : Escapes x count F)
    (hf : ∀ a k, x.Gives count a k → Escapes (f a) k fun _ => False) : Escapes (x >>= f) count F :=
  (hx.bind hf).congr fun g => by simp

theorem not_fails_withId {kind : String} {fs : Fields} {e : Mishap} : ¬ (withId kind fs).Fails count e := by
  unfold withId
  split_ifs
  · exact not_fails_pure
  · simp

theorem escapes_nodeOf (draft : Draft Node) :
    Escapes (nodeOf action draft) count fun f => ∃ v, draft = .raw v ∧ v.entries = .error f := by
  cases draft with
  | made n => exact (escapes_pure n).congr (by simp)
  | raw v =>
    refine (Escapes.bind_left (escapes_ofFailure v.entries) fun fs _ _ => ?_).congr (by simp)
    exact (escapes_of_not_fails fun _ => not_fails_withId).bind_left fun _ _ _ => escapes_accept _

theorem escapes_edgeOf (v : Value) : Escapes (edgeOf action (.raw v)) count fun f => v.entries = .error f := by
  refine Escapes.bind_left (escapes_ofFailure v.entries) fun fs _ _ => ?_
  exact (escapes_of_not_fails fun _ => not_fails_withId).bind_left fun _ _ _ => escapes_accept _

end

end Edit

namespace Workflow

open Edit

variable {w : Workflow} {count : Nat}

/-! Kinds of edits -/

theorem escapes_nodeAt {v : Value} {action : EditAction} :
    Escapes (w.nodeAt v action) count fun _ => False := by
  unfold nodeAt
  cases w.nodeAt? v with
  | some n => exact escapes_pure n
  | none => exact escapes_refuse

theorem escapes_addNode (draft : Draft Node) (after : Value) :
    Escapes (w.addNode draft after) count fun f => ∃ v, draft = .raw v ∧ v.entries = .error f := by
  unfold addNode
  refine (escapes_nodeOf draft).bind_left fun n k _ => ?_
  split_ifs
  · exact escapes_refuse
  · exact escapes_pure _
  · refine escapes_nodeAt.bind_left fun anchor k _ => ?_
    exact (escapes_of_not_fails fun _ => not_fails_stamped).bind_left fun _ _ _ => escapes_pure _

/-- Work on a step lets nothing through where there is no such step. -/
theorem escapes_nodeAt_bind {α : Type} {v : Value} {action : EditAction} {f : Node → Numbered α}
    {F : Failure → Prop} (hf : ∀ n, Escapes (f n) count F) :
    Escapes (w.nodeAt v action >>= f) count fun g => (w.nodeAt? v).isSome = true ∧ F g := by
  refine (Escapes.bind escapes_nodeAt (G := fun _ => F) fun n k hn => ?_).congr fun g => ?_
  · obtain ⟨-, rfl⟩ := gives_nodeAt.1 hn
    exact hf n
  · simp [gives_nodeAt, Option.isSome_iff_exists]

/-- A step is looked for first, so that what is not there is refused whatever is to take its place. -/
theorem escapes_replaceNode (id : Value) (draft : Draft Node) :
    Escapes (w.replaceNode id draft) count fun f =>
      (w.nodeAt? id).isSome = true ∧ ∃ v, draft = .raw v ∧ v.entries = .error f := by
  unfold replaceNode
  refine escapes_nodeAt_bind fun current => ?_
  -- an object has entries, whatever id has been written into it
  refine ((escapes_nodeOf _).bind_left fun n k _ => escapes_pure _).congr fun f => ?_
  cases draft with
  | made n => simp
  | raw v => cases v <;> simp [Value.entries]

/-- Whatever is not an object has no updates to be asked for. -/
theorem escapes_updateNode (id updates : Value) :
    Escapes (w.updateNode id updates) count fun f =>
      (w.nodeAt? id).isSome = true ∧ updates.fields? = none ∧
        f = ⟨.noAttribute, "'" ++ updates.kindName ++ "' object has no attribute 'get'"⟩ := by
  unfold updateNode
  refine escapes_nodeAt_bind fun current => ?_
  cases updates with
  | object fs =>
    dsimp only
    split_ifs
    · exact (escapes_replaceNode id _).congr (by simp [Value.entries, Value.fields?])
    · exact escapes_refuse.congr (by simp [Value.fields?])
  | _ => exact (escapes_ofFailure _).congr (by simp [Value.fields?, eq_comm])

theorem escapes_reorderNodes (order : Value) :
    Escapes (w.reorderNodes order) count fun f => order.members = .error f ∨
      ∃ ids, order.members = .ok ids ∧ joinTexts (ids.filter fun v => (w.nodeAt? v).isNone) = .error f := by
  unfold reorderNodes
  refine (Escapes.bind (escapes_ofFailure order.members) (G := fun ids f =>
    joinTexts (ids.filter fun v => (w.nodeAt? v).isNone) = .error f) fun ids k _ => ?_).congr fun f => ?_
  · dsimp only
    split_ifs with hempty
    · have hnone : joinTexts [] = .ok (", ".intercalate []) := rfl
      exact (escapes_pure _).congr fun f => by simp [List.isEmpty_iff.1 hempty, hnone]
    · exact (escapes_ofFailure _).bind_left fun _ _ _ => escapes_refuse
  · simp [gives_ofFailure]

theorem escapes_addEdge (v : Value) : Escapes (w.addEdge (.raw v)) count fun f => v.entries = .error f := by
  unfold addEdge
  refine (escapes_edgeOf v).bind_left fun e k _ => ?_
  refine escapes_nodeAt.bind_left fun source k _ => escapes_nodeAt.bind_left fun target k _ => ?_
  split_ifs
  · exact escapes_refuse
  · exact escapes_pure _

theorem escapes_removeEdge (id : Value) : Escapes (w.removeEdge id) count fun _ => False := by
  unfold removeEdge
  split
  · exact escapes_refuse
  · exact escapes_pure _

theorem escapes_moveNode (id v : Value) : Escapes (w.moveNode id (.raw v)) count fun _ => False := by
  unfold moveNode
  refine escapes_nodeAt.bind_left fun n k _ => ?_
  exact (escapes_accept (Position.ofValue v)).bind_left fun p k _ => escapes_pure _

/-! Operations -/

/-- Work on a field that must be given is refused where it is missing. -/
theorem escapes_needed_bind {α : Type} {data : Fields} {key : String} {action : EditAction} {f : Value → Numbered α}
    {F : Failure → Prop} (hf : Escapes (f (data.getD key .null)) count F) :
    Escapes (needed data key action >>= f) count fun g => (data.getD key .null).isNull = false ∧ F g := by
  unfold needed
  generalize data.getD key .null = v at hf
  cases v with
  | null =>
    refine (Escapes.bind_left escapes_refuse fun a k ha => absurd ha not_gives_refuse).congr fun g => ?_
    simp [Value.isNull]
  | _ => exact hf.congr (by simp [Value.isNull])

theorem escapes_needed_bind_of_given {α : Type} {data : Fields} {key : String} {action : EditAction}
    {f : Value → Numbered α} {F : Failure → Prop} (hf : Escapes (f (data.getD key .null)) count F)
    (hgiven : ∀ g, F g → (data.getD key .null).isNull = false) : Escapes (needed data key action >>= f) count F :=
  (escapes_needed_bind hf).congr fun g => and_iff_right_of_imp (hgiven g)

def LetsThrough (w : Workflow) (o : EditOperation) (f : Failure) : Prop :=
  let given (key : String) := o.data.getD key .null
  match o.action with
  | .editNode =>
    (w.nodeAt? (given "nodeId")).isSome = true ∧
      if (given "node").isNull then
        (given "updates").isNull = false ∧ (given "updates").fields? = none ∧
          f = ⟨.noAttribute, "'" ++ (given "updates").kindName ++ "' object has no attribute 'get'"⟩
      else (given "node").entries = .error f
  | .addNode => (given "node").entries = .error f
  | .reorderNodes =>
    let order := if (given "nodeOrder").isNull then given "nodeIds" else given "nodeOrder"
    order.isNull = false ∧ (order.members = .error f ∨
      ∃ ids, order.members = .ok ids ∧ joinTexts (ids.filter fun v => (w.nodeAt? v).isNone) = .error f)
  | .addEdge => (given "edge").entries = .error f
  | .removeNode | .removeEdge | .updateNodePosition => False

theorem isNull_eq_false_of_entries {v : Value} {f : Failure} (h : v.entries = .error f) : v.isNull = false := by
  cases v with
  | null => cases h
  | _ => rfl

theorem isNull_eq_false_of_nodeAt? {v : Value} (h : (w.nodeAt? v).isSome = true) : v.isNull = false := by
  cases v with
  | null => cases h
  | _ => rfl

/-- Either name of an order is taken, the first if both are given. -/
theorem getD_order (data : Fields) :
    data.getD
        (if (data.getD "nodeOrder" .null).isNull && !(data.getD "nodeIds" .null).isNull then "nodeIds" else "nodeOrder")
        .null =
      if (data.getD "nodeOrder" .null).isNull then data.getD "nodeIds" .null else data.getD "nodeOrder" .null := by
  cases hfirst : data.getD "nodeOrder" .null with
  | null => cases hsecond : data.getD "nodeIds" .null <;> simp [Value.isNull, hfirst, hsecond]
  | _ => simp [Value.isNull, hfirst]

/-- What comes of an operation is a workflow, a refusal, or one of the failures that it lets through. -/
theorem escapes_apply (o : EditOperation) : Escapes (w.apply o) count (w.LetsThrough o) := by
  unfold apply LetsThrough
  dsimp only
  generalize o.data = data
  cases o.action with
  | editNode =>
    dsimp only
    refine escapes_needed_bind_of_given ?_ fun g hg => isNull_eq_false_of_nodeAt? hg.1
    split_ifs with hnode
    · exact (escapes_needed_bind (escapes_updateNode _ _)).congr fun f => and_left_comm
    · exact (escapes_replaceNode _ _).congr (by simp)
  | addNode =>
    dsimp only
    refine escapes_needed_bind_of_given ?_ fun g => isNull_eq_false_of_entries
    exact (escapes_addNode _ _).congr (by simp)
  | removeNode =>
    dsimp only
    exact escapes_needed_bind_of_given (escapes_pure _) nofun
  | reorderNodes =>
    dsimp only
    rw [← getD_order]
    exact escapes_needed_bind (escapes_reorderNodes _)
  | addEdge =>
    dsimp only
    split_ifs with hedge
    · refine (escapes_addEdge _).congr fun f => iff_of_false ?_ ?_
      · simp [Value.entries]
      · exact fun h => absurd (isNull_eq_false_of_entries h) (by simp [hedge])
    · exact escapes_addEdge _
  | removeEdge =>
    dsimp only
    exact escapes_needed_bind_of_given (escapes_removeEdge _) nofun
  | updateNodePosition =>
    dsimp only
    exact escapes_needed_bind_of_given (escapes_needed_bind_of_given (escapes_moveNode _ _) nofun) nofun

/-! The form of the data -/

/-- The data of an operation have the form that its action takes for granted. -/
def HasForm (w : Workflow) (o : EditOperation) : Prop :=
  let given (key : String) := o.data.getD key .null
  match o.action with
  | .editNode =>
    (w.nodeAt? (given "nodeId")).isSome = true →
      if (given "node").isNull then (given "updates").isNull = true ∨ (given "updates").fields?.isSome = true
      else (given "node").IsTabular
  | .addNode => (given "node").IsTabular
  | .reorderNodes =>
    let order := if (given "nodeOrder").isNull then given "nodeIds" else given "nodeOrder"
    order.isNull = true ∨ ∃ ids, order.members? = some ids ∧ ∀ v ∈ ids, v.text?.isSome = true
  | .addEdge => (given "edge").IsTabular
  | .removeNode | .removeEdge | .updateNodePosition => True

theorem entries_ne_error_iff {v : Value} : (∀ f, ¬ v.entries = .error f) ↔ v.IsTabular := by
  rcases Value.entries_cases v with ⟨hv, fs, hfs⟩ | ⟨hv, f, hf, -⟩
  · exact iff_of_true (fun f hf => nomatch hfs.symm.trans hf) hv
  · exact iff_of_false (fun h => h f hf) hv

/-- Only texts can be joined. -/
theorem errs_joinTexts {vs : List Value} : Errs (joinTexts vs) ↔ ∃ v ∈ vs, v.text?.isSome = false := by
  unfold joinTexts
  rw [errs_bind_of_not fun _ => not_errs_pure _, errs_mapM]
  constructor
  · rintro ⟨⟨v, index⟩, hmem, hv⟩
    refine ⟨v, List.fst_mem_of_mem_zipIdx hmem, ?_⟩
    cases v with
    | text s => exact absurd hv (not_errs_ok s)
    | _ => rfl
  · rintro ⟨v, hv, htext⟩
    rw [← List.zipIdx_map_fst 0 vs] at hv
    obtain ⟨⟨_, index⟩, hmem, rfl⟩ := List.mem_map.1 hv
    refine ⟨_, hmem, ?_⟩
    dsimp only at htext ⊢
    split
    · cases htext
    · exact errs_error _

theorem kind_of_members {v : Value} {f : Failure} (h : v.members = .error f) : f.kind = .badType := by
  unfold Value.members at h
  split at h <;> cases h
  rfl

theorem kind_of_joinTexts {vs : List Value} {f : Failure} (h : joinTexts vs = .error f) : f.kind = .badType := by
  unfold joinTexts at h
  rcases bind_eq_error.1 h with h | ⟨texts, -, h⟩
  · obtain ⟨⟨v, index⟩, -, hv⟩ := exists_of_mapM_eq_error h
    cases v <;> cases hv <;> rfl
  · cases h

/-- An order is a sequence of texts, since nothing else can be known as a step. -/
theorem order_iff {order : Value} :
    (∀ f, ¬ (order.members = .error f ∨
      ∃ ids, order.members = .ok ids ∧ joinTexts (ids.filter fun v => (w.nodeAt? v).isNone) = .error f)) ↔
      ∃ ids, order.members? = some ids ∧ ∀ v ∈ ids, v.text?.isSome = true := by
  unfold Value.members
  cases order.members? with
  | none => exact iff_of_false (fun h => h _ (Or.inl rfl)) (by simp)
  | some ids =>
    have hjoined : (∀ f, ¬ joinTexts (ids.filter fun v => (w.nodeAt? v).isNone) = .error f) ↔
        ∀ v ∈ ids, v.text?.isSome = true := by
      rw [← not_exists]
      change ¬ Errs _ ↔ _
      rw [errs_joinTexts]
      simp only [List.mem_filter, not_exists, not_and, Bool.not_eq_false, and_imp]
      refine forall₂_congr fun v _ => ⟨fun h => ?_, fun h _ => h⟩
      cases hv : w.nodeAt? v with
      | none => exact h (by simp [hv])
      | some n => rw [(mem_of_nodeAt? hv).2]; rfl
    simpa using hjoined

theorem letsThrough_nothing_iff {o : EditOperation} : (∀ f, ¬ w.LetsThrough o f) ↔ HasForm w o := by
  unfold LetsThrough HasForm
  dsimp only
  generalize o.data = data
  cases o.action with
  | editNode =>
    dsimp only
    rw [← not_exists, exists_and_left, not_and]
    refine imp_congr_right fun _ => ?_
    split_ifs with hnode
    · cases hnull : (data.getD "updates" .null).isNull <;> simp [Option.isSome_iff_ne_none]
    · rw [not_exists]
      exact entries_ne_error_iff
  | addNode => exact entries_ne_error_iff
  | reorderNodes =>
    dsimp only
    generalize (if (data.getD "nodeOrder" .null).isNull then _ else _) = order
    rw [← order_iff (w := w)]
    cases horder : order.isNull <;> simp
  | addEdge => exact entries_ne_error_iff
  | removeNode | removeEdge | updateNodePosition => exact iff_of_true (fun _ => not_false) trivial

theorem kind_of_letsThrough {o : EditOperation} {f : Failure} (h : w.LetsThrough o f) :
    f.kind = .badType ∨ f.kind = .badValue ∨ f.kind = .noAttribute := by
  have hentries {v : Value} (hf : v.entries = .error f) :
      f.kind = .badType ∨ f.kind = .badValue ∨ f.kind = .noAttribute :=
    (Value.entries_eq_error hf).2.imp_right Or.inl
  unfold LetsThrough at h
  dsimp only at h
  generalize o.data = data at h
  cases haction : o.action with
  | editNode =>
    simp only [haction] at h
    split_ifs at h
    · exact Or.inr (Or.inr (by rw [h.2.2.2]))
    · exact hentries h.2
  | addNode => exact hentries (by simpa only [haction] using h)
  | reorderNodes =>
    simp only [haction] at h
    obtain ⟨-, hmembers | ⟨ids, -, hjoin⟩⟩ := h
    · exact Or.inl (kind_of_members hmembers)
    · exact Or.inl (kind_of_joinTexts hjoin)
  | addEdge => exact hentries (by simpa only [haction] using h)
  | removeNode | removeEdge | updateNodePosition =>
    simp only [haction] at h

/-- An operation gives a workflow or is refused by a fault if and only if its data have the form that its action
takes for granted, whatever else is in them; and so is a payload of an operation, which is refused if it cannot be
read. Everything else that can come of it is a failure that says that a value has the wrong type, the wrong length,
or not the attribute that is asked for. -/
theorem apply_refused_iff (w : Workflow) (count : Nat) :
    (∀ o, (∀ e, (w.apply o).Fails count e → e.IsRefusal) ↔ HasForm w o) ∧
      (∀ v, (∀ e, (w.applyRaw v).Fails count e → e.IsRefusal) ↔
        ∀ o, EditOperation.ofValue v = .accepted o → HasForm w o) ∧
      ∀ v e, (w.applyRaw v).Fails count e → e.IsRefusal ∨
        ∃ f, e = .failure f ∧ (f.kind = .badType ∨ f.kind = .badValue ∨ f.kind = .noAttribute) := by
  have happly : ∀ o, (∀ e, (w.apply o).Fails count e → e.IsRefusal) ↔ HasForm w o := fun o =>
    (escapes_apply o).refused_iff.trans letsThrough_nothing_iff
  refine ⟨happly, fun v => ?_, fun v e h => ?_⟩
  · unfold applyRaw
    cases hread : EditOperation.ofValue v with
    | accepted o => simp [happly o]
    | rejected issues => exact iff_of_true (fun e he => Mishap.raise_eq_error (fails_of.1 he)) nofun
  · unfold applyRaw at h
    cases hread : EditOperation.ofValue v with
    | accepted o =>
      rw [hread] at h
      exact ((escapes_apply o).cases e h).imp_right fun ⟨f, hf, he⟩ => ⟨f, he, kind_of_letsThrough hf⟩
    | rejected issues =>
      rw [hread] at h
      exact Or.inl (Mishap.raise_eq_error (fails_of.1 h))

def operation (action : String) (data : Fields) : Value :=
  .object [("action", .text action), ("data", .object data)]

def lone : Workflow where
  id := "w"
  name := "w"
  version := "1"
  nodes := [{ id := "a", type := .trigger, provider := "p", operation := "o" }]

/-- A number in the place of a step, a list in that of updates, and a number among the ids of an order. -/
theorem lone_not_refused :
    (lone.applyRaw (operation "addNode" [("node", .int 5)])).Fails 0
        (.failure ⟨.badType, "'int' object is not iterable"⟩) ∧
      (lone.applyRaw (operation "editNode" [("nodeId", .text "a"), ("updates", .list [])])).Fails 0
        (.failure ⟨.noAttribute, "'list' object has no attribute 'get'"⟩) ∧
      (lone.applyRaw (operation "reorderNodes" [("nodeOrder", .list [.text "a", .int 5])])).Fails 0
        (.failure ⟨.badType, "sequence item 0: expected str instance, int found"⟩) ∧
      ∀ f, ¬ (Mishap.failure f).IsRefusal := by
  refine ⟨rfl, rfl, rfl, ?_⟩
  rintro f ⟨g, hg, -⟩
  cases hg

end Workflow

end Flowgraph
