import Flowgraph.Assistant
import Flowgraph.Proofs.Edit.Refusal
import Flowgraph.Proofs.Validation.Normal
import Flowgraph.Proofs.Value.Entries

/-! What comes of a suggestion. Whatever the service gives, the operations refuse it with a fault or give a
workflow that has been checked, with two exceptions. What is given in the place of a table and cannot be taken
as one makes the operation itself fail; and a generated workflow is checked as it was written, before its ids
are trimmed. -/

namespace Flowgraph

open Numbered Flowgraph.Numbering

/-! Acceptance -/

theorem Acceptance.require_cases (head : String) (report : Report) (id : Value) :
    (report.valid = true ∧ require head report id = .ok ()) ∨
      ∃ f : Fault, f.kind = .validation ∧ require head report id = .error (.fault f) := by
  unfold require
  split_ifs with hvalid
  · exact Or.inl ⟨hvalid, rfl⟩
  · exact Or.inr ⟨_, Fault.kind_of .validation _ _, rfl⟩

namespace Workflow

open Acceptance (require_cases)

theorem accept_cases (head : String) (w : Workflow) :
    (w.validate.valid = true ∧ w.accept head = .ok w) ∨
      ∃ f : Fault, f.kind = .validation ∧ w.accept head = .error (.fault f) := by
  unfold accept
  rcases require_cases head w.validate (.text w.id) with ⟨hvalid, h⟩ | ⟨f, hkind, h⟩
  · exact Or.inl ⟨hvalid, by rw [h]; rfl⟩
  · exact Or.inr ⟨f, hkind, by rw [h]; rfl⟩

/-- A payload that is accepted is valid, and the workflow is what is read from it. -/
theorem acceptFields_cases (head : String) (fs : Fields) :
    (∃ w, (Flowgraph.validate (.object fs)).valid = true ∧ Workflow.ofValue (.object fs) = .accepted w ∧
        Workflow.acceptFields head fs = .ok w) ∨
      ∃ f : Fault, f.kind = .validation ∧ Workflow.acceptFields head fs = .error (.fault f) := by
  unfold acceptFields
  rcases require_cases head (Flowgraph.validate (.object fs)) (fs.getD "id" .null) with ⟨hvalid, h⟩ | ⟨f, hkind, h⟩
  · dsimp only
    rw [h]
    cases hread : Workflow.ofValue (.object fs) with
    | accepted w => exact Or.inl ⟨w, hvalid, rfl, rfl⟩
    | rejected issues => exact Or.inr ⟨_, Fault.kind_of .validation _ _, rfl⟩
  · exact Or.inr ⟨f, hkind, by dsimp only; rw [h]; rfl⟩

end Workflow

namespace Suggester

def draftOf : Proposal → Option (Draft Workflow)
  | .reasoned draft _ => some draft
  | .raw v =>
    match v.members? with
    | some [draft, _] => some (.raw draft)
    | _ => none

/-- The service has given this in the place of the table of a workflow. -/
def GaveWorkflow (reply : Reply Proposal) (v : Value) : Prop :=
  ∃ p, reply = .gave p ∧ draftOf p = some (.raw v)

/-- A fault that refuses a suggestion, or the one that the service has raised. -/
def Declined {α : Type} (reply : Reply α) (e : Mishap) : Prop :=
  ∃ f, e = .fault f ∧ (f.kind = .suggestion ∨ f.kind = .validation ∨ f.kind = .edit ∨ reply = .raised f)

/-- What the operations are to come to: a valid workflow, or a fault that is meant to be. -/
def Sanctioned {α β : Type} (reply : Reply α) (result : β → Workflow) : Except Mishap β → Prop
  | .ok b => (result b).validate.valid = true
  | .error e => Declined reply e

section
variable {α : Type} {reply : Reply α} {count count' : Nat} {e : Mishap} {operation : String}

theorem fails_fail {β : Type} {message : String} (h : (fail operation message : Numbered β).Fails count e) :
    Declined reply e := by
  obtain ⟨f, rfl, hkind⟩ := Mishap.raise_eq_error (fails_of.1 h)
  exact ⟨f, rfl, Or.inl hkind⟩

theorem declined_edit (h : e.IsRefusal) : Declined reply e := by
  obtain ⟨f, rfl, hkind⟩ := h
  exact ⟨f, rfl, Or.inr (Or.inr (Or.inl hkind))⟩

theorem gives_receive {a : α} : (receive operation reply).Gives count a count' ↔ reply = .gave a ∧ count = count' := by
  cases reply <;> simp [receive, fail, Mishap.raise]

theorem fails_receive (h : (receive operation reply).Fails count e) : Declined reply e := by
  cases reply with
  | gave a => exact absurd h not_fails_pure
  | broke message => exact fails_fail h
  | raised f => exact ⟨f, (Except.error.inj (fails_of.1 h)).symm, Or.inr (Or.inr (Or.inr rfl))⟩

theorem gives_check {w w' : Workflow} (h : (check operation w).Gives count w' count') : w'.validate.valid = true := by
  obtain ⟨hok, -⟩ := gives_of.1 h
  rcases w.accept_cases (invalidHead operation) with ⟨hvalid, haccept⟩ | ⟨f, -, haccept⟩
  · cases haccept.symm.trans hok
    exact hvalid
  · cases haccept.symm.trans hok

theorem fails_check {w : Workflow} (h : (check operation w).Fails count e) : Declined reply e := by
  have herror := fails_of.1 h
  rcases w.accept_cases (invalidHead operation) with ⟨-, haccept⟩ | ⟨f, hkind, haccept⟩
  · cases haccept.symm.trans herror
  · cases haccept.symm.trans herror
    exact ⟨f, rfl, Or.inr (Or.inl hkind)⟩

/-- An operation that fails by itself only for the form of a payload comes to what it is to come to exactly when
the payload has the form, and what it gives is valid. -/
theorem sanctioned_iff {β : Type} {x : Numbered β} (result : β → Workflow) {Payload : Value → Prop}
    (hfails : ∀ e, x.Fails count e → Declined reply e ∨ ∃ v f, Payload v ∧ v.entries = .error f ∧ e = .failure f)
    (hpayload : ∀ v f, Payload v → v.entries = .error f → x.Fails count (.failure f)) :
    Sanctioned reply result (x.run count).1 ↔
      (∀ v, Payload v → v.IsTabular) ∧ ∀ b, (x.run count).1 = .ok b → (result b).validate.valid = true := by
  constructor
  · intro h
    refine ⟨fun v hv => ?_, fun b hb => ?_⟩
    · by_contra htabular
      obtain ⟨f, hf⟩ := Value.exists_error_of_not_tabular htabular
      have hfail : (x.run count).1 = .error (.failure f) := hpayload v f hv hf
      rw [hfail] at h
      obtain ⟨g, hg, -⟩ := h
      cases hg
    · rw [hb] at h
      exact h
  · rintro ⟨htabular, hvalid⟩
    cases hx : (x.run count).1 with
    | ok b => exact hvalid b hx
    | error e =>
      rcases hfails e hx with hdeclined | ⟨v, f, hv, hf, -⟩
      · exact hdeclined
      · exact absurd (htabular v hv) (Value.entries_eq_error hf).1

end

/-! Generated workflows -/

section
variable {s : Suggester} {prompt : String} {context : Value} {count count' : Nat} {e : Mishap}

/-- A response is unpacked, or refused for its form. -/
theorem unpack_cases (p : Proposal) :
    (∃ draft reasons, draftOf p = some draft ∧ unpack p = pure (draft, reasons)) ∨
      draftOf p = none ∧ ∃ message, unpack p = fail "generate" message := by
  cases p with
  | reasoned draft reasons => exact Or.inl ⟨draft, reasons, rfl, rfl⟩
  | raw v =>
    by_cases h : ∃ draft reasons, v.members? = some [draft, reasons]
    · obtain ⟨draft, reasons, h⟩ := h
      exact Or.inl ⟨.raw draft, reasons, by rw [draftOf, h], by rw [unpack, h]⟩
    · refine Or.inr ⟨?_, "Suggestion service returned a malformed response", ?_⟩
      · rw [draftOf]
        split
        · next draft reasons h' => exact absurd ⟨draft, reasons, h'⟩ h
        · rfl
      · rw [unpack]
        split
        · next draft reasons h' => exact absurd ⟨draft, reasons, h'⟩ h
        · rfl

/-- A draft gets its id and its version unless it cannot be taken as a table. -/
theorem fails_completed {draft : Draft Workflow} :
    (completed draft).Fails count e ↔ ∃ v f, draft = .raw v ∧ v.entries = .error f ∧ e = .failure f := by
  unfold completed
  cases draft with
  | made w =>
    refine (fails_bind_left fun fs k h => ?_).trans (by simp)
    dsimp only at h
    split_ifs at h <;> simp at h
  | raw v =>
    refine (fails_bind_left fun fs k h => ?_).trans (by simp [Edit.fails_ofFailure])
    dsimp only at h
    split_ifs at h <;> simp at h

theorem fails_generate (h : (s.generate prompt context).Fails count e) :
    Declined (s.suggestWorkflow prompt context) e ∨
      ∃ v f, (isPrompt prompt = true ∧ GaveWorkflow (s.suggestWorkflow prompt context) v) ∧ v.entries = .error f ∧
        e = .failure f := by
  unfold generate at h
  split_ifs at h with hblank
  · exact Or.inl (fails_fail h)
  have hprompt : isPrompt prompt = true := by simpa using hblank
  obtain h | ⟨p, k, hreceived, h⟩ := fails_bind.1 h
  · exact Or.inl (fails_receive h)
  obtain ⟨hp, rfl⟩ := gives_receive.1 hreceived
  rcases unpack_cases p with ⟨draft, reasons, hdraft, hunpack⟩ | ⟨-, message, hunpack⟩
  · rw [hunpack, pure_bind] at h
    obtain h | ⟨fs, k, -, h⟩ := fails_bind.1 h
    · obtain ⟨v, f, rfl, hf, rfl⟩ := fails_completed.1 h
      exact Or.inr ⟨v, f, ⟨hprompt, p, hp, hdraft⟩, hf, rfl⟩
    · rw [fails_bind_left fun _ _ => not_fails_pure, fails_of] at h
      rcases Workflow.acceptFields_cases (invalidHead "generate") fs with ⟨w, -, -, haccept⟩ | ⟨f, hkind, haccept⟩
      · cases haccept.symm.trans h
      · cases haccept.symm.trans h
        exact Or.inl ⟨f, rfl, Or.inr (Or.inl hkind)⟩
  · rw [hunpack] at h
    obtain h | ⟨a, k, ha, -⟩ := fails_bind.1 h
    · exact Or.inl (fails_fail h)
    · simp [fail, Mishap.raise] at ha

theorem generate_fails_of_entries {v : Value} {f : Failure}
    (hv : isPrompt prompt = true ∧ GaveWorkflow (s.suggestWorkflow prompt context) v) (h : v.entries = .error f) :
    (s.generate prompt context).Fails count (.failure f) := by
  obtain ⟨hprompt, p, hp, hdraft⟩ := hv
  unfold generate
  rw [if_neg (by simp [hprompt])]
  refine fails_bind.2 (Or.inr ⟨p, count, gives_receive.2 ⟨hp, rfl⟩, ?_⟩)
  rcases unpack_cases p with ⟨draft, reasons, hdraft', hunpack⟩ | ⟨hnone, -⟩
  · cases hdraft'.symm.trans hdraft
    rw [hunpack, pure_bind]
    exact fails_bind.2 (Or.inl (fails_completed.2 ⟨v, f, rfl, h, rfl⟩))
  · cases hnone.symm.trans hdraft

/-- A generated workflow has been read from a valid payload. -/
theorem valid_of_generate {w : Workflow} {reasons : Value}
    (h : (s.generate prompt context).Gives count (w, reasons) count') :
    w.validate.valid = true ↔ w.nodeIds.Nodup ∧ w.edgeIds.Nodup := by
  unfold generate at h
  split_ifs at h with hblank
  · simp [fail, Mishap.raise] at h
  obtain ⟨p, k, -, h⟩ := gives_bind.1 h
  obtain ⟨⟨draft, given⟩, k, -, h⟩ := gives_bind.1 h
  obtain ⟨fs, k, -, h⟩ := gives_bind.1 h
  obtain ⟨w', k, hw, h⟩ := gives_bind.1 h
  cases (gives_pure.1 h).1
  obtain ⟨haccept, -⟩ := gives_of.1 hw
  rcases Workflow.acceptFields_cases (invalidHead "generate") fs with ⟨w', hvalid, hread, hok⟩ | ⟨f, -, herror⟩
  · cases hok.symm.trans haccept
    obtain ⟨fs, nodes, edges, vars, -, hfrom⟩ := fromValid_of_valid hvalid hread
    exact hfrom.valid_iff
  · cases herror.symm.trans haccept

end

/-! Suggested steps -/

section
variable {s : Suggester} {w w' : Workflow} {id after : Value} {instruction : String} {count count' : Nat} {e : Mishap}

theorem fails_editNode (h : (s.editNode w id instruction).Fails count e) :
    Declined (s.suggestNode w id instruction) e ∨
      ∃ v f, ((w.nodeAt? id).isSome = true ∧ s.suggestNode w id instruction = .gave (.raw v)) ∧
        v.entries = .error f ∧ e = .failure f := by
  unfold editNode at h
  obtain h | ⟨draft, k, hreceived, h⟩ := fails_bind.1 h
  · exact Or.inl (fails_receive h)
  obtain ⟨hdraft, rfl⟩ := gives_receive.1 hreceived
  obtain h | ⟨w', k, -, h⟩ := fails_bind.1 h
  · rcases (Workflow.escapes_replaceNode id draft).cases _ h with hedit | ⟨f, ⟨hid, v, rfl, hf⟩, rfl⟩
    · exact Or.inl (declined_edit hedit)
    · exact Or.inr ⟨v, f, ⟨hid, hdraft⟩, hf, rfl⟩
  · exact Or.inl (fails_check h)

theorem editNode_fails_of_entries {v : Value} {f : Failure}
    (hv : (w.nodeAt? id).isSome = true ∧ s.suggestNode w id instruction = .gave (.raw v)) (h : v.entries = .error f) :
    (s.editNode w id instruction).Fails count (.failure f) :=
  fails_bind.2 (Or.inr ⟨.raw v, count, gives_receive.2 ⟨hv.2, rfl⟩,
    fails_bind.2 (Or.inl ((Workflow.escapes_replaceNode id (.raw v)).fails f ⟨hv.1, v, rfl, h⟩))⟩)

theorem valid_of_editNode (h : (s.editNode w id instruction).Gives count w' count') : w'.validate.valid = true := by
  obtain ⟨draft, k, -, h⟩ := gives_bind.1 h
  obtain ⟨w₁, k, -, h⟩ := gives_bind.1 h
  exact gives_check h

theorem fails_nodeOf {α : Type} {reply : Reply α} {draft : Draft Node} (h : (nodeOf draft).Fails count e) :
    Declined reply e ∨ ∃ v f, draft = .raw v ∧ v.entries = .error f ∧ e = .failure f := by
  cases draft with
  | made n => exact absurd h not_fails_pure
  | raw v =>
    simp only [nodeOf, fails_bind, Edit.fails_ofFailure, Edit.not_fails_withId, false_or] at h
    obtain ⟨f, hf, rfl⟩ | ⟨fs, k, -, gs, k', -, h⟩ := h
    · exact Or.inr ⟨v, f, rfl, hf, rfl⟩
    · cases hread : Node.ofValue (.object gs) with
      | accepted n =>
        rw [hread] at h
        exact absurd h not_fails_pure
      | rejected issues =>
        rw [hread] at h
        exact Or.inl (fails_fail h)

theorem fails_addNode (h : (s.addNode w instruction after).Fails count e) :
    Declined (s.suggestNode w after instruction) e ∨
      ∃ v f, s.suggestNode w after instruction = .gave (.raw v) ∧ v.entries = .error f ∧ e = .failure f := by
  unfold addNode at h
  obtain h | ⟨draft, k, hreceived, h⟩ := fails_bind.1 h
  · exact Or.inl (fails_receive h)
  obtain ⟨hdraft, rfl⟩ := gives_receive.1 hreceived
  obtain h | ⟨n, k, -, h⟩ := fails_bind.1 h
  · rcases fails_nodeOf h with hdeclined | ⟨v, f, rfl, hf, rfl⟩
    · exact Or.inl hdeclined
    · exact Or.inr ⟨v, f, hdraft, hf, rfl⟩
  -- a step of its own id, or of a new one, is added
  have hadd : ∀ {n : Node} {k : Nat},
      Fails (do check "add_node" (← w.addNode (.made n) after)) k e →
        Declined (s.suggestNode w after instruction) e := by
    intro n k h
    obtain h | ⟨w', k, -, h⟩ := fails_bind.1 h
    · rcases (Workflow.escapes_addNode (.made n) after).cases _ h with hedit | ⟨_, ⟨_, hraw, _⟩, _⟩
      · exact declined_edit hedit
      · cases hraw
    · exact fails_check h
  dsimp only at h
  split_ifs at h
  · obtain h | ⟨id, k, -, h⟩ := fails_bind.1 h
    · exact absurd h not_fails_stamped
    · rw [pure_bind] at h
      exact Or.inl (hadd h)
  · rw [pure_bind] at h
    exact Or.inl (hadd h)

theorem addNode_fails_of_entries {v : Value} {f : Failure}
    (hgave : s.suggestNode w after instruction = .gave (.raw v)) (h : v.entries = .error f) :
    (s.addNode w instruction after).Fails count (.failure f) := by
  refine fails_bind.2 (Or.inr ⟨.raw v, count, gives_receive.2 ⟨hgave, rfl⟩, fails_bind.2 (Or.inl ?_)⟩)
  exact fails_bind.2 (Or.inl (Edit.fails_ofFailure.2 ⟨f, h, rfl⟩))

theorem valid_of_addNode (h : (s.addNode w instruction after).Gives count w' count') : w'.validate.valid = true := by
  obtain ⟨draft, k, -, h⟩ := gives_bind.1 h
  obtain ⟨n, k, -, h⟩ := gives_bind.1 h
  dsimp only at h
  split_ifs at h
  · obtain ⟨id, k, -, h⟩ := gives_bind.1 h
    rw [pure_bind] at h
    obtain ⟨w₁, k, -, h⟩ := gives_bind.1 h
    exact gives_check h
  · rw [pure_bind] at h
    obtain ⟨w₁, k, -, h⟩ := gives_bind.1 h
    exact gives_check h

end

/-- An operation comes to a valid workflow or to a fault that is meant to be, unless the service has given
something in the place of a table that cannot be taken as one: that makes the operation fail for its form, unless
it comes to nothing before. Besides, a generated workflow can have ids that have become the same. -/
theorem sanctioned_iff_tabular (s : Suggester) (prompt : String) (context : Value) (w : Workflow) (id after : Value)
    (instruction : String) (count : Nat) :
    ((Sanctioned (s.suggestWorkflow prompt context) Prod.fst ((s.generate prompt context).run count).1 ↔
        (∀ v, isPrompt prompt = true ∧ GaveWorkflow (s.suggestWorkflow prompt context) v → v.IsTabular) ∧
          ∀ b, ((s.generate prompt context).run count).1 = .ok b → b.1.nodeIds.Nodup ∧ b.1.edgeIds.Nodup) ∧
      (Sanctioned (s.suggestNode w id instruction) (fun w' => w') ((s.editNode w id instruction).run count).1 ↔
        ∀ v, (w.nodeAt? id).isSome = true ∧ s.suggestNode w id instruction = .gave (.raw v) → v.IsTabular) ∧
      (Sanctioned (s.suggestNode w after instruction) (fun w' => w') ((s.addNode w instruction after).run count).1 ↔
        ∀ v, s.suggestNode w after instruction = .gave (.raw v) → v.IsTabular)) ∧
    ∀ e, ((s.generate prompt context).Fails count e → Declined (s.suggestWorkflow prompt context) e ∨
          ∃ f, e = .failure f ∧ Value.FormFailure f) ∧
      ((s.editNode w id instruction).Fails count e → Declined (s.suggestNode w id instruction) e ∨
          ∃ f, e = .failure f ∧ Value.FormFailure f) ∧
      ((s.addNode w instruction after).Fails count e → Declined (s.suggestNode w after instruction) e ∨
          ∃ f, e = .failure f ∧ Value.FormFailure f) := by
  have hform : ∀ {v : Value} {f : Failure} {e : Mishap}, v.entries = .error f → e = .failure f →
      ∃ f, e = .failure f ∧ Value.FormFailure f := fun hf he => ⟨_, he, (Value.entries_eq_error hf).2⟩
  refine ⟨⟨?_, ?_, ?_⟩, fun e => ⟨fun h => ?_, fun h => ?_, fun h => ?_⟩⟩
  · refine (sanctioned_iff Prod.fst (fun _ => fails_generate) fun _ _ => generate_fails_of_entries).trans ?_
    refine and_congr_right fun _ => forall₂_congr fun b hb => ?_
    have hgives : (s.generate prompt context).Gives count (b.1, b.2) ((s.generate prompt context).run count).2 :=
      Prod.ext hb rfl
    exact valid_of_generate hgives
  · refine (sanctioned_iff _ (fun _ => fails_editNode) fun _ _ => editNode_fails_of_entries).trans ?_
    exact and_iff_left fun w' hw' => valid_of_editNode (Prod.ext hw' rfl)
  · refine (sanctioned_iff _ (fun _ => fails_addNode) fun _ _ => addNode_fails_of_entries).trans ?_
    exact and_iff_left fun w' hw' => valid_of_addNode (Prod.ext hw' rfl)
  · exact (fails_generate h).imp_right fun ⟨_, _, _, hf, he⟩ => hform hf he
  · exact (fails_editNode h).imp_right fun ⟨_, _, _, hf, he⟩ => hform hf he
  · exact (fails_addNode h).imp_right fun ⟨_, _, _, hf, he⟩ => hform hf he

def giving (v : Value) : Suggester where
  suggestWorkflow _ _ := .gave (.reasoned (.raw v) .null)
  suggestNode _ _ _ := .gave (.raw v)

/-- A number in the place of a workflow makes the operation fail, and of two ids that differ in a blank an invalid
workflow is generated. -/
theorem generate_giving_not_sanctioned :
    (∃ e, ((giving (.int 5)).generate "x" .null).Fails 0 e ∧
        ¬ Declined ((giving (.int 5)).suggestWorkflow "x" .null) e) ∧
      ∃ w reasons count, ((giving (twoTriggers "a" " a")).generate "x" .null).Gives 0 (w, reasons) count ∧
        w.validate.valid = false := by
  constructor
  · refine ⟨_, generate_fails_of_entries ⟨by decide +kernel, _, rfl, rfl⟩ rfl, ?_⟩
    rintro ⟨f, hf, -⟩
    cases hf
  · have hvalid : (((giving (twoTriggers "a" " a")).generate "x" .null).run 0).1.toOption.map
        (fun b => b.1.validate.valid) = some false := by decide +kernel
    rcases hx : ((giving (twoTriggers "a" " a")).generate "x" .null).run 0 with ⟨e | b, count⟩
    · rw [hx] at hvalid
      cases hvalid
    · rw [hx] at hvalid
      exact ⟨b.1, b.2, count, hx, Option.some.inj hvalid⟩

end Suggester

end Flowgraph
