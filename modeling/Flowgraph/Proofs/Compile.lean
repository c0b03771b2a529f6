import Flowgraph.Compile
import Flowgraph.Proofs.Document.Outcome
import Flowgraph.Proofs.Program.Lines

/-! Whether emission answers: with a form, or with what stands in the way of one. For capabilities that are built
in it is said exactly when it does neither. -/

namespace Flowgraph

open Program (builtinEmitter)

/-! Programs -/

namespace Program

variable {e : Emitter} {w : Workflow} {order : List String}

theorem delayLine_errs_iff {name : String} {delay : Number} : Errs (delayLine name delay) ↔ Errs delay.toFloat :=
  errs_map

theorem lines_errs_iff {g : Graph} :
    Errs (lines e w g order) ↔ Errs e.retryBase.toFloat ∨ Errs e.retryCeiling.toFloat := by
  unfold lines dataLines
  dsimp only
  simp only [bind_pure_comp, errs_map]
  rw [errs_bind_of_forall fun base => by rw [errs_map, delayLine_errs_iff], delayLine_errs_iff]

end Program

/-- What keeps the program of a workflow that is not objected to and can be ordered from being judged. -/
theorem Emitter.program_errs_iff {e : Emitter} {w : Workflow} : Errs (e.program w) ↔
    (e.registry.objections (some .runtime) w).isEmpty = true ∧
      (∃ order, (Graph.ofWorkflow w).topologicalOrder = .ok order) ∧
        (Errs e.retryBase.toFloat ∨ Errs e.retryCeiling.toFloat ∨ ∃ c ∈ w.id.toList, c.toNat = 0) := by
  unfold Emitter.program
  dsimp only
  split
  · next hobjections =>
    refine iff_of_false (not_errs_ok _) fun h => ?_
    rw [h.1] at hobjections
    cases hobjections
  · next hobjections =>
    have hempty : (e.registry.objections (some .runtime) w).isEmpty = true := by simpa using hobjections
    split
    · next blocked hblocked => simp [hblocked]
    · next order horder =>
      rw [and_iff_right hempty, and_iff_right ⟨order, horder⟩, ← or_assoc, ← Program.lines_errs_iff]
      refine errs_bind_of_forall fun lines => ?_
      split
      · next h => exact iff_of_true (errs_error _) (by simpa using h)
      · next h =>
        refine iff_of_false ?_ (by simpa using h)
        split <;> exact not_errs_pure _

/-! Answers -/

theorem errs_ofFailure {α : Type} {x : Except Failure α} : Errs (Mishap.ofFailure x) ↔ Errs x := by
  cases x with
  | error f => exact iff_of_true (errs_error _) (errs_error f)
  | ok a => exact iff_of_false (not_errs_ok _) (not_errs_ok a)

/-- There is a form, or there is none and something stood in the way. -/
def Emission.Answers {α : Type} (em : Emission α) : Prop :=
  em.form.isSome = true ∨ em.form = none ∧ em.errors ≠ []

section
variable {e : Emitter} {w : Workflow}

theorem Emitter.document_answers {em : Emission Document} (h : e.document w = .ok em) : em.Answers := by
  unfold Emitter.document at h
  dsimp only at h
  split at h
  · next hobjections =>
    have hne : e.registry.objections (some .external) w ≠ [] := by simpa using hobjections
    cases h
    exact Or.inr ⟨rfl, hne⟩
  · split at h
    · cases h
      exact Or.inr ⟨rfl, List.cons_ne_nil _ _⟩
    · obtain ⟨⟨document, warnings⟩, -, h⟩ := bind_eq_ok.1 h
      cases h
      exact Or.inl rfl

theorem Emitter.program_answers {em : Emission String} (h : e.program w = .ok em) : em.Answers := by
  unfold Emitter.program at h
  dsimp only at h
  split at h
  · next hobjections =>
    have hne : e.registry.objections (some .runtime) w ≠ [] := by simpa using hobjections
    cases h
    exact Or.inr ⟨rfl, hne⟩
  · split at h
    · cases h
      exact Or.inr ⟨rfl, List.cons_ne_nil _ _⟩
    · obtain ⟨lines, -, h⟩ := bind_eq_ok.1 h
      split at h
      · cases h
      · split at h <;> cases h
        · exact Or.inr ⟨rfl, List.cons_ne_nil _ _⟩
        · exact Or.inl rfl

theorem ofFailure_map_eq_ok {α β : Type} {x : Except Failure α} {f : α → β} {b : β} :
    Mishap.ofFailure (x.map f) = .ok b ↔ ∃ a, x = .ok a ∧ b = f a := by
  cases x with
  | error err => exact iff_of_false nofun fun ⟨_, h, _⟩ => nomatch h
  | ok a => simp [Mishap.ofFailure, Except.map, eq_comm]

/-- Emission for both targets answers, except where a request or a wait cannot be written down, where a guard finds
no place, and where a number of seconds or the id of the workflow cannot be used. -/
theorem Emitter.emit_answers (hbuiltin : ∀ c ∈ e.registry.capabilities, c ∈ Builtin.capabilities) (w : Workflow) :
    (Errs (e.emit .external w) ↔ (e.registry.objections (some .external) w).isEmpty = true ∧
      ∃ order, (Graph.ofWorkflow w).topologicalOrder = .ok order ∧
        ((∃ n ∈ (Graph.ofWorkflow w).nodes, Document.Unlisted n ∨ Document.Untimed e w n) ∨
          ∃ c ∈ (Graph.ofWorkflow w).edges, Document.Unguarded (Graph.ofWorkflow w) order c)) ∧
    (Errs (e.emit .runtime w) ↔ (e.registry.objections (some .runtime) w).isEmpty = true ∧
      (∃ order, (Graph.ofWorkflow w).topologicalOrder = .ok order) ∧
        (Errs e.retryBase.toFloat ∨ Errs e.retryCeiling.toFloat ∨ ∃ c ∈ w.id.toList, c.toNat = 0)) ∧
    (∀ emitted, e.emit .external w = .ok emitted → ∃ em, emitted = .document em ∧ em.Answers) ∧
    (∀ emitted, e.emit .runtime w = .ok emitted → ∃ em, emitted = .program em ∧ em.Answers) := by
  refine ⟨?_, ?_, fun emitted h => ?_, fun emitted h => ?_⟩
  · rw [Emitter.emit, errs_ofFailure, ← Emitter.document_errs_iff hbuiltin]
    exact errs_map
  · rw [Emitter.emit, errs_ofFailure, ← Emitter.program_errs_iff]
    exact errs_map
  · obtain ⟨em, hem, heq⟩ := ofFailure_map_eq_ok.1 h
    exact ⟨em, heq, document_answers hem⟩
  · obtain ⟨em, hem, heq⟩ := ofFailure_map_eq_ok.1 h
    exact ⟨em, heq, program_answers hem⟩

end

/-! A request whose headers are a text -/

def letter : Node :=
  { id := "call", type := .action, provider := "http", operation := "request", inputs := [("headers", .text "x")] }

def lettered : Workflow where
  id := "w"
  name := "w"
  version := "1"
  nodes := [{ id := "in", type := .trigger, provider := "trigger", operation := "manual" }, letter]
  edges := [{ id := "e", source := "in", target := "call" }]

theorem topologicalOrder_lettered : (Graph.ofWorkflow lettered).topologicalOrder = .ok ["in", "call"] := by
  rfl

/-- No document is emitted and nothing is objected: the failure of the headers goes through. -/
theorem emit_lettered : builtinEmitter.emit .external lettered =
    .error (.failure ⟨.noAttribute, "'str' object has no attribute 'items'"⟩) := by
  have hobjections : builtinEmitter.registry.objections (some .external) lettered = [] := by decide
  rw [Emitter.emit, Emitter.document, hobjections]
  dsimp only [List.isEmpty_nil, Bool.not_true, Bool.false_eq_true, if_false]
  rw [topologicalOrder_lettered]
  rfl

/-- The same workflow is emitted as a program. -/
theorem emit_answers_lettered : (∀ c ∈ builtinEmitter.registry.capabilities, c ∈ Builtin.capabilities) ∧
    Errs (builtinEmitter.emit .external lettered) ∧ ¬ Errs (builtinEmitter.emit .runtime lettered) := by
  have hbuiltin : ∀ c ∈ builtinEmitter.registry.capabilities, c ∈ Builtin.capabilities := fun c hc => hc
  obtain ⟨hdocument, hprogram, -⟩ := Emitter.emit_answers hbuiltin lettered
  refine ⟨hbuiltin, hdocument.2 ⟨by decide, _, topologicalOrder_lettered, Or.inl ?_⟩, ?_⟩
  · have hnodes : (Graph.ofWorkflow lettered).nodes = lettered.nodes := rfl
    have hletter : letter ∈ lettered.nodes := List.mem_cons_of_mem _ List.mem_cons_self
    exact ⟨letter, hnodes ▸ hletter, Or.inl ⟨rfl, rfl, rfl, nofun⟩⟩
  · rw [hprogram]
    rintro ⟨-, -, hbase | hceiling | hnull⟩
    · exact not_errs_ok _ hbase
    · exact not_errs_ok _ hceiling
    · have hid : (lettered.id.toList.any fun c => c.toNat = 0) = false := by decide
      simp only [List.any_eq_false, decide_eq_true_eq] at hid
      obtain ⟨c, hc, hzero⟩ := hnull
      exact hid c hc hzero

end Flowgraph
