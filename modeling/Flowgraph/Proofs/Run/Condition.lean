import Flowgraph.Proofs.Run.Account
import Flowgraph.Proofs.Run.Course
import Flowgraph.Proofs.Scope.Template

/-! What a condition decides. Its text is filled in with the variables of the moment at which the inputs of the
node are resolved, and what that gives is evaluated when the executor is called. So it agrees with the guard of a
connection on texts without references and on texts that are one reference to a truth value; inside longer texts
values are inserted as text, and there the two can differ. -/

namespace Flowgraph

open Relation (ReflTransGen)

/-- How the text of a condition is decided, when it is filled in at one moment and evaluated at another: a truth
value stands for itself, nothing leaves the decision to the input `value`, and all else is evaluated as text. -/
structure Weighs (s₀ s₁ : Scope) (n : Node) (text : String) (outcome : Except Failure Bool) : Prop where
  filled : ∃ v, s₀.fillText (some n.id) text = .ok v ∧
    match v with
    | .null => ∃ value, s₀.fill (some n.id) (Table.getD n.inputs "value" .null) = .ok value ∧
        outcome = .ok value.truthy
    | .bool b => outcome = .ok b
    | v => outcome = s₁.evaluate (some n.id) v.display
  plain : Template.Plain text → outcome = s₁.evaluate (some n.id) text
  reference : ∀ path b, Template.parts text = [.reference path] →
    s₀.resolvePath (some n.id) path = .ok (some (.bool b)) →
      outcome = .ok b ∧ s₀.evaluate (some n.id) text = .ok b

def resultOf (b : Bool) : Value :=
  .object [("result", .bool b)]

section
variable {s₀ s₁ : Scope} {n : Node} {text : String} {inputs : Fields}

/-- Of the inputs of a condition only `expression` counts, and `value` when that comes to nothing. -/
theorem weighs_conditionHolds (hfill : s₀.fillFields (some n.id) n.inputs = .ok inputs)
    (htext : Table.get? n.inputs "expression" = some (.text text)) :
    Weighs s₀ s₁ n text (Builtin.conditionHolds s₁ n.id inputs) := by
  have hgiven : Table.getD n.inputs "expression" .null = .text text := by
    rw [Table.getD, htext]
    rfl
  have hexpression := Scope.fill_getD hfill "expression"
  rw [hgiven, Scope.fill] at hexpression
  refine ⟨⟨_, hexpression, ?_⟩, fun hplain => ?_, fun path b hparts hpath => ?_⟩
  · unfold Builtin.conditionHolds
    cases Table.getD inputs "expression" .null with
    | null => exact ⟨_, Scope.fill_getD hfill "value", rfl⟩
    | _ => rfl
  · rw [Scope.fillText_plain hplain] at hexpression
    unfold Builtin.conditionHolds
    rw [← Except.ok.inj hexpression]
    rfl
  · rw [Scope.fillText_reference hparts hpath] at hexpression
    refine ⟨?_, Scope.evaluate_reference hparts hpath⟩
    unfold Builtin.conditionHolds
    rw [← Except.ok.inj hexpression]
    rfl

end

namespace Run

section
variable {engine : Engine} {r₀ r : Run} {n : Node} {text : String} {t : Task} {act : Action} {v : Value}

theorem goOn_condition {now attempt : Nat} {limit : Alarm}
    (hx : engine.executor? t.node = Builtin.sync Builtin.condition) (hphase : t.phase = .calling attempt limit) :
    r.goOn engine now t = (r.setPhase t.node.id (.returning attempt
      ((Builtin.conditionHolds r.scope t.node.id t.inputs).map resultOf))).enqueue t.node.id := by
  unfold goOn
  rw [hphase]
  dsimp only
  unfold callExecutor
  rw [hx]
  rfl

/-- Setting the phase of a task shows in the task of its node. -/
theorem task?_setPhase {id : String} {p : Phase} (ht : r.task? id = some t) :
    ((r.setPhase id p).enqueue id).task? id = some { t with phase := p } := by
  have := find?_map_ite (fun u : Task => u.node.id) (fun u => { u with phase := p }) (fun _ => rfl) r.tasks id id
  have hfind : r.tasks.find? (fun u => Decidable.decide (u.node.id = id)) = some t := ht
  rw [if_pos rfl, hfind] at this
  exact this

theorem task?_resume_condition {attempt : Nat} {limit : Alarm} (now : Nat)
    (hx : engine.executor? t.node = Builtin.sync Builtin.condition) (ht : r.task? t.node.id = some t)
    (hphase : t.phase = .calling attempt limit) :
    (r.resume engine now t.node.id).task? t.node.id = some { t with
      phase := .returning attempt ((Builtin.conditionHolds r.scope t.node.id t.inputs).map resultOf) } := by
  unfold Run.resume
  rw [ht]
  dsimp only
  rw [goOn_condition hx hphase]
  exact task?_setPhase ht

/-- What a condition has reached was weighed at two earlier moments. -/
theorem Reached.weighs (hx : engine.executor? n = Builtin.sync Builtin.condition)
    (htext : Table.get? n.inputs "expression" = some (.text text)) (h : Reached engine r₀ n r v) :
    ∃ q₀ q₁ b, Past engine r₀ q₀ q₁ ∧ Past engine r₀ q₁ r ∧ q₀.Runs n.id ∧ q₁.Runs n.id ∧
      Weighs q₀.scope q₁.scope n text (.ok b) ∧ v = resultOf b := by
  obtain ⟨q₁, act, hq₁, hruns₁, ⟨executor, i, hexecutor, hi, ⟨q₀, hq₀, hruns₀, hfill⟩, hacts⟩, hact⟩ := h
  rw [hx] at hexecutor
  obtain rfl := Option.some.inj hexecutor
  rcases hacts with hacts | ⟨seconds, hacts⟩
  · obtain rfl := Effort.now.inj hacts
    have hweighs : Weighs q₀.scope q₁.scope n text (Builtin.conditionHolds q₁.scope n.id i.inputs) :=
      weighs_conditionHolds hfill htext
    dsimp only at hact
    rw [hi] at hact
    cases hholds : Builtin.conditionHolds q₁.scope n.id i.inputs with
    | error f =>
      rw [hholds] at hact
      cases hact
    | ok b =>
      rw [hholds] at hact hweighs
      exact ⟨q₀, q₁, b, hq₀, hq₁, hruns₀, hruns₁, hweighs, (Except.ok.inj hact).symm⟩
  · cases hacts

end

/-- Whenever the executor of a condition is called, it returns at once with what its text comes to, and the result
that a condition has succeeded with is what its text came to at such a call. -/
theorem condition_decides {engine : Engine} {r : Run} {n : Node} {text : String} (hlimit : 0 < engine.limit)
    (w : Workflow) (inputs secrets : Fields) (executionId : String) (now : Nat)
    (hn : (Graph.ofWorkflow w).node? n.id = some n) (hx : engine.executor? n = Builtin.sync Builtin.condition)
    (htext : Table.get? n.inputs "expression" = some (.text text))
    (h : ReflTransGen (Happens engine) (start w inputs secrets executionId (engine.moment now)) r) :
    (r.isFinished = false → ∀ t attempt limit, r.task? n.id = some t → t.phase = .calling attempt limit →
      ∃ q outcome, Past engine (start w inputs secrets executionId (engine.moment now)) q r ∧ q.Runs n.id ∧
        Weighs q.scope r.scope n text outcome ∧ ∀ later, (r.resume engine later n.id).task? n.id =
          some { t with phase := .returning attempt (outcome.map resultOf) }) ∧
    ∀ e, r.entry? n.id = some e → e.status = .success →
      ∃ q₀ q₁ b, Past engine (start w inputs secrets executionId (engine.moment now)) q₀ q₁ ∧
        Past engine (start w inputs secrets executionId (engine.moment now)) q₁ r ∧ q₀.Runs n.id ∧ q₁.Runs n.id ∧
        Weighs q₀.scope q₁.scope n text (.ok b) ∧ e.outputs = some [("result", .bool b)] := by
  have h₀ := unbegun_start w inputs secrets executionId (engine.moment now)
  have hx' := accords_account hlimit h₀ hn h
  refine ⟨fun hu t attempt limit ht hphase => ?_, fun e he hs => ?_⟩
  · have hmem := task?_mem ht
    have hid := task?_id ht
    have hresolved := hx'.tasks hu t hmem hid
    rw [hphase] at hresolved
    obtain ⟨q, hq, hruns, hfill⟩ := hresolved
    obtain rfl : t.node = n := by
      rcases underway_of_happens hlimit h₀ h hu with rfl | ha
      · cases hmem
      · exact ha.good.sound.node_eq (ha.graph ▸ hn) hmem hid
    exact ⟨q, _, hq, hruns, weighs_conditionHolds hfill htext, fun later => task?_resume_condition later hx ht hphase⟩
  · obtain ⟨v, hv, houtputs⟩ := hx'.entries e (entry?_mem he) (entry?_id he) hs
    obtain ⟨q₀, q₁, b, hq₀, hq₁, hruns₀, hruns₁, hweighs, rfl⟩ := Reached.weighs hx htext hv
    exact ⟨q₀, q₁, b, hq₀, hq₁, hruns₀, hruns₁, hweighs, houtputs⟩

def sumCheck : Node where
  id := "check"
  type := .condition
  provider := "logic"
  operation := "if"
  inputs := [("expression", .text "1 + 1 == 2")]

def oneCheck : Workflow where
  id := "check"
  name := "One check"
  version := "1"
  nodes := [sumCheck]

theorem condition_decides_oneCheck :
    let r₀ := start oneCheck [] [] "run" (plainEngine.moment 0)
    ∃ r, (0 < plainEngine.limit ∧ (Graph.ofWorkflow oneCheck).node? "check" = some sumCheck ∧
        plainEngine.executor? sumCheck = Builtin.sync Builtin.condition ∧
        Table.get? sumCheck.inputs "expression" = some (.text "1 + 1 == 2") ∧ ReflTransGen (Happens plainEngine) r₀ r) ∧
      ∃ e, (r.entry? "check" = some e ∧ e.status = .success) ∧
        ∃ q₀ q₁ b, Past plainEngine r₀ q₀ q₁ ∧ Past plainEngine r₀ q₁ r ∧ q₀.Runs "check" ∧ q₁.Runs "check" ∧
          Weighs q₀.scope q₁.scope sumCheck "1 + 1 == 2" (.ok b) ∧ e.outputs = some [("result", .bool b)] := by
  intro r₀
  have hlaunch : r₀.launch plainEngine 0 = (decideAll 2 ["check"] r₀).proceed plainEngine 0 := by
    have hsort : r₀.graph.sortByPosition r₀.graph.roots = ["check"] := by
      rw [show r₀.graph.roots = ["check"] by decide +kernel]
      exact List.mergeSort_of_pairwise (List.pairwise_singleton _ _)
    change (decideAll _ (r₀.graph.sortByPosition r₀.graph.roots) r₀).proceed plainEngine 0 = _
    rw [hsort]
    rfl
  set r₁ := (decideAll 2 ["check"] r₀).proceed plainEngine 0
  have hstart : ReflTransGen (Happens plainEngine) r₀ r₁ :=
    .single (hlaunch ▸ .step (.launch 0 (unbegun_start oneCheck [] [] "run" _)))
  let next (r : Run) : Run := r.resume plainEngine 0 "check"
  have hnext : ∀ {r : Run}, ReflTransGen (Happens plainEngine) r₀ r → r.isFinished = false ∧ "check" ∈ r.agenda →
      ReflTransGen (Happens plainEngine) r₀ (next r) := fun h ha => h.tail (.step (.resume 0 ha.1 ha.2))
  have hcalling := hnext hstart (by decide +kernel)
  have hreturning := hnext hcalling (by decide +kernel)
  have hreturned := hnext hreturning (by decide +kernel)
  have hrun := hnext hreturned (by decide +kernel)
  have hend : (Run.entry? (next (next (next (next r₁)))) "check").map NodeLog.status = some .success := by
    decide +kernel
  obtain ⟨e, he, hs⟩ := Option.map_eq_some_iff.1 hend
  refine ⟨_, ⟨by decide, rfl, rfl, rfl, hrun⟩, e, ⟨he, hs⟩, ?_⟩
  exact (condition_decides (n := sumCheck) (by decide) oneCheck [] [] "run" 0 rfl rfl rfl hrun).2 e he hs

end Run

/-! A reference to a text inside a longer one -/

def nameCheck : Node where
  id := "check"
  type := .condition
  provider := "logic"
  operation := "if"
  inputs := [("expression", .text "\x7b\x7b who \x7d\x7d == 'ada'")]

def nameInputs : Fields :=
  [("expression", .text "ada == 'ada'")]

def nameScope : Scope :=
  (Scope.make [] [("who", .text "ada")]).enter "check" nameInputs

theorem parts_nameCheck : Template.parts "\x7b\x7b who \x7d\x7d == 'ada'" =
    [.reference "who", .plain " == 'ada'".toList] := rfl

theorem resolvePath_nameScope : nameScope.resolvePath (some "check") "who" = .ok (some (.text "ada")) := by
  have hsplit : "who".splitOn "." = ["who"] := by
    rw [String.splitOn, if_neg (by decide)]
    repeat rw [String.splitOnAux, if_neg (by decide), if_neg (by decide)]
    rw [String.splitOnAux, if_pos (by decide)]
    decide
  have hparts : Scope.pathParts "who" = ["who"] := by
    rw [Scope.pathParts, show Text.trim "who" = "who" from rfl, hsplit]
    rfl
  rw [Scope.resolvePath, Context.resolvePath, hparts]
  rfl

theorem fillFields_nameCheck : nameScope.fillFields (some "check") nameCheck.inputs = .ok nameInputs := by
  have hwhole : Template.whole? "\x7b\x7b who \x7d\x7d == 'ada'" = none := rfl
  simp only [nameCheck, Scope.fillFields, Scope.fill, Scope.fillText, hwhole, parts_nameCheck, List.mapM_cons,
    List.mapM_nil, Scope.fillPart, Scope.insertedText, resolvePath_nameScope]
  rfl

/-- As a guard the text compares the value, which is a text, with a text. -/
theorem evaluate_nameCheck :
    nameScope.evaluate (some "check") "\x7b\x7b who \x7d\x7d == 'ada'" = .ok true := by
  have hpath : nameScope.context.resolvePath (some "check") "who" = .ok (some (.text "ada")) := resolvePath_nameScope
  have hbind : nameScope.context.bindReferences .null (some "check") []
      (Template.parts "\x7b\x7b who \x7d\x7d == 'ada'") = .ok ("__ref0 == 'ada'", [("__ref0", .text "ada")]) := by
    rw [parts_nameCheck]
    simp only [Context.bindReferences, hpath]
    rfl
  have hholds : ((Expression.evaluate (Expression.seen (Context.visible Datum.functionNames [("__ref0", .text "ada")]
      (nameScope.names (some "check")))) "__ref0 == 'ada'").map Datum.truthy).getD false = true := by decide +kernel
  rw [Scope.evaluate_of_bind (by decide) hbind, hholds]

/-- As a condition it looks for a variable of that name. -/
theorem conditionHolds_nameCheck : Builtin.conditionHolds nameScope "check" nameInputs = .ok false := by
  have h : (Builtin.conditionHolds nameScope "check" nameInputs).toOption = some false := by decide +kernel
  revert h
  cases Builtin.conditionHolds nameScope "check" nameInputs with
  | ok b => exact fun h => congrArg Except.ok (Option.some.inj h)
  | error f => exact nofun

/-- A condition and a guard with the same text need not agree, even in the same scope: of the two only the guard
keeps the value of a reference inside a longer text. -/
theorem condition_ne_evaluate :
    ¬ ∀ (s : Scope) (i : Invocation) (text : String), s.isRunning i.node.id = true →
      Table.get? i.node.inputs "expression" = some (.text text) →
      s.fillFields (some i.node.id) i.node.inputs = .ok i.inputs →
      ∀ act, Builtin.condition i = .now act → (act s).2 = (s.evaluate (some i.node.id) text).map resultOf := by
  intro h
  have heq := h nameScope ⟨nameCheck, nameInputs, .null, "run", 1⟩ _ rfl rfl fillFields_nameCheck _ rfl
  change (Builtin.conditionHolds nameScope "check" nameInputs).map resultOf = _ at heq
  rw [conditionHolds_nameCheck, show nameCheck.id = "check" from rfl, evaluate_nameCheck] at heq
  exact nomatch heq

end Flowgraph
