import Flowgraph.Proofs.Scope.Write

/-! Histories of a scope: steps are entered and left, record outputs and write variables, in any order, and
a call that fails leaves what it has done behind. Whatever the history, a shared variable has one producer,
what is not a writable global stays as the run began with it, and a step's layer is its own. -/

namespace Flowgraph

namespace Scope

/-- Something that is done to a scope. -/
inductive Call where
  | enter (node : String) (values : Fields)
  | exit (node : String)
  | record (node : String) (outputs : Fields)
  | write (name : String) (value : Value) (node : String) (layer : VariableScope)

namespace Call

def perform : Call → Work Unit
  | enter node values => modify fun s => s.enter node values
  | exit node => modify fun s => s.exit node
  | record node outputs => modify fun s => s.recordOutput node outputs
  | write name value node layer => writing name value node layer

def run (c : Call) (s : Scope) : Except Fault Unit × Scope :=
  c.perform.run s

def apply (s : Scope) (c : Call) : Scope :=
  (c.run s).2

/-- The call is a write of a shared variable by a step, and it succeeds. A name that is global is not
written there. -/
def Produces (s : Scope) (name node : String) : Call → Prop
  | c@(write key _ by_ layer) =>
    key = name ∧ by_ = node ∧ layer = .workflow ∧ s.globals.contains key = false ∧ (c.run s).1 = .ok ()
  | _ => False

/-- The call is the step's own entry, exit or write to its layer. -/
def Owns (node : String) : Call → Prop
  | enter n _ => n = node
  | exit n => n = node
  | record _ _ => False
  | write _ _ n layer => n = node ∧ layer = .node

def Writes (node : String) : Call → Prop
  | write _ _ n _ => n = node
  | _ => False

variable {s : Scope} {name node key : String} {value : Value} {layer : VariableScope} {c : Call}

theorem run_write : (write name value node layer).run s =
    match s.write name value node layer with
    | .ok s' => (.ok (), s')
    | .error fault => (.error fault, s) :=
  run_writing s name value node layer

theorem apply_write {s' : Scope} (h : s.write name value node layer = .ok s') :
    apply s (write name value node layer) = s' := by
  rw [apply, run_write, h]

/-- A write writes, or it is refused and has left the scope as it was. -/
theorem write_cases (s : Scope) (name : String) (value : Value) (node : String) (layer : VariableScope) :
    (∃ s', s.Wrote name value node layer s' ∧ (write name value node layer).run s = (.ok (), s')) ∨
      ∃ fault, s.write name value node layer = .error fault ∧
        (write name value node layer).run s = (.error fault, s) := by
  rw [run_write]
  cases h : s.write name value node layer with
  | ok s' => exact Or.inl ⟨s', write_eq_ok h, rfl⟩
  | error fault => exact Or.inr ⟨fault, rfl, rfl⟩

/-- The scope after a write is the one before or a written one. -/
theorem apply_write_cases (s : Scope) (name : String) (value : Value) (node : String) (layer : VariableScope) :
    s.Wrote name value node layer (apply s (write name value node layer)) ∨
      apply s (write name value node layer) = s := by
  rcases write_cases s name value node layer with ⟨s', hwrote, hrun⟩ | ⟨fault, -, hrun⟩
  · exact Or.inl (by rwa [apply, hrun])
  · exact Or.inr (by rw [apply, hrun])

/-! What one call keeps -/

theorem inputs_apply (s : Scope) (c : Call) : (apply s c).inputs = s.inputs := by
  cases c with
  | write name value node layer =>
    rcases apply_write_cases s name value node layer with h | h
    · generalize apply s _ = s' at h
      cases h <;> rfl
    · rw [h]
  | _ => rfl

theorem writable_apply (s : Scope) (c : Call) : (apply s c).writable = s.writable := by
  cases c with
  | write name value node layer =>
    rcases apply_write_cases s name value node layer with h | h
    · generalize apply s _ = s' at h
      cases h <;> rfl
    · rw [h]
  | _ => rfl

theorem Writes.keeps (h : c.Writes node) :
    (apply s c).outputs = s.outputs ∧ ∀ id, (apply s c).isRunning id = s.isRunning id := by
  cases c with
  | write name value n layer =>
    rcases apply_write_cases s name value n layer with hwrote | hsame
    · exact hwrote.keeps
    · rw [hsame]
      exact ⟨rfl, fun _ => rfl⟩
  | _ => cases h

theorem globals_apply (c : Call) (h : key ∉ s.writable) : (apply s c).globals.get? key = s.globals.get? key := by
  cases c with
  | write name value node layer =>
    rcases apply_write_cases s name value node layer with hwrote | hsame
    · generalize apply s _ = s' at hwrote
      cases hwrote with
      | global hlayer hwritable =>
        refine Table.get?_set_ne _ _ ?_
        rintro rfl
        exact h hwritable
      | _ => rfl
    · rw [hsame]
  | _ => rfl

/-- Once a step has produced a variable, it stays the producer. -/
theorem writers_apply (c : Call) (h : s.writers.get? key = some node) : (apply s c).writers.get? key = some node := by
  cases c with
  | write name value other layer =>
    rcases apply_write_cases s name value other layer with hwrote | hsame
    · generalize apply s _ = s' at hwrote
      cases hwrote with
      | produced hfree hwriter =>
        rw [Table.get?_set]
        split_ifs with hkey
        · subst hkey
          rw [hwriter node h]
        · exact h
      | _ => exact h
    · rw [hsame]
      exact h
  | _ => exact h

theorem writers_of_produces (h : c.Produces s name node) : (apply s c).writers.get? name = some node := by
  cases c with
  | write key value other layer =>
    obtain ⟨rfl, rfl, rfl, hfree, hok⟩ := h
    rcases write_cases s key value other .workflow with ⟨s', hwrote, hrun⟩ | ⟨fault, -, hrun⟩
    · rw [apply, hrun]
      cases hwrote with
      | global hlayer => simp_all
      | produced => exact Table.get?_set_self _ _ _
    · rw [hrun] at hok
      cases hok
  | _ => cases h

/-- Nothing else touches a shared variable. -/
theorem produces_of_shared (h : (apply s c).shared.get? name ≠ s.shared.get? name) :
    ∃ node, c.Produces s name node := by
  cases c with
  | write key value node layer =>
    rcases write_cases s key value node layer with ⟨s', hwrote, hrun⟩ | ⟨fault, -, hrun⟩
    · rw [apply, hrun] at h
      cases hwrote with
      | produced hfree =>
        by_cases hkey : name = key
        · exact ⟨node, hkey.symm, rfl, rfl, hfree, by rw [hrun]⟩
        · exact absurd (Table.get?_set_ne _ _ hkey) h
      | _ => exact absurd rfl h
    · rw [apply, hrun] at h
      exact absurd rfl h
  | _ => exact absurd rfl h

theorem layers_apply (h : ¬ c.Owns node) : (apply s c).layers.get? node = s.layers.get? node := by
  cases c with
  | enter n values => exact Table.get?_set_ne _ _ (Ne.symm h)
  | exit n => exact Table.get?_erase_ne _ (Ne.symm h)
  | record n outputs => rfl
  | write name value n layer =>
    rcases apply_write_cases s name value n layer with hwrote | hsame
    · generalize apply s _ = s' at hwrote
      cases hwrote with
      | own hrunning =>
        exact Table.get?_modify_ne s.layers (fun fs => Table.set fs name value) fun hn => h ⟨hn.symm, rfl⟩
      | _ => rfl
    · rw [hsame]

/-- A step that is not running starts running only when it is entered. -/
theorem layers_apply_eq_none (hlayer : s.layers.get? node = none) (h : ∀ values, c ≠ enter node values) :
    (apply s c).layers.get? node = none := by
  by_cases howns : c.Owns node
  · cases c with
    | enter n values => exact absurd (howns ▸ rfl) (h values)
    | exit n =>
      obtain rfl : n = node := howns
      exact Table.get?_erase_self _ _
    | record n outputs => exact hlayer
    | write name value n layer =>
      obtain ⟨rfl, rfl⟩ := howns
      rcases apply_write_cases s name value n .node with hwrote | hsame
      · generalize apply s _ = s' at hwrote
        cases hwrote with
        | own hrunning => simp [isRunning, Table.contains, hlayer] at hrunning
        | global hlayer => simp at hlayer
      · rw [hsame]
        exact hlayer
  · rw [layers_apply howns]
    exact hlayer

end Call

/-! The beginning -/

/-- Some declaration makes the name a global that steps may write. -/
def Mutable (vars : List Variable) (name : String) : Prop :=
  ∃ v ∈ vars, v.scope = .global ∧ v.name = name ∧ v.mutable = true

/-- What declarations leave alone. -/
theorem declare_keeps (s : Scope) (v : Variable) :
    (s.declare v).inputs = s.inputs ∧ (s.declare v).layers = s.layers ∧ (s.declare v).outputs = s.outputs ∧
      (s.declare v).writers = s.writers := by
  unfold declare
  cases v.scope <;> exact ⟨rfl, rfl, rfl, rfl⟩

theorem mem_writable_declare {s : Scope} {v : Variable} {name : String} (h : name ∈ (s.declare v).writable) :
    name ∈ s.writable ∨ v.scope = .global ∧ v.name = name ∧ v.mutable = true := by
  unfold declare at h
  cases hscope : v.scope with
  | global =>
    simp only [hscope] at h
    split_ifs at h with hmutable
    · rcases List.mem_append.1 h with h | h
      · exact Or.inl h
      · exact Or.inr ⟨rfl, (List.mem_singleton.1 h).symm, hmutable⟩
    · exact Or.inl h
  | _ =>
    rw [hscope] at h
    exact Or.inl h

theorem foldl_declare_keeps (vars : List Variable) (s : Scope) :
    (vars.foldl declare s).inputs = s.inputs ∧ (vars.foldl declare s).layers = s.layers ∧
      (vars.foldl declare s).outputs = s.outputs ∧ (vars.foldl declare s).writers = s.writers := by
  induction vars generalizing s with
  | nil => exact ⟨rfl, rfl, rfl, rfl⟩
  | cons v rest ih =>
    obtain ⟨hinputs, hlayers, houtputs, hwriters⟩ := declare_keeps s v
    rw [List.foldl_cons, ← hinputs, ← hlayers, ← houtputs, ← hwriters]
    exact ih (s.declare v)

theorem mem_writable_foldl_declare {vars : List Variable} {s : Scope} {name : String}
    (h : name ∈ (vars.foldl declare s).writable) : name ∈ s.writable ∨ Mutable vars name := by
  induction vars generalizing s with
  | nil => exact Or.inl h
  | cons v rest ih =>
    rcases ih h with h | ⟨u, hu, hglobal⟩
    · rcases mem_writable_declare h with h | hglobal
      · exact Or.inl h
      · exact Or.inr ⟨v, List.mem_cons_self, hglobal⟩
    · exact Or.inr ⟨u, List.mem_cons_of_mem v hu, hglobal⟩

theorem inputs_make (vars : List Variable) (inputs : Fields) : (make vars inputs).inputs = inputs :=
  (foldl_declare_keeps vars _).1

theorem layers_make (vars : List Variable) (inputs : Fields) : (make vars inputs).layers = [] :=
  (foldl_declare_keeps vars _).2.1

theorem outputs_make (vars : List Variable) (inputs : Fields) : (make vars inputs).outputs = [] :=
  (foldl_declare_keeps vars _).2.2.1

theorem mutable_of_writable_make {vars : List Variable} {inputs : Fields} {name : String}
    (h : name ∈ (make vars inputs).writable) : Mutable vars name := by
  rcases mem_writable_foldl_declare h with h | h
  · cases h
  · exact h

/-! Histories -/

def after (s : Scope) (calls : List Call) : Scope :=
  calls.foldl Call.apply s

section
variable (s : Scope) (calls : List Call)

theorem after_append (more : List Call) : s.after (calls ++ more) = (s.after calls).after more :=
  List.foldl_append

theorem after_concat (c : Call) : s.after (calls ++ [c]) = Call.apply (s.after calls) c :=
  after_append s calls [c]

theorem after_keeps :
    (s.after calls).inputs = s.inputs ∧ (s.after calls).writable = s.writable ∧
      ∀ name, name ∉ s.writable → (s.after calls).globals.get? name = s.globals.get? name := by
  induction calls using List.reverseRecOn with
  | nil => exact ⟨rfl, rfl, fun _ _ => rfl⟩
  | append_singleton calls c ih =>
    obtain ⟨hinputs, hwritable, hglobals⟩ := ih
    rw [after_concat, Call.inputs_apply, Call.writable_apply]
    refine ⟨hinputs, hwritable, fun name hname => ?_⟩
    rw [Call.globals_apply c (hwritable.symm ▸ hname), hglobals name hname]

/-- Writes of a step record no outputs, and no step is entered or left by them. -/
theorem after_keeps_of_writes {node : String} (h : ∀ c ∈ calls, c.Writes node) :
    (s.after calls).outputs = s.outputs ∧ ∀ id, (s.after calls).isRunning id = s.isRunning id := by
  induction calls using List.reverseRecOn with
  | nil => exact ⟨rfl, fun _ => rfl⟩
  | append_singleton calls c ih =>
    obtain ⟨houtputs, hrunning⟩ := ih fun c' hc' => h c' (List.mem_append_left _ hc')
    obtain ⟨houtputs', hrunning'⟩ := Call.Writes.keeps (s := s.after calls) (h c (by simp))
    rw [after_concat]
    exact ⟨houtputs'.trans houtputs, fun id => (hrunning' id).trans (hrunning id)⟩

theorem writers_after {name node : String} (h : s.writers.get? name = some node) :
    (s.after calls).writers.get? name = some node := by
  induction calls using List.reverseRecOn with
  | nil => exact h
  | append_singleton calls c ih =>
    rw [after_concat]
    exact Call.writers_apply c ih

/-- Every successful write of a shared variable has left its mark by the end. -/
theorem writers_after_of_produces {before rest : List Call} {c : Call} {name node : String}
    (h : c.Produces (s.after before) name node) : (s.after (before ++ c :: rest)).writers.get? name = some node := by
  rw [after_append]
  exact writers_after _ rest (Call.writers_of_produces h)

/-- A step that has not been entered since it was left last is not running. -/
theorem layers_after_eq_none {node : String} (hlayer : s.layers.get? node = none)
    (h : ∀ before values rest, calls = before ++ .enter node values :: rest → .exit node ∈ rest) :
    (s.after calls).layers.get? node = none := by
  induction calls using List.reverseRecOn with
  | nil => exact hlayer
  | append_singleton calls c ih =>
    rw [after_concat]
    by_cases hexit : c = .exit node
    · subst hexit
      exact Table.get?_erase_self _ _
    · refine Call.layers_apply_eq_none (ih fun before values rest hcalls => ?_) fun values henter => ?_
      · have hmem := h before values (rest ++ [c]) (by rw [hcalls]; simp)
        rcases List.mem_append.1 hmem with hmem | hmem
        · exact hmem
        · exact absurd (List.mem_singleton.1 hmem).symm hexit
      · cases h calls values [] (by rw [henter])

end

/-- The scope of a run, made from its declared variables and its inputs, after calls. -/
def reached (vars : List Variable) (inputs : Fields) (calls : List Call) : Scope :=
  (make vars inputs).after calls

/-- In every history of a run, one step produces all that is ever written to a shared variable, and nothing
else changes it; the inputs, and the globals that are not declared as mutable, stay as they were; the layer
of a step is changed by the step's own calls only, and is empty unless the step has been entered and not yet
left; a write that is refused leaves everything as it was. -/
theorem history_keeps_scopes (vars : List Variable) (inputs : Fields) (calls : List Call) :
    ((∃ producer : String → String, ∀ before c rest, calls = before ++ c :: rest →
        ∀ name node, c.Produces (reached vars inputs before) name node → node = producer name) ∧
      ∀ c name, (Call.apply (reached vars inputs calls) c).shared.get? name ≠
          (reached vars inputs calls).shared.get? name →
        ∃ node, c.Produces (reached vars inputs calls) name node) ∧
    ((reached vars inputs calls).inputs = inputs ∧
      ∀ name, ¬ Mutable vars name →
        (reached vars inputs calls).globals.get? name = (reached vars inputs []).globals.get? name) ∧
    ((∀ c node, ¬ c.Owns node →
        (Call.apply (reached vars inputs calls) c).layer node = (reached vars inputs calls).layer node) ∧
      ∀ node, (∀ before values rest, calls = before ++ .enter node values :: rest → .exit node ∈ rest) →
        (reached vars inputs calls).layer node = []) ∧
    ∀ name value node layer fault,
      ((Call.write name value node layer).run (reached vars inputs calls)).1 = .error fault →
        ((Call.write name value node layer).run (reached vars inputs calls)).2 = reached vars inputs calls := by
  obtain ⟨hinputs, -, hglobals⟩ := after_keeps (make vars inputs) calls
  refine ⟨⟨?_, fun c name => Call.produces_of_shared⟩, ⟨?_, fun name hname => ?_⟩, ⟨fun c node howns => ?_, ?_⟩, ?_⟩
  · refine ⟨fun name => ((reached vars inputs calls).writers.get? name).getD "", ?_⟩
    rintro before c rest rfl name node hproduces
    have hmark : (reached vars inputs (before ++ c :: rest)).writers.get? name = some node :=
      writers_after_of_produces _ hproduces
    dsimp only
    rw [hmark, Option.getD_some]
  · rw [reached, hinputs, inputs_make]
  · exact hglobals name fun hwritable => hname (mutable_of_writable_make hwritable)
  · rw [layer, layer, Table.getD, Table.getD, Call.layers_apply howns]
  · intro node hout
    have hbegin : (make vars inputs).layers.get? node = none := by
      rw [layers_make]
      rfl
    rw [layer, Table.getD, reached, layers_after_eq_none _ calls hbegin hout, Option.getD_none]
  · intro name value node layer fault hfault
    rcases Call.write_cases (reached vars inputs calls) name value node layer with ⟨s', -, hrun⟩ | ⟨_, -, hrun⟩
    · rw [hrun] at hfault
      cases hfault
    · rw [hrun]

/-- Two steps write one shared variable: the first produces it, the second is refused. -/
theorem history_keeps_scopes_contested :
    (Call.write "x" (.text "1") "a" .workflow).Produces (reached [] [] [.enter "a" []]) "x" "a" ∧
      (∃ fault, ((Call.write "x" (.text "2") "b" .workflow).run
        (reached [] [] [.enter "a" [], .write "x" (.text "1") "a" .workflow])).1 = .error fault) ∧
      ((Call.write "x" (.text "2") "b" .workflow).run
          (reached [] [] [.enter "a" [], .write "x" (.text "1") "a" .workflow])).2 =
        reached [] [] [.enter "a" [], .write "x" (.text "1") "a" .workflow] := by
  obtain ⟨-, -, -, hrefused⟩ := history_keeps_scopes [] [] [.enter "a" [], .write "x" (.text "1") "a" .workflow]
  exact ⟨⟨rfl, rfl, rfl, rfl, rfl⟩, ⟨_, rfl⟩, hrefused "x" (.text "2") "b" .workflow _ rfl⟩

end Scope

end Flowgraph
