import Flowgraph.Proofs.Scope.History
import Flowgraph.Proofs.Table

/-! Reading back what has been written. A write looks for a global of the name first, a look-up for a shared
variable. The two meet unless the name has been declared for both: then the shared variable stands in front of
the global. -/

namespace Flowgraph

namespace Scope

def DeclaredShared (vars : List Variable) (name : String) : Prop :=
  ∃ v ∈ vars, v.scope = .workflow ∧ v.name = name

/-- The name stands for a global that steps may write, and for a shared variable in front of it. -/
def Shadowed (vars : List Variable) (name : String) : Prop :=
  Mutable vars name ∧ DeclaredShared vars name

section
variable {s s' : Scope} {vars : List Variable} {name node : String} {value : Value} {layer : VariableScope}

/-! The beginning -/

/-- Which names declarations have made globals that may be written, and shared variables. -/
structure Declared (vars : List Variable) (s : Scope) : Prop where
  writable_global : ∀ name ∈ s.writable, s.globals.contains name = true
  shared_iff : ∀ name, s.shared.contains name = true ↔ DeclaredShared vars name

theorem Declared.declare (h : Declared vars s) (v : Variable) : Declared (vars ++ [v]) (s.declare v) := by
  have hsame : v.scope ≠ .workflow → ∀ name, DeclaredShared (vars ++ [v]) name ↔ DeclaredShared vars name := by
    intro hv name
    simp [DeclaredShared, or_and_right, exists_or, hv]
  unfold Scope.declare
  cases hscope : v.scope with
  | global =>
    have hglobal : ∀ name ∈ s.writable, (s.globals.set v.name v.value).contains name = true := fun name hname => by
      rw [Table.contains_set, h.writable_global name hname, Bool.or_true]
    refine ⟨fun name hname => ?_, fun name => ?_⟩
    · dsimp only at hname ⊢
      split_ifs at hname
      · rcases List.mem_append.1 hname with hname | hname
        · exact hglobal name hname
        · rw [List.mem_singleton.1 hname, Table.contains_set, decide_eq_true rfl, Bool.true_or]
      · exact hglobal name hname
    · rw [hsame (by rw [hscope]; decide)]
      exact h.shared_iff name
  | workflow =>
    refine ⟨h.writable_global, fun name => ?_⟩
    dsimp only
    rw [Table.contains_set, Bool.or_eq_true, decide_eq_true_eq, h.shared_iff]
    simp [DeclaredShared, or_and_right, exists_or, hscope, or_comm, eq_comm]
  | node =>
    refine ⟨h.writable_global, fun name => ?_⟩
    rw [hsame (by rw [hscope]; decide)]
    exact h.shared_iff name

theorem Declared.foldl (h : Declared vars s) (more : List Variable) :
    Declared (vars ++ more) (more.foldl Scope.declare s) := by
  induction more generalizing vars s with
  | nil => rwa [List.append_nil]
  | cons v rest ih =>
    rw [List.append_cons]
    exact ih (h.declare v)

/-! Histories -/

/-- What decides in a scope where a name is written and where it is found: globals that may be written are there,
so are the declared shared variables, and the others have no global of their name. -/
structure Sorted (vars : List Variable) (s : Scope) : Prop where
  writable_global : ∀ name ∈ s.writable, s.globals.contains name = true
  declared_shared : ∀ name, DeclaredShared vars name → s.shared.contains name = true
  shared_declared : ∀ name, s.shared.contains name = true →
    DeclaredShared vars name ∨ s.globals.contains name = false

theorem sorted_make (vars : List Variable) (inputs : Fields) : Sorted vars (make vars inputs) := by
  have hempty : Declared [] ⟨inputs, [], [], [], [], [], [], []⟩ :=
    ⟨nofun, fun name => by simp [DeclaredShared, Table.contains, Table.get?]⟩
  have hdeclared := hempty.foldl vars
  exact ⟨fun name hname => Table.contains_merge inputs (hdeclared.writable_global name hname),
    fun name => (hdeclared.shared_iff name).2, fun name hname => Or.inl ((hdeclared.shared_iff name).1 hname)⟩

/-- A write makes no global, and a shared variable only where there is no global. -/
theorem Wrote.sorted (hwrote : s.Wrote name value node layer s') (h : Sorted vars s) : Sorted vars s' := by
  cases hwrote with
  | own => exact ⟨h.writable_global, h.declared_shared, h.shared_declared⟩
  | global hlayer hwritable =>
    -- a global that is written was there before
    have hkept : ∀ key, (s.globals.set name value).contains key = s.globals.contains key := by
      intro key
      rw [Table.contains_set]
      by_cases hkey : key = name
      · rw [hkey, h.writable_global name hwritable, Bool.or_true]
      · rw [decide_eq_false hkey, Bool.false_or]
    exact ⟨fun key hkey => (hkept key).trans (h.writable_global key hkey), h.declared_shared,
      fun key hkey => (h.shared_declared key hkey).imp_right (hkept key).trans⟩
  | produced hfree =>
    refine ⟨h.writable_global, fun key hkey => ?_, fun key hkey => ?_⟩
    · dsimp only
      rw [Table.contains_set, h.declared_shared key hkey, Bool.or_true]
    · dsimp only at hkey
      rw [Table.contains_set, Bool.or_eq_true, decide_eq_true_eq] at hkey
      rcases hkey with rfl | hkey
      · exact Or.inr hfree
      · exact h.shared_declared key hkey

theorem Sorted.apply (h : Sorted vars s) (c : Call) : Sorted vars (Call.apply s c) := by
  cases c with
  | write name value node layer =>
    rcases Call.apply_write_cases s name value node layer with hwrote | hsame
    · exact hwrote.sorted h
    · rwa [hsame]
  | _ => exact ⟨h.writable_global, h.declared_shared, h.shared_declared⟩

theorem sorted_reached (vars : List Variable) (inputs : Fields) (calls : List Call) :
    Sorted vars (reached vars inputs calls) := by
  induction calls using List.reverseRecOn with
  | nil => exact sorted_make vars inputs
  | append_singleton calls c ih =>
    rw [reached, after_concat]
    exact ih.apply c

/-! Look-ups -/

theorem lookup?_none (s : Scope) (name : String) :
    s.lookup? none name = (s.shared.get? name <|> s.globals.get? name) :=
  rfl

/-- A written global is found unless a shared variable of its name stands in front of it. -/
theorem lookup?_globals_set (s : Scope) (name : String) (value : Value) :
    ({ s with globals := s.globals.set name value } : Scope).lookup? none name =
      (s.shared.get? name <|> some value) := by
  rw [lookup?_none, Table.get?_set_self]

/-- After a write that is not to the layer of a step, looking the name up gives what has been written, unless a
shared variable has been declared in front of a global of that name. A write to such a global goes there, and the
name goes on standing for the shared variable. -/
theorem read_after_write {inputs : Fields} {calls : List Call} (hlayer : layer ≠ .node)
    (h : (reached vars inputs calls).write name value node layer = .ok s') :
    (¬ Shadowed vars name → s'.lookup? none name = some value) ∧
      (Shadowed vars name → layer = .global → s'.globals.get? name = some value ∧
        ∃ v, (reached vars inputs calls).shared.get? name = some v ∧ s'.lookup? none name = some v) := by
  have hsorted := sorted_reached vars inputs calls
  have hwritable : ∀ key ∈ (reached vars inputs calls).writable, Mutable vars key := by
    intro key hkey
    rw [reached, (after_keeps _ calls).2.1] at hkey
    exact mutable_of_writable_make hkey
  cases write_eq_ok h with
  | own => exact absurd rfl hlayer
  | global _ hname =>
    rw [lookup?_globals_set, Table.get?_set_self]
    have hglobal := hsorted.writable_global name hname
    refine ⟨fun hshadowed => ?_, fun hshadowed _ => ⟨rfl, ?_⟩⟩
    · have hfree : (reached vars inputs calls).shared.get? name = none := by
        by_contra hshared
        rcases hsorted.shared_declared name (Option.isSome_iff_ne_none.2 hshared) with hdeclared | hnone
        · exact hshadowed ⟨hwritable name hname, hdeclared⟩
        · rw [hglobal] at hnone
          cases hnone
      rw [hfree]
      rfl
    · obtain ⟨v, hv⟩ := Option.isSome_iff_exists.1 (hsorted.declared_shared name hshadowed.2)
      exact ⟨v, hv, by rw [hv]; rfl⟩
  | produced hfree =>
    refine ⟨fun _ => ?_, fun _ hglobal => by cases hglobal⟩
    rw [lookup?_none, Table.get?_set_self]
    rfl

end

def namesakes : List Variable :=
  [{ id := "v1", name := "x", type := .number, value := .int 1, scope := .global },
   { id := "v2", name := "x", type := .number, value := .int 2, scope := .workflow }]

theorem shadowed_namesakes : Shadowed namesakes "x" :=
  ⟨⟨_, List.mem_cons_self, rfl, rfl, rfl⟩, _, List.mem_cons_of_mem _ List.mem_cons_self, rfl, rfl⟩

/-- Another name is read back, the name of both is not. -/
theorem read_after_write_other :
    (∃ s', (reached namesakes [] []).write "y" (.int 3) "a" .workflow = .ok s' ∧
      s'.lookup? none "y" = some (.int 3)) ∧
    ∃ s', (reached namesakes [] []).write "x" (.int 3) "a" .global = .ok s' ∧
      s'.globals.get? "x" = some (.int 3) ∧
      ∃ v, (reached namesakes [] []).shared.get? "x" = some v ∧ s'.lookup? none "x" = some v := by
  have hother : ¬ Shadowed namesakes "y" := by
    rintro ⟨⟨v, hv, -, hname, -⟩, -⟩
    simp only [namesakes, List.mem_cons, List.not_mem_nil, or_false] at hv
    rcases hv with rfl | rfl <;> exact absurd hname (by decide)
  have hproduced : ∃ s', (reached namesakes [] []).write "y" (.int 3) "a" .workflow = .ok s' := ⟨_, rfl⟩
  have hglobal : ∃ s', (reached namesakes [] []).write "x" (.int 3) "a" .global = .ok s' := ⟨_, rfl⟩
  obtain ⟨produced, hproduced⟩ := hproduced
  obtain ⟨written, hwritten⟩ := hglobal
  refine ⟨⟨produced, hproduced, ?_⟩, ⟨written, hwritten, ?_⟩⟩
  · exact (read_after_write (by decide) hproduced).1 hother
  · exact (read_after_write (by decide) hwritten).2 shadowed_namesakes rfl

/-- What is written to the global of two namesakes is not what their name stands for. -/
theorem namesake_not_read_back : ∃ s', (reached namesakes [] []).write "x" (.int 3) "a" .global = .ok s' ∧
    s'.lookup? none "x" = some (.int 2) ∧ s'.lookup? none "x" ≠ some (.int 3) := by
  refine ⟨_, rfl, rfl, ?_⟩
  rw [lookup?_globals_set]
  exact fun h => nomatch h

end Scope

end Flowgraph
