import Flowgraph.Proofs.Outcome
import Flowgraph.Scope
import Mathlib.Tactic

/-! Writes to a scope. A write that succeeds is one of three: to the layer of a step that is running, to a
global that may be written, or to a shared variable that no other step has produced. Done one assignment
after the other, a write that is refused has assigned nothing yet. -/

namespace Flowgraph

namespace Table

variable {α : Type}

theorem set_eq_self {t : Table α} {key : String} {value : α} (h : t.get? key = some value) : t.set key value = t := by
  induction t with
  | nil => cases h
  | cons entry rest ih =>
    unfold get? at h
    unfold set
    split_ifs at h ⊢ with hk
    · rw [← Option.some.inj h]
    · rw [ih h]

theorem get?_modify_ne (t : Table α) {key other : String} (f : α → α) (h : other ≠ key) :
    (t.modify key f).get? other = t.get? other := by
  induction t with
  | nil => rfl
  | cons entry rest ih =>
    by_cases hk : entry.1 = key
    · simpa [modify, get?, hk, Ne.symm h] using ih
    · by_cases ho : entry.1 = other
      · simp [modify, get?, ho, h]
      · simpa [modify, get?, hk, ho] using ih

theorem contains_modify (t : Table α) (key other : String) (f : α → α) :
    (t.modify key f).contains other = t.contains other := by
  unfold contains
  induction t with
  | nil => rfl
  | cons entry rest ih =>
    obtain ⟨k, v⟩ := entry
    have hentry : modify ((k, v) :: rest) key f = (k, if k = key then f v else v) :: modify rest key f := by
      unfold modify
      rw [List.map_cons]
      split_ifs <;> rfl
    rw [hentry, get?, get?]
    by_cases ho : k = other
    · rw [if_pos ho, if_pos ho]
      rfl
    · rw [if_neg ho, if_neg ho]
      exact ih

end Table

namespace Scope

variable {s s' : Scope} {name node : String} {value : Value} {layer : VariableScope}

/-- What a successful write has written, and where. -/
inductive Wrote (s : Scope) (name : String) (value : Value) (node : String) : VariableScope → Scope → Prop where
  | own (hrunning : s.isRunning node = true) :
      Wrote s name value node .node { s with layers := s.layers.modify node (fun fs => fs.set name value) }
  | global {layer : VariableScope} (hlayer : layer = .global ∨ layer = .workflow ∧ s.globals.contains name = true)
      (hwritable : name ∈ s.writable) :
      Wrote s name value node layer { s with globals := s.globals.set name value }
  | produced (hfree : s.globals.contains name = false)
      (hwriter : ∀ writer, s.writers.get? name = some writer → writer = node) :
      Wrote s name value node .workflow
        { s with writers := s.writers.set name node, shared := s.shared.set name value }

theorem write_eq_ok (h : s.write name value node layer = .ok s') : s.Wrote name value node layer s' := by
  unfold write at h
  split_ifs at h with hnode hrunning hglobal hwritable
  · subst hnode
    obtain rfl := Except.ok.inj h
    exact .own hrunning
  · cases h
  · obtain rfl := Except.ok.inj h
    refine .global ?_ (List.contains_iff_mem.1 hwritable)
    cases layer <;> simp_all
  · cases h
  · obtain ⟨hlayer, hfree⟩ : layer = .workflow ∧ s.globals.contains name = false := by
      cases layer <;> simp_all
    subst hlayer
    split at h
    · next writer hwriter =>
      split_ifs at h with hown
      · obtain rfl := Except.ok.inj h
        subst hown
        have hwrote : s.Wrote name value writer .workflow
            { s with writers := s.writers.set name writer, shared := s.shared.set name value } :=
          .produced hfree fun other ho => by simp_all
        rwa [Table.set_eq_self hwriter] at hwrote
      · cases h
    · next hwriter =>
      obtain rfl := Except.ok.inj h
      exact .produced hfree fun writer hw => by simp_all

/-- A write goes to a layer that is there, and to nothing that is recorded. -/
theorem Wrote.keeps (h : s.Wrote name value node layer s') :
    s'.outputs = s.outputs ∧ ∀ id, s'.isRunning id = s.isRunning id := by
  cases h with
  | own hrunning => exact ⟨rfl, fun id => Table.contains_modify s.layers node id fun fs => Table.set fs name value⟩
  | _ => exact ⟨rfl, fun _ => rfl⟩

/-! One assignment after the other -/

/-- Work on a scope that can break off. What it has assigned by then stays. -/
abbrev Work (α : Type) :=
  ExceptT Fault (StateM Scope) α

namespace Work

def run {α : Type} (x : Work α) (s : Scope) : Except Fault α × Scope :=
  StateT.run (ExceptT.run x) s

def check (test : Scope → Except Fault Unit) : Work Unit := do
  ExceptT.mk (pure (test (← get)))

theorem run_bind {α β : Type} (x : Work α) (f : α → Work β) (s : Scope) :
    (x >>= f).run s =
      match x.run s with
      | (.ok a, s') => (f a).run s'
      | (.error fault, s') => (.error fault, s') := by
  change StateT.run (ExceptT.run (x >>= f)) s = _
  rw [run_run_bind]
  unfold Work.run
  rcases StateT.run (ExceptT.run x) s with ⟨_ | a, s'⟩ <;> rfl

@[simp] theorem run_get (s : Scope) : run get s = (.ok s, s) := rfl

@[simp] theorem run_check (test : Scope → Except Fault Unit) (s : Scope) : run (check test) s = (test s, s) := rfl

end Work

/-- A write in single steps: a check that may break it off, then the assignments. -/
def writing (name : String) (value : Value) (node : String) (layer : VariableScope) : Work Unit := do
  let s ← get
  if layer = .node then do
    Work.check fun s =>
      if s.isRunning node then pure ()
      else scopeFault ("Node '" ++ node ++ "' is not running") name VariableScope.node.name
    modify fun s => { s with layers := s.layers.modify node (fun fs => fs.set name value) }
  else if layer = .global || s.globals.contains name then do
    Work.check fun s =>
      if s.writable.contains name then pure ()
      else scopeFault ("Global variable '" ++ name ++ "' is read-only") name VariableScope.global.name
    modify fun s => { s with globals := s.globals.set name value }
  else do
    Work.check fun s =>
      match s.writers.get? name with
      | some writer =>
        if writer = node then pure ()
        else
          scopeFault ("Workflow variable '" ++ name ++ "' was already produced by node '" ++ writer ++ "'")
            name VariableScope.workflow.name
      | none => pure ()
    modify fun s => { s with writers := s.writers.set name node }
    modify fun s => { s with shared := s.shared.set name value }

/-- The single steps come to what the write is as a whole; those that are broken off leave the scope alone. -/
theorem run_writing (s : Scope) (name : String) (value : Value) (node : String) (layer : VariableScope) :
    (writing name value node layer).run s =
      match s.write name value node layer with
      | .ok s' => (.ok (), s')
      | .error fault => (.error fault, s) := by
  unfold writing write
  rw [Work.run_bind, Work.run_get]
  dsimp only
  split_ifs with hnode hrunning hglobal hwritable
  · rw [Work.run_bind, Work.run_check, if_pos hrunning]
    rfl
  · rw [Work.run_bind, Work.run_check, if_neg hrunning]
    rfl
  · rw [Work.run_bind, Work.run_check, if_pos hwritable]
    rfl
  · rw [Work.run_bind, Work.run_check, if_neg hwritable]
    rfl
  · rw [Work.run_bind, Work.run_check]
    cases hwriter : s.writers.get? name with
    | none => rfl
    | some writer =>
      dsimp only
      split_ifs with hown
      · subst hown
        change (Except.ok (), { s with writers := s.writers.set name writer, shared := s.shared.set name value }) = _
        rw [Table.set_eq_self hwriter]
      · rfl

end Scope

end Flowgraph
