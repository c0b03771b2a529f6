import Flowgraph.Program
import Flowgraph.Proofs.Run.Fate

/-! The statements of a step, read in order. Each connection either leaves the reader where it was, says
that a path has led here, or ends the reading with a skip, as the connection is dead, satisfied or gated
in a run; so the reader comes to the call exactly when a run admits the node. -/

namespace Flowgraph

namespace Program

/-- What is known when the turn of a step comes: whether the run was aborted, how the other nodes ended,
and which conditions hold. -/
structure Circumstances where
  aborted : Bool
  status : String → NodeStatus
  holds : String → Bool

inductive Act where
  | skipped (id : String)
  | called (id : String)
  deriving DecidableEq, Repr

/-- How far a reader has come, and what has been done on the way. -/
structure Reader where
  satisfied : Bool
  acts : List Act := []
  left : Bool := false
  deriving DecidableEq, Repr

def Test.holds (c : Circumstances) (satisfied : Bool) : Test → Bool
  | aborted => c.aborted
  | succeeded id => c.status id = .success
  | failed id => c.status id = .failed
  | refuted expression => !c.holds expression
  | unsatisfied => !satisfied

mutual

def Statement.read (c : Circumstances) (r : Reader) : Statement → Reader
  | .ifHolds test body => if test.holds c r.satisfied then readAll c r body else r
  | .setSatisfied value => { r with satisfied := value }
  | .skip id => { r with acts := r.acts ++ [.skipped id] }
  | .leave => { r with left := true }
  | .call _ id _ => { r with acts := r.acts ++ [.called id] }

/-- Nothing is read any more after leaving. -/
def readAll (c : Circumstances) (r : Reader) : List Statement → Reader
  | [] => r
  | s :: rest => if r.left then r else readAll c (s.read c r) rest

end

section
variable {c : Circumstances} {r : Reader} {id : String}

theorem readAll_of_left (h : r.left = true) (statements : List Statement) : readAll c r statements = r := by
  cases statements with
  | nil => rw [readAll]
  | cons s rest => rw [readAll, if_pos h]

theorem readAll_append (first second : List Statement) :
    readAll c r (first ++ second) = readAll c (readAll c r first) second := by
  induction first generalizing r with
  | nil => rw [List.nil_append, readAll]
  | cons s rest ih =>
    rw [List.cons_append, readAll, readAll]
    split_ifs with h
    · rw [readAll_of_left h]
    · exact ih

/-- Having come so far, a reader skips the step and leaves. -/
def Reader.skipping (r : Reader) (id : String) : Reader :=
  { r with acts := r.acts ++ [.skipped id], left := true }

/-- From one reader to another: the reading goes on with nothing done, or has ended with a skip. -/
structure Reader.Proceeds (r r' : Reader) (id : String) (goesOn : Bool) : Prop where
  acts : r'.acts = if goesOn then r.acts else r.acts ++ [.skipped id]
  left : r'.left = !goesOn

theorem Reader.proceeds_self (h : r.left = false) : r.Proceeds r id true :=
  ⟨rfl, h⟩

theorem Reader.proceeds_skipping : r.Proceeds (r.skipping id) id false :=
  ⟨rfl, rfl⟩

theorem Reader.Proceeds.trans {r' r'' : Reader} {goesOn : Bool} (h : r.Proceeds r' id true)
    (h' : r'.Proceeds r'' id goesOn) : r.Proceeds r'' id goesOn :=
  ⟨by rw [h'.acts, h.acts, if_pos rfl], h'.left⟩

theorem read_skipAndLeave (h : r.left = false) : readAll c r (skipAndLeave id) = r.skipping id := by
  simp [skipAndLeave, readAll, Statement.read, Reader.skipping, h]

theorem read_ifHolds_skip (h : r.left = false) (test : Test) :
    (Statement.ifHolds test (skipAndLeave id)).read c r = if test.holds c r.satisfied then r.skipping id else r := by
  rw [Statement.read, read_skipAndLeave h]

/-- A connection is read as what it means in a run whose source has ended so. -/
theorem read_edgeStatement (h : r.left = false) (e : Edge) :
    (edgeStatement id e).read c r =
      match EdgeState.after e (c.status e.source) with
      | .dead => r
      | .satisfied => { r with satisfied := true }
      | .gated => if c.holds (e.guard?.getD "") then { r with satisfied := true } else r.skipping id := by
  have hset : ∀ r : Reader, r.left = false → readAll c r [.setSatisfied true] = { r with satisfied := true } := by
    intro r h
    simp [readAll, Statement.read, h]
  cases hg : e.guard? with
  | none =>
    cases htype : e.type <;> cases hs : c.status e.source <;>
      simp [edgeStatement, EdgeState.after, Statement.read, Test.holds, hset, htype, hg, hs, h]
  | some text =>
    have htype : e.type = .conditional := by
      unfold Edge.guard? at hg
      split_ifs at hg with htype
      exact htype
    have hgated : readAll c r [.ifHolds (.refuted text) (skipAndLeave id), .setSatisfied true] =
        if c.holds text then { r with satisfied := true } else r.skipping id := by
      rw [readAll, if_neg (by simp [h]), read_ifHolds_skip h, Test.holds]
      cases c.holds text with
      | true => exact hset r h
      | false => exact readAll_of_left rfl _
    cases hs : c.status e.source <;>
      simp [edgeStatement, EdgeState.after, Statement.read, Test.holds, hgated, htype, hg, hs]

end

end Program

namespace Run

open Program

/-- The guards of a node and of the connections to it come out like this. -/
structure GuardsAs (holds : String → Bool) (r : Run) (id : String) : Prop where
  edges : ∀ e ∈ r.graph.incoming id, ∀ text, e.guard? = some text → r.scope.evaluate none text = .ok (holds text)
  node : ∀ text, (r.graph.node? id).bind Node.guard? = some text → r.scope.evaluate none text = .ok (holds text)

section
variable {c : Circumstances} {r : Run} {id : String} {edges : List Edge}

/-- The connections let a node run exactly if reading them all does not end with a skip. -/
theorem pathsOpen_read (id : String) (q : Reader) (hleft : q.left = false)
    (hstate : ∀ e ∈ edges, r.edgeState e = EdgeState.after e (c.status e.source))
    (hguard : ∀ e ∈ edges, ∀ text, e.guard? = some text → r.scope.evaluate none text = .ok (c.holds text)) :
    ∃ reached, r.pathsOpen q.satisfied edges = .ok reached ∧
      q.Proceeds (readAll c q (edges.map (edgeStatement id) ++ [.ifHolds .unsatisfied (skipAndLeave id)])) id
        reached := by
  induction edges generalizing q with
  | nil =>
    refine ⟨q.satisfied, rfl, ?_⟩
    rw [List.map_nil, List.nil_append, readAll, if_neg (by simp [hleft]), readAll, read_ifHolds_skip hleft,
      Test.holds]
    cases hs : q.satisfied with
    | true => exact Reader.proceeds_self hleft
    | false => exact Reader.proceeds_skipping
  | cons e rest ih =>
    have hrest := fun (q : Reader) (h : q.left = false) =>
      ih q h (fun e he => hstate e (List.mem_cons_of_mem _ he)) fun e he => hguard e (List.mem_cons_of_mem _ he)
    have hset : ∃ reached, r.pathsOpen true rest = .ok reached ∧
        q.Proceeds (readAll c { q with satisfied := true }
          (rest.map (edgeStatement id) ++ [.ifHolds .unsatisfied (skipAndLeave id)])) id reached := by
      obtain ⟨reached, hopen, hread⟩ := hrest { q with satisfied := true } hleft
      exact ⟨reached, hopen, hread.acts, hread.left⟩
    have hs := hstate e (List.mem_cons_self ..)
    rw [pathsOpen, List.map_cons, List.cons_append, readAll, if_neg (by simp [hleft]), read_edgeStatement hleft, ← hs]
    cases he : r.edgeState e with
    | dead => exact hrest q hleft
    | satisfied => exact hset
    | gated =>
      obtain ⟨text, htext⟩ := guard_of_gated (hs.symm.trans he)
      have hholds := hguard e (List.mem_cons_self ..) text htext
      dsimp only
      rw [gateHolds_of_guard htext, hholds, htext, Option.getD_some]
      cases c.holds text with
      | true => exact hset
      | false =>
        refine ⟨false, rfl, ?_⟩
        rw [if_neg Bool.false_ne_true, readAll_of_left rfl]
        exact Reader.proceeds_skipping

theorem pathStatements_read (id : String) (q : Reader) (hleft : q.left = false)
    (hstate : ∀ e ∈ edges, r.edgeState e = EdgeState.after e (c.status e.source))
    (hguard : ∀ e ∈ edges, ∀ text, e.guard? = some text → r.scope.evaluate none text = .ok (c.holds text)) :
    ∃ reached, (if edges.isEmpty then .ok true else r.pathsOpen false edges) = .ok reached ∧
      q.Proceeds (readAll c q (pathStatements id edges)) id reached := by
  unfold pathStatements
  by_cases hempty : edges.isEmpty = true
  · rw [if_pos hempty, if_pos hempty, readAll]
    exact ⟨true, rfl, Reader.proceeds_self hleft⟩
  · obtain ⟨reached, hopen, hread⟩ := pathsOpen_read id { q with satisfied := false } hleft hstate hguard
    rw [if_neg hempty, if_neg hempty, List.cons_append, readAll, if_neg (by simp [hleft]), Statement.read]
    exact ⟨reached, hopen, hread.acts, hread.left⟩

theorem guardStatements_read {n : Node} (q : Reader) (hleft : q.left = false)
    (hguard : ∀ text, n.guard? = some text → r.scope.evaluate none text = .ok (c.holds text)) :
    ∃ runs, (match n.guard? with
      | none => Except.ok true
      | some text => r.scope.evaluate none text) = .ok runs ∧
      q.Proceeds (readAll c q (guardStatements n)) n.id runs := by
  unfold guardStatements
  cases htext : n.guard? with
  | none =>
    dsimp only
    rw [readAll]
    exact ⟨true, rfl, Reader.proceeds_self hleft⟩
  | some text =>
    refine ⟨c.holds text, hguard text htext, ?_⟩
    dsimp only
    rw [readAll, if_neg (by simp [hleft]), readAll, read_ifHolds_skip hleft, Test.holds]
    cases c.holds text with
    | true => exact Reader.proceeds_self hleft
    | false => exact Reader.proceeds_skipping

/-- Once it is known whether the connections let a node run, its own guard decides. -/
theorem decide_of_paths {n : Node} {reached : Bool} (hn : r.graph.node? id = some n)
    (h : (if (r.graph.incoming id).isEmpty then .ok true else r.pathsOpen false (r.graph.incoming id)) = .ok reached) :
    r.decide id = if reached then (match n.guard? with
      | none => .ok true
      | some text => r.scope.evaluate none text) else .ok false := by
  unfold Run.decide
  rw [hn, Option.bind_some]
  split_ifs at h with hempty
  · obtain rfl : true = reached := Except.ok.inj h
    simp only [hempty]
    rfl
  · simp only [hempty, h]
    cases reached <;> rfl

/-- Reading what stands before the call does not end with a skip exactly if the node is let run. -/
theorem decide_read {n : Node} (hn : r.graph.node? id = some n) (q : Reader) (hleft : q.left = false)
    (hstate : ∀ e ∈ r.graph.incoming id, r.edgeState e = EdgeState.after e (c.status e.source))
    (hguards : r.GuardsAs c.holds id) :
    ∃ runs, r.decide id = .ok runs ∧
      q.Proceeds (readAll c q (pathStatements id (r.graph.incoming id) ++ guardStatements n)) id runs := by
  obtain ⟨reached, hopen, hpaths⟩ := pathStatements_read id q hleft hstate hguards.edges
  have hnode := hguards.node
  rw [hn, Option.bind_some] at hnode
  rw [readAll_append, decide_of_paths hn hopen]
  cases reached with
  | false =>
    rw [readAll_of_left hpaths.left]
    exact ⟨false, rfl, hpaths⟩
  | true =>
    obtain ⟨runs, hruns, hguard⟩ := guardStatements_read (c := c) _ hpaths.left hnode
    rw [Graph.node?_some_id hn] at hguard
    exact ⟨runs, hruns, hpaths.trans hguard⟩

theorem graph_foldl_settleEdges (status : String → NodeStatus) (resolved : List String) :
    (resolved.foldl (fun r s => r.settleEdges s (status s)) r).graph = r.graph := by
  induction resolved generalizing r with
  | nil => rfl
  | cons s rest ih => exact ih

theorem scope_foldl_settleEdges (status : String → NodeStatus) (resolved : List String) :
    (resolved.foldl (fun r s => r.settleEdges s (status s)) r).scope = r.scope := by
  induction resolved generalizing r with
  | nil => rfl
  | cons s rest ih => exact ih

/-- Settling the connections of other nodes one after the other leaves each as its source ended. -/
theorem edgeState_foldl_settleEdges (hnodup : (r.graph.edges.map Edge.id).Nodup) (status : String → NodeStatus)
    (resolved : List String) {e : Edge} (he : e ∈ r.graph.edges) (hsource : e.source ∈ resolved) :
    (resolved.foldl (fun r s => r.settleEdges s (status s)) r).edgeState e = EdgeState.after e (status e.source) := by
  -- from the end, for only the last settling of a source counts
  induction resolved using List.reverseRecOn with
  | nil => cases hsource
  | append_singleton before s ih =>
    have hgraph : (before.foldl (fun r s => r.settleEdges s (status s)) r).graph = r.graph :=
      graph_foldl_settleEdges status before
    rw [List.foldl_append, List.foldl_cons, List.foldl_nil,
      edgeState_settleEdges (by rwa [hgraph]) _ (by rwa [hgraph])]
    split_ifs with hs
    · rw [hs]
    · rcases List.mem_append.1 hsource with hbefore | hself
      · exact ih hbefore
      · exact absurd (List.mem_singleton.1 hself) hs

end

end Run

namespace Program

open Run

/-- In a run that was not aborted a step is called if what stands before the call lets the reader go on. -/
theorem acts_stepStatements {c : Circumstances} {q : Reader} {w : Workflow} {g : Graph} {n : Node}
    {identifier id : String} {runs : Bool} (hrun : c.aborted = false) (hleft : q.left = false) (hid : n.id = id)
    (h : q.Proceeds (readAll c q (pathStatements id (g.incoming id) ++ guardStatements n)) id runs) :
    (readAll c q (stepStatements w g n identifier)).acts =
      q.acts ++ [if runs then .called id else .skipped id] := by
  subst hid
  have haborted : (Statement.ifHolds .aborted (skipAndLeave n.id)).read c q = q := by
    rw [read_ifHolds_skip hleft, Test.holds, hrun]
    rfl
  change (readAll c q (.ifHolds .aborted (skipAndLeave n.id) ::
    (pathStatements n.id (g.incoming n.id) ++ guardStatements n ++
      [.call identifier n.id (Policy.contains w g n)]))).acts = _
  rw [readAll, if_neg (by simp [hleft]), haborted, readAll_append]
  cases runs with
  | true =>
    rw [readAll, if_neg (by simp [h.left]), Statement.read, readAll, h.acts]
    rfl
  | false =>
    rw [readAll_of_left h.left, h.acts]
    rfl

/-- The lines of every step stand in the program. -/
theorem stepLines_infix {e : Emitter} {w : Workflow} {g : Graph} {order lines : List String} {id : String} {n : Node}
    (h : Program.lines e w g order = .ok lines) (hid : id ∈ order) (hn : g.node? id = some n) :
    stepLines w g n (identifierOf (identifiers order) id) <:+: lines := by
  obtain rfl := Graph.node?_some_id hn
  have hmem : n ∈ order.filterMap g.node? := List.mem_filterMap.2 ⟨n.id, hid, hn⟩
  have hsteps : stepLines w g n (identifierOf (identifiers order) n.id) <:+:
      (order.filterMap g.node?).flatMap fun n => stepLines w g n (identifierOf (identifiers order) n.id) :=
    List.infix_of_mem_flatten (List.mem_map_of_mem hmem)
  unfold Program.lines at h
  cases hdata : dataLines e w order with
  | error f =>
    rw [hdata] at h
    cases h
  | ok data =>
    rw [hdata] at h
    obtain rfl := Except.ok.inj h
    refine hsteps.trans ?_
    exact ⟨_, _, rfl⟩

/-- Whatever the sources of a step have come to and whichever conditions hold, the step's lines in the
program of a workflow, read in order in a run that was not aborted, come to the call if the run itself
lets the node run once its incoming connections have been settled, and to a skip if it does not. -/
theorem step_read_iff_decided (w : Workflow) (hedges : w.edgeIds.Nodup) {id : String} (hid : id ∈ w.nodeIds) :
    ∃ n, (Graph.ofWorkflow w).node? id = some n ∧
      (∀ e order lines, Program.lines e w (Graph.ofWorkflow w) order = .ok lines → id ∈ order →
        stepLines w (Graph.ofWorkflow w) n (identifierOf (identifiers order) id) <:+: lines) ∧
      ∀ identifier, ∃ body,
        stepLines w (Graph.ofWorkflow w) n identifier =
          "" :: "" :: ("async def step_" ++ identifier ++ "(state):") :: linesOf 1 body ∧
        ∀ (r : Run) (status : String → NodeStatus) (resolved : List String) (holds : String → Bool) (satisfied : Bool),
          r.graph = Graph.ofWorkflow w → (∀ s ∈ r.graph.sources id, s ∈ resolved) → r.GuardsAs holds id →
          ∃ runs, (resolved.foldl (fun r s => r.settleEdges s (status s)) r).decide id = .ok runs ∧
            (readAll ⟨false, status, holds⟩ ⟨satisfied, [], false⟩ body).acts =
              [if runs then .called id else .skipped id] := by
  obtain ⟨n, hn⟩ := Graph.node?_of_mem (Graph.mem_nodeIds_ofWorkflow.2 hid)
  refine ⟨n, hn, fun e order lines hlines horder => stepLines_infix hlines horder hn, fun identifier => ?_⟩
  refine ⟨stepStatements w (Graph.ofWorkflow w) n identifier, rfl, ?_⟩
  intro r status resolved holds satisfied hgraph hresolved hguards
  have hnodup : (r.graph.edges.map Edge.id).Nodup := by
    rw [hgraph]
    exact hedges.sublist (List.filter_sublist.map _)
  set settled := resolved.foldl (fun r s => r.settleEdges s (status s)) r with hsettled
  have hsame : settled.graph = r.graph := graph_foldl_settleEdges status resolved
  have hscope : settled.scope = r.scope := scope_foldl_settleEdges status resolved
  have hstate : ∀ e ∈ settled.graph.incoming id, settled.edgeState e = EdgeState.after e (status e.source) := by
    rw [hsame]
    intro e he
    obtain ⟨he, htarget⟩ := List.mem_filter.1 he
    have hsource : e.source ∈ r.graph.sources id := Graph.mem_sources.2 ⟨e, he, rfl, by simpa using htarget⟩
    exact edgeState_foldl_settleEdges hnodup status resolved he (hresolved _ hsource)
  have hguards' : settled.GuardsAs holds id :=
    ⟨by rw [hsame, hscope]; exact hguards.edges, by rw [hsame, hscope]; exact hguards.node⟩
  obtain ⟨runs, hruns, hread⟩ :=
    decide_read (c := ⟨false, status, holds⟩) (by rw [hsame, hgraph, hn]) ⟨satisfied, [], false⟩ rfl hstate hguards'
  rw [hsame, hgraph] at hread
  refine ⟨runs, hruns, ?_⟩
  exact acts_stepStatements (c := ⟨false, status, holds⟩) rfl rfl (Graph.node?_some_id hn) hread

def join : Workflow where
  id := "join"
  name := "Join"
  version := "1"
  nodes := [{ id := "in", type := .trigger, provider := "trigger", operation := "manual" },
    { id := "try", type := .action, provider := "core", operation := "noop" },
    { id := "out", type := .action, provider := "core", operation := "noop"
      condition := some { expression := some "True" } }]
  edges := [
    { id := "off", source := "in", target := "out", type := .conditional
      condition := some { enabled := false, expression := some "False" } },
    { id := "gate", source := "in", target := "out", type := .conditional
      condition := some { expression := some "False" } },
    { id := "rescue", source := "try", target := "out", type := .error }]

def joinStatus (id : String) : NodeStatus :=
  if id = "in" then .success else .failed

/-- One condition that does not hold is enough for a skip, also where other paths are satisfied. -/
theorem step_read_iff_decided_join :
    ∃ (n : Node) (r : Run) (body : List Statement), (join.edgeIds.Nodup ∧ "out" ∈ join.nodeIds ∧
        r.graph = Graph.ofWorkflow join ∧ (∀ s ∈ r.graph.sources "out", s ∈ ["in", "try"]) ∧
        r.GuardsAs (fun text => text = "True") "out") ∧
      stepLines join (Graph.ofWorkflow join) n "out" =
        "" :: "" :: ("async def step_" ++ "out" ++ "(state):") :: linesOf 1 body ∧
      (["in", "try"].foldl (fun r s => r.settleEdges s (joinStatus s)) r).decide "out" = .ok false ∧
      (readAll ⟨false, joinStatus, fun text => text = "True"⟩ ⟨false, [], false⟩ body).acts = [.skipped "out"] := by
  let r := Run.start join [] [] "run" ⟨0, none⟩
  have hedges : join.edgeIds.Nodup := by decide
  have hid : "out" ∈ join.nodeIds := by decide
  have hresolved : ∀ s ∈ r.graph.sources "out", s ∈ ["in", "try"] := fun s hs => hs
  have hguards : r.GuardsAs (fun text => text = "True") "out" := ⟨by decide +kernel, by decide +kernel⟩
  obtain ⟨n, -, -, hbody⟩ := step_read_iff_decided join hedges hid
  obtain ⟨body, hlines, hread⟩ := hbody "out"
  obtain ⟨runs, hruns, hacts⟩ := hread r joinStatus ["in", "try"] _ false rfl hresolved hguards
  have hskips :
      ((["in", "try"].foldl (fun r s => r.settleEdges s (joinStatus s)) r).decide "out").toOption = some false := by
    decide +kernel
  rw [hruns] at hskips
  obtain rfl := Option.some.inj hskips
  exact ⟨n, r, body, ⟨hedges, hid, rfl, hresolved, hguards⟩, hlines, hruns, hacts⟩

end Program

end Flowgraph
