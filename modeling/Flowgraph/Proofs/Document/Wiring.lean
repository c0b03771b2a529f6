import Flowgraph.Proofs.Document.Steps

/-! The wiring of a document. A connection is drawn as one link, or as two through a guard of its own,
or is dropped with a warning; and each guard has a name that nothing else has. -/

namespace Flowgraph.Document

open List (Perm)

/-! What becomes of a connection -/

def isDropped (r : Registry) (g : Graph) (e : Edge) : Bool :=
  e.type = .error && !(g.node? e.source).any r.hasErrorOutput

def isDirect (r : Registry) (g : Graph) (e : Edge) : Bool :=
  !isDropped r g e && e.guard?.isNone

def slotOf (e : Edge) : Slot :=
  if e.type = .error then .error else .main

def linkOf (name : String → String) (e : Edge) : Link :=
  ⟨name e.source, slotOf e, name e.target⟩

def detour (name : String → String) (own : Edge × String) : List Link :=
  [⟨name own.1.source, .main, own.2⟩, ⟨own.2, .main, name own.1.target⟩]

def drawn (r : Registry) (g : Graph) (name : String → String) (edges : List Edge)
    (own : List (Edge × String)) : List Link :=
  (edges.filter (isDirect r g)).map (linkOf name) ++ own.flatMap (detour name)

section
variable {r : Registry} {g : Graph} {e : Edge}

/-- Only a conditional connection has a guard. -/
theorem type_of_guard? {expression : String} (h : e.guard? = some expression) : e.type = .conditional := by
  unfold Edge.guard? at h
  split_ifs at h with htype
  exact htype

theorem isDropped_of_guard? {expression : String} (h : e.guard? = some expression) : isDropped r g e = false := by
  simp [isDropped, type_of_guard? h]

theorem slotOf_of_guard? {expression : String} (h : e.guard? = some expression) : slotOf e = .main := by
  simp [slotOf, type_of_guard? h]

theorem guard?_of_isDropped (h : isDropped r g e = true) : e.guard? = none := by
  cases hguard : e.guard? with
  | none => rfl
  | some expression => rw [isDropped_of_guard? hguard] at h; cases h

/-- A step has an error slot if its node has an error output. -/
theorem hasErrorSlot_eq {s : Step} (hform : r.externalForm? s.node = some s.form) :
    s.hasErrorSlot = r.hasErrorOutput s.node := by
  simp [Step.hasErrorSlot, Registry.hasErrorOutput, hform]

/-- The route of a connection by its type, its guard and its source. -/
theorem routeOf_cases {s : Step} (hnode : g.node? e.source = some s.node)
    (hform : r.externalForm? s.node = some s.form) :
    (isDropped r g e = true ∧ routeOf s e = .dropped) ∨
      (isDirect r g e = true ∧ routeOf s e = .direct (slotOf e)) ∨
      ∃ expression, e.guard? = some expression ∧ routeOf s e = .guarded expression := by
  have hslot := hasErrorSlot_eq hform
  by_cases htype : e.type = .error
  · have hguard : e.guard? = none := by simp [Edge.guard?, htype]
    cases hout : r.hasErrorOutput s.node with
    | false =>
      refine Or.inl ⟨?_, ?_⟩
      · simp [isDropped, htype, hnode, hout]
      · simp [routeOf, htype, hslot, hout]
    | true =>
      refine Or.inr (Or.inl ⟨?_, ?_⟩)
      · simp [isDirect, isDropped, hnode, hout, hguard]
      · simp [routeOf, slotOf, htype, hslot, hout]
  · cases hguard : e.guard? with
    | none =>
      refine Or.inr (Or.inl ⟨?_, ?_⟩)
      · simp [isDirect, isDropped, htype, hguard]
      · simp [routeOf, slotOf, htype, hguard]
    | some expression =>
      refine Or.inr (Or.inr ⟨expression, rfl, ?_⟩)
      simp [routeOf, htype, hguard]

end

/-! The steps that are wired -/

/-- Every node of a graph as a step, with the node of the document that stands for it. -/
structure Placed (r : Registry) (w : Workflow) (g : Graph) (pairs : List (Step × Node)) : Prop where
  nodup : (pairs.map fun p => p.1.node.id).Nodup
  mem : ∀ id, id ∈ pairs.map (fun p => p.1.node.id) ↔ id ∈ g.nodeIds
  nodup_names : (pairs.map fun p => p.2.name).Nodup
  node : ∀ p ∈ pairs, g.node? p.1.node.id = some p.1.node
  form : ∀ p ∈ pairs, r.externalForm? p.1.node = some p.1.form
  id : ∀ p ∈ pairs, p.2.id = p.1.node.id
  onError : ∀ p ∈ pairs, p.2.onError = onErrorOf w g p.1

def nameIn (pairs : List (Step × Node)) (id : String) : String :=
  ((pairs.find? fun p => p.1.node.id = id).map fun p => p.2.name).getD ""

section
variable {r : Registry} {w : Workflow} {g : Graph} {pairs : List (Step × Node)}

theorem Placed.find? (h : Placed r w g pairs) {id : String} (hid : id ∈ g.nodeIds) :
    ∃ p ∈ pairs, p.1.node.id = id ∧ pairs.find? (fun p => p.1.node.id = id) = some p ∧
      nameIn pairs id = p.2.name := by
  obtain ⟨q, hq, rfl⟩ := List.mem_map.1 ((h.mem id).2 hid)
  cases hfound : pairs.find? (fun p => p.1.node.id = q.1.node.id) with
  | none => exact absurd (List.find?_eq_none.1 hfound q hq) (by simp)
  | some p =>
    refine ⟨p, List.mem_of_find?_eq_some hfound, by simpa using List.find?_some hfound, rfl, ?_⟩
    rw [nameIn, hfound]
    rfl

theorem Placed.nameIn_eq (h : Placed r w g pairs) {p : Step × Node} (hp : p ∈ pairs) :
    nameIn pairs p.1.node.id = p.2.name := by
  obtain ⟨q, hq, hid, -, hname⟩ := h.find? ((h.mem _).1 (List.mem_map_of_mem hp))
  rw [hname, List.inj_on_of_nodup_map h.nodup hq hp hid]

/-- The names of the steps are those of their ids. -/
theorem Placed.names_eq (h : Placed r w g pairs) :
    pairs.map (fun p => p.2.name) = (pairs.map fun p => p.1.node.id).map (nameIn pairs) := by
  rw [List.map_map]
  exact List.map_congr_left fun p hp => (h.nameIn_eq hp).symm

/-- Names tell the nodes of the graph apart. -/
theorem Placed.nameIn_inj (h : Placed r w g pairs) {a b : String} (ha : a ∈ g.nodeIds) (hb : b ∈ g.nodeIds)
    (hab : nameIn pairs a = nameIn pairs b) : a = b := by
  have hnodup := h.nodup_names
  rw [h.names_eq] at hnodup
  exact List.inj_on_of_nodup_map hnodup ((h.mem a).2 ha) ((h.mem b).2 hb) hab

end

/-! Wiring -/

/-- What the wiring of some connections amounts to, where `own` lists the guarded ones, each with the name
of its guard, and `taken` the names of the steps. -/
structure Laid (r : Registry) (g : Graph) (name : String → String) (taken : List String) (edges : List Edge)
    (own : List (Edge × String)) (wiring : Wiring) : Prop where
  guarded : own.map Prod.fst = edges.filter fun e => e.guard?.isSome
  guards : wiring.guards.map (fun n => (n.id, n.name, n.onError)) =
    own.map fun o => (o.1.id ++ "-guard", o.2, none)
  links : Perm wiring.links (drawn r g name edges own)
  warnings : wiring.warnings = (edges.filter (isDropped r g)).map droppedWarning
  nodup : (taken ++ own.map Prod.snd).Nodup

section
variable {r : Registry} {g : Graph} {name : String → String} {taken : List String} {edges : List Edge}
  {own : List (Edge × String)} {wiring : Wiring} {e : Edge}

theorem Laid.names (h : Laid r g name taken edges own wiring) :
    wiring.guards.map Node.name = own.map Prod.snd := by
  have := congrArg (List.map fun x : String × String × Option OnError => x.2.1) h.guards
  simpa only [List.map_map, Function.comp_def] using this

/-- A guard has no error mode. -/
theorem Laid.onError_of_guard (h : Laid r g name taken edges own wiring) {n : Node} (hn : n ∈ wiring.guards) :
    n.onError = none := by
  have hguard : (n.id, n.name, n.onError) ∈ own.map fun o => (o.1.id ++ "-guard", o.2, none) := by
    rw [← h.guards]
    exact List.mem_map_of_mem hn
  obtain ⟨o, -, heq⟩ := List.mem_map.1 hguard
  exact (congrArg (fun x : String × String × Option OnError => x.2.2) heq).symm

theorem laid_nil (htaken : taken.Nodup) : Laid r g name taken [] [] {} where
  guarded := rfl
  guards := rfl
  links := Perm.refl _
  warnings := rfl
  nodup := by simpa using htaken

/-- A connection is drawn as one link. -/
theorem Laid.link (h : Laid r g name taken edges own wiring) (hdirect : isDirect r g e = true) :
    Laid r g name taken (edges ++ [e]) own (wiring.link (name e.source) (slotOf e) (name e.target)) := by
  simp only [isDirect, Bool.and_eq_true, Bool.not_eq_true', Option.isNone_iff_eq_none] at hdirect
  obtain ⟨hdropped, hguard⟩ := hdirect
  refine ⟨?_, h.guards, ?_, ?_, h.nodup⟩
  · simp [h.guarded, hguard]
  · have hone : [e].filter (isDirect r g) = [e] := by simp [isDirect, hdropped, hguard]
    have hmove : Perm (drawn r g name edges own ++ [linkOf name e]) (drawn r g name (edges ++ [e]) own) := by
      simp only [drawn, List.filter_append, hone, List.map_append, List.append_assoc]
      exact Perm.append_left _ (List.perm_append_singleton (linkOf name e) _)
    exact (h.links.append_right _).trans hmove
  · simpa [Wiring.link, hdropped] using h.warnings

/-- A connection is dropped. -/
theorem Laid.drop (h : Laid r g name taken edges own wiring) (hdropped : isDropped r g e = true) :
    Laid r g name taken (edges ++ [e]) own { wiring with warnings := wiring.warnings ++ [droppedWarning e] } where
  guarded := by simp [h.guarded, guard?_of_isDropped hdropped]
  guards := h.guards
  links := by simpa [drawn, isDirect, hdropped] using h.links
  warnings := by simp [h.warnings, hdropped]
  nodup := h.nodup

/-- A connection is drawn through a guard with a name that is free. -/
theorem Laid.guard (h : Laid r g name taken edges own wiring) {expression new : String} {guard : Node}
    (hguard : e.guard? = some expression) (hnew : new ∉ taken ++ own.map Prod.snd)
    (hnode : (guard.id, guard.name, guard.onError) = (e.id ++ "-guard", new, none)) :
    Laid r g name taken (edges ++ [e]) (own ++ [(e, new)])
      ((({ wiring with guards := wiring.guards ++ [guard] } : Wiring).link (name e.source) .main new).link new .main
        (name e.target)) := by
  have hdropped : isDropped r g e = false := isDropped_of_guard? hguard
  refine ⟨?_, ?_, ?_, ?_, ?_⟩
  · simp [h.guarded, hguard]
  · simp only [Wiring.link, List.map_append, h.guards, List.map_cons, List.map_nil, hnode]
  · have hnone : [e].filter (isDirect r g) = [] := by simp [isDirect, hguard]
    have hmove : drawn r g name (edges ++ [e]) (own ++ [(e, new)]) =
        drawn r g name edges own ++ detour name (e, new) := by
      simp [drawn, hnone]
    rw [hmove]
    simpa [Wiring.link, detour] using h.links.append_right (detour name (e, new))
  · simpa [Wiring.link, hdropped] using h.warnings
  · rw [List.map_append, ← List.append_assoc]
    exact List.Nodup.append h.nodup (List.nodup_singleton new) (by simpa using hnew)

end

section
variable {r : Registry} {w : Workflow} {g : Graph} {pairs : List (Step × Node)}

theorem guardOf_eq_ok {e : Edge} {expression new : String} {source target guard : Node}
    (h : guardOf e expression new source target = .ok guard) :
    (guard.id, guard.name, guard.onError) = (e.id ++ "-guard", new, none) := by
  unfold guardOf at h
  obtain ⟨x, -, h⟩ := bind_eq_ok.1 h
  obtain ⟨y, -, h⟩ := bind_eq_ok.1 h
  cases h
  rfl

/-- One connection is wired. -/
theorem Laid.wire (hp : Placed r w g pairs) {edges : List Edge} {own : List (Edge × String)} {e : Edge}
    {wiring wired : Wiring}
    (h : Laid r g (nameIn pairs) (pairs.map fun p => p.2.name) edges own wiring)
    (hsource : e.source ∈ g.nodeIds) (htarget : e.target ∈ g.nodeIds)
    (hwired : Document.wire pairs wiring e = .ok wired) :
    ∃ own, Laid r g (nameIn pairs) (pairs.map fun p => p.2.name) (edges ++ [e]) own wired := by
  obtain ⟨p, hpm, hpid, hpfound, hpname⟩ := hp.find? hsource
  obtain ⟨q, hqm, -, hqfound, hqname⟩ := hp.find? htarget
  have hnode : g.node? e.source = some p.1.node := by rw [← hpid]; exact hp.node p hpm
  simp only [Document.wire, hpfound, hqfound] at hwired
  rw [← hpname, ← hqname] at hwired
  rcases routeOf_cases hnode (hp.form p hpm) with ⟨hdropped, hroute⟩ | ⟨hdirect, hroute⟩ | ⟨x, hguard, hroute⟩
  · rw [hroute] at hwired
    cases hwired
    exact ⟨own, h.drop hdropped⟩
  · rw [hroute] at hwired
    cases hwired
    exact ⟨own, h.link hdirect⟩
  · rw [hroute, h.names] at hwired
    obtain ⟨guard, hnew, hwired⟩ := bind_eq_ok.1 hwired
    cases hwired
    exact ⟨_, h.guard hguard (freshName_not_mem (spelling_injective _)) (guardOf_eq_ok hnew)⟩

/-- The connections are wired one after the other. -/
theorem Laid.foldlM_wire (hp : Placed r w g pairs) {edges rest : List Edge} {own : List (Edge × String)}
    {wiring wired : Wiring}
    (h : Laid r g (nameIn pairs) (pairs.map fun p => p.2.name) edges own wiring)
    (hends : ∀ e ∈ rest, e.source ∈ g.nodeIds ∧ e.target ∈ g.nodeIds)
    (hwired : rest.foldlM (Document.wire pairs) wiring = .ok wired) :
    ∃ own, Laid r g (nameIn pairs) (pairs.map fun p => p.2.name) (edges ++ rest) own wired := by
  induction rest generalizing edges own wiring with
  | nil =>
    obtain rfl : wiring = wired := Except.ok.inj hwired
    exact ⟨own, by simpa using h⟩
  | cons e rest ih =>
    rw [List.foldlM_cons] at hwired
    obtain ⟨next, hnext, hwired⟩ := bind_eq_ok.1 hwired
    obtain ⟨hsource, htarget⟩ := hends e List.mem_cons_self
    obtain ⟨own', h'⟩ := h.wire hp hsource htarget hnext
    obtain ⟨own'', h''⟩ := ih h' (fun x hx => hends x (List.mem_cons_of_mem e hx)) hwired
    exact ⟨own'', by simpa using h''⟩

end

end Flowgraph.Document
