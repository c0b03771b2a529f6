import Flowgraph.Proofs.Validation.Cycle

/-! The search for cycles as a loop over colours: white nodes are not met, gray ones are on the path,
black ones are left. Each open node keeps the neighbours that it has still to look at. The gray nodes,
the path and the open nodes are the same at every moment, so that a gray neighbour closes a simple cycle;
and the loop comes to an end with the cycles that the recursive search finds. -/

namespace Flowgraph

open Relation (ReflTransGen)

/-- A way that comes back to its first node and meets no node twice before. -/
def SimpleCycle (leads : String → String → Prop) (p : List String) : Prop :=
  ∃ a inner, p = a :: inner ++ [a] ∧ (a :: inner).Nodup ∧ p.IsChain leads

inductive Color where
  | white | gray | black
  deriving DecidableEq

/-- A search under way. -/
structure Search where
  color : String → Color
  /-- The path, oldest node first. -/
  path : List String
  /-- The open nodes with the neighbours left to look at, newest node first. -/
  stack : List (String × List String)
  /-- The nodes left to start from. -/
  starts : List String
  reported : List (List String)

namespace Search

def paint (s : Search) (id : String) (c : Color) : Search :=
  { s with color := fun x => if x = id then c else s.color x }

def enter (g : Links) (s : Search) (id : String) : Search :=
  { s.paint id .gray with path := s.path ++ [id], stack := (id, g.after id) :: s.stack }

def leave (s : Search) (id : String) : Search :=
  { s.paint id .black with path := s.path.dropLast, stack := s.stack.tail }

def report (s : Search) (id : String) : Search :=
  if s.reported.contains (s.path.drop (s.path.idxOf id) ++ [id]) then s
  else { s with reported := s.reported ++ [s.path.drop (s.path.idxOf id) ++ [id]] }

def look (g : Links) (s : Search) (id : String) : Search :=
  match s.color id with
  | .white => s.enter g id
  | .gray => s.report id
  | .black => s

def startFrom (g : Links) (s : Search) (id : String) : Search :=
  if s.color id = .white then s.enter g id else s

def next (g : Links) (s : Search) : Option Search :=
  match s.stack, s.starts with
  | [], [] => none
  | [], id :: rest => some ({ s with starts := rest }.startFrom g id)
  | (current, []) :: _, _ => some (s.leave current)
  | (current, id :: rest) :: below, _ => some ({ s with stack := (current, rest) :: below }.look g id)

def start (g : Links) : Search :=
  { color := fun _ => .white, path := [], stack := [], starts := g.nodes, reported := [] }

def Runs (g : Links) : Search → Search → Prop :=
  ReflTransGen fun s t => s.next g = some t

structure Ends (g : Links) (s t : Search) : Prop where
  runs : Runs g s t
  halts : t.next g = none

/-! What holds at every moment -/

/-- The gray nodes are the path, the path is made of the open nodes, and what is reported are simple
cycles, each once. -/
structure Sound (g : Links) (s : Search) : Prop where
  gray : ∀ id, s.color id = .gray ↔ id ∈ s.path
  open_path : s.stack.map Prod.fst = s.path.reverse
  nodup : s.path.Nodup
  chain : s.path.IsChain g.Leads
  ahead : ∀ p ∈ s.stack, ∀ id ∈ p.2, g.Leads p.1 id
  simple : ∀ p ∈ s.reported, SimpleCycle g.Leads p
  once : s.reported.Nodup

section
variable {g : Links} {s t : Search} {id current : String} {rest : List String}
  {below : List (String × List String)}

theorem sound_start (g : Links) : (start g).Sound g where
  gray := by simp [start]
  open_path := rfl
  nodup := List.nodup_nil
  chain := List.isChain_nil
  ahead := by simp [start]
  simple := by simp [start]
  once := List.nodup_nil

/-- The newest node of the path is the newest open one. -/
theorem Sound.path_eq (h : s.Sound g) (hstack : s.stack = (current, rest) :: below) :
    s.path = (below.map Prod.fst).reverse ++ [current] := by
  have hrev := h.open_path
  rw [hstack, List.map_cons] at hrev
  rw [← List.reverse_reverse s.path, ← hrev, List.reverse_cons]

/-- A neighbour less to look at changes nothing. -/
theorem Sound.pass (h : s.Sound g) (hstack : s.stack = (current, id :: rest) :: below) :
    ({ s with stack := (current, rest) :: below } : Search).Sound g where
  gray := h.gray
  open_path := by simpa [hstack] using h.open_path
  nodup := h.nodup
  chain := h.chain
  ahead := by
    have hahead := h.ahead
    rw [hstack] at hahead
    intro p hp x hx
    rcases List.mem_cons.1 hp with rfl | hp
    · exact hahead (current, id :: rest) (List.mem_cons_self ..) x (List.mem_cons_of_mem _ hx)
    · exact hahead p (List.mem_cons_of_mem _ hp) x hx
  simple := h.simple
  once := h.once

theorem Sound.enter (h : s.Sound g) (hwhite : s.color id = .white) (hleads : ∀ a ∈ s.path.getLast?, g.Leads a id) :
    (s.enter g id).Sound g where
  gray := by
    intro x
    simp only [Search.enter, paint, List.mem_append, List.mem_singleton, ← h.gray]
    split_ifs with hx <;> simp [hx]
  open_path := by simp [Search.enter, paint, h.open_path]
  nodup := by
    have hnew : id ∉ s.path := by
      rw [← h.gray, hwhite]
      simp
    simpa [Search.enter] using h.nodup.append (List.nodup_singleton id) (by simpa using hnew)
  chain := by
    refine List.IsChain.append h.chain (List.isChain_singleton id) fun a ha b hb => ?_
    obtain rfl : id = b := by simpa using hb
    exact hleads a ha
  ahead := by
    intro p hp x hx
    rcases List.mem_cons.1 hp with rfl | hp
    · exact Links.mem_after.1 hx
    · exact h.ahead p hp x hx
  simple := h.simple
  once := h.once

theorem Sound.leave (h : s.Sound g) (hstack : s.stack = (current, rest) :: below) : (s.leave current).Sound g := by
  have hpath := h.path_eq hstack
  have hnodup := h.nodup
  have hchain := h.chain
  rw [hpath] at hnodup hchain
  have hcurrent : current ∉ (below.map Prod.fst).reverse :=
    fun hmem => List.disjoint_of_nodup_append hnodup hmem (List.mem_singleton_self _)
  have hleft : (s.leave current).path = (below.map Prod.fst).reverse := by
    simp [Search.leave, hpath]
  refine ⟨fun x => ?_, ?_, ?_, ?_, fun p hp => ?_, h.simple, h.once⟩
  · have hgray := h.gray x
    rw [hleft]
    simp only [hpath, List.mem_append, List.mem_singleton] at hgray
    simp only [Search.leave, paint]
    split_ifs with hx
    · rw [hx]
      simpa using hcurrent
    · rw [hgray]
      simp [hx]
  · rw [hleft, List.reverse_reverse]
    simp [Search.leave, hstack]
  · rw [hleft]
    exact hnodup.of_append_left
  · rw [hleft]
    exact hchain.left_of_append
  · exact h.ahead p (List.mem_of_mem_tail hp)

/-- A gray neighbour of the newest node closes a simple cycle. -/
theorem Sound.closes (h : s.Sound g) (hgray : s.color id = .gray) (hleads : ∀ a ∈ s.path.getLast?, g.Leads a id) :
    SimpleCycle g.Leads (s.path.drop (s.path.idxOf id) ++ [id]) := by
  have hmem := (h.gray id).1 hgray
  have hlt := List.idxOf_lt_length_of_mem hmem
  have hdrop : s.path.drop (s.path.idxOf id) = id :: s.path.drop (s.path.idxOf id + 1) := by
    rw [List.drop_eq_getElem_cons hlt, List.getElem_idxOf]
  have hsuffix : s.path.drop (s.path.idxOf id) <:+ s.path := List.drop_suffix _ _
  refine ⟨id, s.path.drop (s.path.idxOf id + 1), by rw [hdrop], ?_, ?_⟩
  · rw [← hdrop]
    exact h.nodup.sublist hsuffix.sublist
  · refine List.IsChain.append (h.chain.suffix hsuffix) (List.isChain_singleton id) fun a ha b hb => ?_
    obtain rfl : id = b := by simpa using hb
    refine hleads a ?_
    rw [List.getLast?_drop, if_neg (by omega)] at ha
    exact ha

theorem Sound.report (h : s.Sound g) (hgray : s.color id = .gray) (hleads : ∀ a ∈ s.path.getLast?, g.Leads a id) :
    (s.report id).Sound g := by
  unfold Search.report
  split_ifs with hnew
  · exact h
  · refine ⟨h.gray, h.open_path, h.nodup, h.chain, h.ahead, fun p hp => ?_, ?_⟩
    · rcases List.mem_append.1 hp with hp | hp
      · exact h.simple p hp
      · rw [List.mem_singleton.1 hp]
        exact h.closes hgray hleads
    · exact h.once.append (List.nodup_singleton _) (by simpa using hnew)

theorem Sound.next (h : s.Sound g) (hnext : s.next g = some t) : t.Sound g := by
  unfold Search.next at hnext
  split at hnext
  · cases hnext
  · next id rest hstack _ =>
    have hempty : s.path = [] := by simpa [hstack] using h.open_path
    have hrest : ({ s with starts := rest } : Search).Sound g :=
      ⟨h.gray, h.open_path, h.nodup, h.chain, h.ahead, h.simple, h.once⟩
    obtain rfl := Option.some.inj hnext
    unfold startFrom
    split_ifs with hwhite
    · exact hrest.enter hwhite (by simp [hempty])
    · exact hrest
  · next current below hstack =>
    obtain rfl := Option.some.inj hnext
    exact h.leave hstack
  · next current id rest below hstack =>
    have hpass := h.pass hstack
    have hlast : ∀ a ∈ s.path.getLast?, g.Leads a id := by
      intro a ha
      rw [h.path_eq hstack, List.getLast?_concat] at ha
      obtain rfl := Option.some.inj ha
      exact h.ahead (_, id :: rest) (by simp [hstack]) id (List.mem_cons_self ..)
    obtain rfl := Option.some.inj hnext
    unfold look
    split
    · next hwhite => exact hpass.enter hwhite hlast
    · next hgray => exact hpass.report hgray hlast
    · exact hpass

theorem Sound.runs (h : s.Sound g) (hruns : Runs g s t) : t.Sound g := by
  induction hruns with
  | refl => exact h
  | tail _ hnext ih => exact ih.next hnext

end

/-! The loop does what the recursion does -/

/-- The loop while the recursive search stands at a way, newest node first. -/
def moment (way : List String) (c : CycleSearch) (stack : List (String × List String)) (starts : List String) :
    Search :=
  { color := fun x => if x ∈ way then .gray else if x ∈ c.left then .black else .white
    path := way.reverse, stack, starts, reported := c.found }

section
variable {g : Links} {way earlier starts : List String} {c : CycleSearch} {id current : String}
  {stack below : List (String × List String)} {p : String × List String}

theorem color_moment : (moment way c stack starts).color id =
    if id ∈ way then .gray else if id ∈ c.left then .black else .white := rfl

theorem enter_moment : (moment way c stack starts).enter g id =
    moment (id :: way) c ((id, g.after id) :: stack) starts := by
  simp only [enter, paint, moment, List.reverse_cons, Search.mk.injEq, and_true]
  funext x
  by_cases hx : x = id <;> simp [hx]

theorem leave_moment (hnodup : (current :: earlier).Nodup) :
    (moment (current :: earlier) c (p :: below) starts).leave current =
      moment earlier { c with left := current :: c.left } below starts := by
  have hnew := (List.nodup_cons.1 hnodup).1
  simp only [leave, paint, moment, List.reverse_cons, List.dropLast_concat, List.tail_cons, Search.mk.injEq,
    and_true]
  funext x
  by_cases hx : x = current
  · simp [hx, hnew]
  · simp [hx]

/-- The part of the path that a node closes. -/
theorem drop_idxOf_reverse (hnodup : way.Nodup) (hmem : id ∈ way) :
    way.reverse.drop (way.reverse.idxOf id) ++ [id] = CycleSearch.closing id way := by
  obtain ⟨after, before, rfl, hafter⟩ := List.eq_append_cons_of_mem hmem
  have hbefore : id ∉ before := by
    intro hid
    exact (List.nodup_cons.1 hnodup.of_append_right).1 hid
  have htake : (after ++ id :: before).takeWhile (· ≠ id) = after := by
    rw [List.takeWhile_append_of_pos]
    · simp
    · intro x hx
      have : x ≠ id := by
        rintro rfl
        exact hafter hx
      simpa using this
  have hidx : (before.reverse ++ id :: after.reverse).idxOf id = before.reverse.length := by
    rw [List.idxOf_append_of_notMem (by simpa using hbefore)]
    simp
  rw [CycleSearch.closing, htake]
  simp only [List.reverse_append, List.reverse_cons, List.append_assoc, List.singleton_append]
  rw [hidx, List.drop_left]

theorem report_moment (hnodup : way.Nodup) (hmem : id ∈ way) : (moment way c stack starts).report id =
    moment way (c.record (CycleSearch.closing id way)) stack starts := by
  have hpath : (moment way c stack starts).path = way.reverse := rfl
  have hreported : (moment way c stack starts).reported = c.found := rfl
  simp only [report, CycleSearch.record, hpath, hreported, drop_idxOf_reverse hnodup hmem]
  split_ifs <;> rfl

end

end Search

namespace CycleSearch

open Search

/-- The loop follows the recursive search: at a way, it looks at all that the newest node leads to and
leaves the node. -/
theorem runs_visit {g : Links} (hg : g.WellFormed) (steps : Nat) (current : String) (earlier : List String)
    (hnodup : (current :: earlier).Nodup) (hnodes : ∀ id ∈ current :: earlier, id ∈ g.nodes)
    (hsteps : g.nodes.length < steps + (current :: earlier).length) (c : CycleSearch)
    (stack : List (String × List String)) (starts : List String) :
    Runs g (moment (current :: earlier) c ((current, g.after current) :: stack) starts)
      (moment earlier (visit g steps (current :: earlier) c) stack starts) := by
  induction steps generalizing current earlier c stack with
  | zero =>
    have hle := (List.subperm_of_subset hnodup hnodes).length_le
    omega
  | succ steps ih =>
    -- the neighbours one by one, each a step and, when it is white, the whole search from it
    have hlooks : ∀ (ids : List String) (c : CycleSearch), (∀ id ∈ ids, g.Leads current id) →
        Runs g (moment (current :: earlier) c ((current, ids) :: stack) starts)
          (moment (current :: earlier) (ids.foldl (follow g steps (current :: earlier)) c)
            ((current, []) :: stack) starts) := by
      intro ids
      induction ids with
      | nil => exact fun c _ => .refl
      | cons id rest ihrest =>
        intro c hids
        have hlead := hids id (List.mem_cons_self ..)
        refine ReflTransGen.trans (.head (b := (moment (current :: earlier) c ((current, rest) :: stack)
          starts).look g id) rfl ?_) (ihrest _ fun x hx => hids x (List.mem_cons_of_mem _ hx))
        unfold follow
        split_ifs with hclosed hleft
        · have hmem : id ∈ current :: earlier := by simpa using hclosed
          have hgray : (moment (current :: earlier) c ((current, rest) :: stack) starts).color id = .gray := by
            rw [color_moment, if_pos hmem]
          rw [look, hgray, report_moment hnodup hmem]
        · have hnew : id ∉ current :: earlier := by simpa using hclosed
          have hblack : (moment (current :: earlier) c ((current, rest) :: stack) starts).color id = .black := by
            rw [color_moment, if_neg hnew, if_pos (by simpa using hleft)]
          rw [look, hblack]
        · have hnew : id ∉ current :: earlier := by simpa using hclosed
          have hwhite : (moment (current :: earlier) c ((current, rest) :: stack) starts).color id = .white := by
            rw [color_moment, if_neg hnew, if_neg (by simpa using hleft)]
          rw [look, hwhite, enter_moment]
          refine ih id (current :: earlier) (List.nodup_cons.2 ⟨hnew, hnodup⟩) (fun x hx => ?_) ?_ c _
          · rcases List.mem_cons.1 hx with rfl | hx
            · exact (hg _ _ hlead).2
            · exact hnodes x hx
          · simp only [List.length_cons] at hsteps ⊢
            omega
    rw [visit_succ]
    refine (hlooks (g.after current) c fun id hid => Links.mem_after.1 hid).tail ?_
    rw [← leave_moment hnodup]
    rfl

end CycleSearch

namespace Search

/-- The loop ends with the cycles that the recursive search finds. -/
theorem ends_start {g : Links} (hg : g.WellFormed) : ∃ t, Ends g (start g) t ∧ t.reported = g.cycles := by
  have hall : ∀ (ids : List String) (c : CycleSearch), (∀ id ∈ ids, id ∈ g.nodes) →
      Runs g (moment [] c [] ids)
        (moment [] (ids.foldl (fun s id =>
          if s.left.contains id then s else CycleSearch.visit g g.nodes.length [id] s) c) [] []) := by
    intro ids
    induction ids with
    | nil => exact fun c _ => .refl
    | cons id rest ih =>
      intro c hids
      refine ReflTransGen.trans (.head (b := (moment [] c [] rest).startFrom g id) rfl ?_)
        (ih _ fun x hx => hids x (List.mem_cons_of_mem _ hx))
      beta_reduce
      by_cases hleft : id ∈ c.left
      · have hblack : (moment [] c [] rest).color id ≠ .white := by simp [color_moment, hleft]
        rw [startFrom, if_neg hblack, if_pos (by simpa using hleft)]
      · have hwhite : (moment [] c [] rest).color id = .white := by simp [color_moment, hleft]
        rw [startFrom, if_pos hwhite, if_neg (by simpa using hleft), enter_moment]
        refine CycleSearch.runs_visit hg _ id [] (List.nodup_singleton id) (fun x hx => ?_) ?_ c [] rest
        · rw [List.mem_singleton.1 hx]
          exact hids id (List.mem_cons_self ..)
        · rw [List.length_singleton]
          omega
  have hstart : start g = moment [] {} [] g.nodes := by
    simp [start, moment]
  refine ⟨moment [] (g.nodes.foldl _ {}) [] [], ⟨?_, rfl⟩, rfl⟩
  rw [hstart]
  exact hall g.nodes {} fun _ => id

end Search

namespace Links

/-- Every cycle that is found is simple, and none is found twice. -/
theorem cycles_simple {g : Links} (hg : g.WellFormed) :
    (∀ p ∈ g.cycles, SimpleCycle g.Leads p) ∧ g.cycles.Nodup := by
  obtain ⟨t, ht, hcycles⟩ := Search.ends_start hg
  have hsound := (Search.sound_start g).runs ht.runs
  rw [← hcycles]
  exact ⟨hsound.simple, hsound.once⟩

end Links

end Flowgraph
