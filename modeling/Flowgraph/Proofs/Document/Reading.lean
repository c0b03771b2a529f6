import Flowgraph.Document
import Flowgraph.Proofs.Table
import Flowgraph.Proofs.Wire.Field

/-! Reading a written document back. Its nodes come back in order with their ids, names and error
modes, and its links all come back, grouped by the names and the slots that they leave. -/

namespace Flowgraph

open List (Perm)

/-! Written values -/

@[simp] theorem toWire_text (s : String) : (Value.text s).toWire = .text s := rfl

@[simp] theorem toWire_list (items : List Value) : (Value.list items).toWire = .list (items.map Value.toWire) := by
  change Value.list (itemsToWire items) = _
  congr 1
  induction items with
  | nil => rfl
  | cons v rest ih => rw [itemsToWire, ih, List.map_cons]

theorem toWire_object (fields : Fields) :
    (Value.object fields).toWire = .object (fields.map fun f => (f.1, f.2.toWire)) := by
  change Value.object (fieldsToWire fields) = _
  congr 1
  induction fields with
  | nil => rfl
  | cons f rest ih => rw [fieldsToWire, ih, List.map_cons]

@[simp] theorem field?_toWire_object (fields : Fields) (key : String) :
    (Value.object fields).toWire.field? key = (Table.get? fields key).map Value.toWire := by
  rw [toWire_object]
  change Table.get? (fields.map _) key = _
  induction fields with
  | nil => rfl
  | cons f rest ih => by_cases h : f.1 = key <;> simp [Table.get?, h, ih]

/-! Grouping -/

/-- Grouping by distinct keys keeps every occurrence. -/
theorem perm_flatMap_filter {α : Type} {key : α → String} {keys : List String} (hkeys : keys.Nodup)
    {items : List α} (hmem : ∀ a ∈ items, key a ∈ keys) :
    Perm (keys.flatMap fun k => items.filter fun a => key a = k) items := by
  induction keys generalizing items with
  | nil =>
    obtain rfl : items = [] := List.eq_nil_iff_forall_not_mem.2 fun a ha => by simpa using hmem a ha
    exact Perm.refl _
  | cons k rest ih =>
    obtain ⟨hk, hrest⟩ := List.nodup_cons.1 hkeys
    have hothers : ∀ a ∈ items.filter (fun a => !decide (key a = k)), key a ∈ rest := by
      intro a ha
      obtain ⟨ha, hne⟩ := List.mem_filter.1 ha
      exact (List.mem_cons.1 (hmem a ha)).resolve_left (by simpa using hne)
    have hgroups : (rest.flatMap fun j => items.filter fun a => key a = j) =
        rest.flatMap fun j => (items.filter fun a => !decide (key a = k)).filter fun a => key a = j := by
      refine List.flatMap_congr fun j hj => ?_
      have hjk : j ≠ k := fun h => hk (h ▸ hj)
      rw [List.filter_filter]
      refine List.filter_congr fun a _ => ?_
      by_cases ha : key a = j
      · simp [ha, hjk]
      · simp [ha]
    rw [List.flatMap_cons, hgroups]
    exact ((ih hrest hothers).append_left _).trans (List.filter_append_perm _ _)

namespace Table

variable {α : Type}

/-- A table of what a function gives for some keys. -/
structure Tabulates (f : String → α) (sources : List String) (t : Table α) : Prop where
  nodup : t.keys.Nodup
  mem : ∀ s ∈ sources, s ∈ t.keys
  value : ∀ entry ∈ t, entry.2 = f entry.1

theorem Tabulates.merge {f : String → α} {sources : List String} {t : Table α} (h : Tabulates f sources t)
    (new : List String) : Tabulates f (sources ++ new) (t.merge (new.map fun s => (s, f s))) := by
  induction new generalizing sources t with
  | nil => simpa [Table.merge] using h
  | cons a rest ih =>
    have hnext : Tabulates f (sources ++ [a]) (t.set a (f a)) := by
      refine ⟨nodup_keys_set h.nodup a (f a), fun s hs => ?_, fun entry hentry => ?_⟩
      · rcases List.mem_append.1 hs with hs | hs
        · exact mem_keys_set.2 (Or.inl (h.mem s hs))
        · exact mem_keys_set.2 (Or.inr (List.mem_singleton.1 hs))
      · rcases mem_set hentry with hentry | rfl
        · exact h.value entry hentry
        · rfl
    simpa [Table.merge] using ih hnext

theorem tabulates_ofPairs (f : String → α) (sources : List String) :
    Tabulates f sources (ofPairs (sources.map fun s => (s, f s))) := by
  have hnil : Tabulates f [] ([] : Table α) := ⟨List.nodup_nil, by simp, by simp⟩
  simpa [ofPairs] using hnil.merge sources

end Table

namespace Document

/-! What a reader finds -/

/-- A node as a reader sees it. -/
structure View where
  id : String
  name : String
  onError : Option String
  deriving DecidableEq, Repr

/-- A link as a reader sees it: from a slot of a name to a name. -/
structure Arrow where
  source : String
  slot : Nat
  target : String
  deriving DecidableEq, Repr

def textAt (v : Value) (key : String) : Option String :=
  (v.field? key).bind Value.text?

def itemsAt (v : Value) (key : String) : List Value :=
  ((v.field? key).bind Value.items?).getD []

def viewOf (v : Value) : Option View := do
  pure ⟨← textAt v "id", ← textAt v "name", textAt v "onError"⟩

def readNodes (v : Value) : List View :=
  (itemsAt v "nodes").filterMap viewOf

def readSlot (source : String) (slot : Nat) (targets : Value) : List Arrow :=
  (targets.items?.getD []).filterMap fun t => (textAt t "node").map fun target => ⟨source, slot, target⟩

def readSlots (source : String) (slots : Value) : List Arrow :=
  (itemsAt slots "main").zipIdx.flatMap fun p => readSlot source p.2 p.1

def readLinks (v : Value) : List Arrow :=
  (((v.field? "connections").bind Value.fields?).getD []).flatMap fun entry => readSlots entry.1 entry.2

/-! Reading back -/

def Node.view (n : Node) : View :=
  ⟨n.id, n.name, n.onError.map OnError.name⟩

def Link.arrow (l : Link) : Arrow :=
  ⟨l.source, l.slot.index, l.target⟩

theorem viewOf_toWire (n : Node) : viewOf n.toValue.toWire = some n.view := by
  have hid : textAt n.toValue.toWire "id" = some n.id := by
    simp [textAt, Node.toValue, Value.text?]
  have hname : textAt n.toValue.toWire "name" = some n.name := by
    simp [textAt, Node.toValue, Value.text?]
  have herror : textAt n.toValue.toWire "onError" = n.onError.map OnError.name := by
    cases herror : n.onError <;> simp [textAt, Node.toValue, Value.text?, herror]
  simp [viewOf, hid, hname, herror, Node.view]

theorem readNodes_toWire (d : Document) : readNodes d.toWire = d.nodes.map Node.view := by
  have hnodes : itemsAt d.toWire "nodes" = d.nodes.map fun n => n.toValue.toWire := by
    simp [itemsAt, toWire, Table.get?, Value.items?]
  rw [readNodes, hnodes, List.filterMap_map]
  exact (List.filterMap_congr fun n _ => viewOf_toWire n).trans (by simp)

def arrowsFrom (links : List Link) (source : String) : List Arrow :=
  (targetsIn links source .main).map (⟨source, 0, ·⟩) ++ (targetsIn links source .error).map (⟨source, 1, ·⟩)

theorem readSlot_toWire (source : String) (slot : Nat) (names : List String) :
    readSlot source slot (Value.list (names.map targetValue)).toWire = names.map (⟨source, slot, ·⟩) := by
  have htarget : ∀ name, textAt (targetValue name).toWire "node" = some name := fun name => by
    simp [targetValue, textAt, Table.get?, Value.text?]
  rw [readSlot, toWire_list, Value.items?, Option.getD_some, List.map_map, List.filterMap_map]
  rw [← List.filterMap_eq_map]
  refine List.filterMap_congr fun name _ => ?_
  simp [htarget]

theorem readSlots_toWire (links : List Link) (source : String) :
    readSlots source (slotsValue links source).toWire = arrowsFrom links source := by
  have hslots : ∀ used : List (List String),
      readSlots source (Value.object [("main", .list (used.map fun names => .list (names.map targetValue)))]).toWire =
        used.zipIdx.flatMap fun p => p.1.map (⟨source, p.2, ·⟩) := by
    intro used
    have hitems : itemsAt (Value.object [("main", .list (used.map fun names => .list (names.map targetValue)))]).toWire
        "main" = used.map fun names => (Value.list (names.map targetValue)).toWire := by
      simp [itemsAt, Table.get?, Value.items?]
    rw [readSlots, hitems, List.zipIdx_map, List.flatMap_map]
    exact List.flatMap_congr fun p _ => readSlot_toWire source p.2 p.1
  unfold slotsValue arrowsFrom
  simp only [hslots]
  by_cases hempty : (targetsIn links source .error).isEmpty
  · simp [List.isEmpty_iff.1 hempty]
  · simp [hempty]

/-- The links of a name are those that leave it by the one slot or by the other. -/
theorem perm_arrowsFrom (links : List Link) (source : String) :
    Perm (arrowsFrom links source) ((links.filter fun l => l.source = source).map Link.arrow) := by
  have hslot : ∀ slot : Slot, (targetsIn links source slot).map (⟨source, slot.index, ·⟩) =
      ((links.filter fun l => l.source = source).filter fun l => l.slot = slot).map Link.arrow := by
    intro slot
    rw [targetsIn, List.map_map, List.filter_filter]
    have hswap : ∀ l ∈ links, (decide (l.source = source) && decide (l.slot = slot)) =
        (decide (l.slot = slot) && decide (l.source = source)) := fun l _ => Bool.and_comm _ _
    rw [List.filter_congr hswap]
    refine List.map_congr_left fun l hl => ?_
    obtain ⟨hslot, hsource⟩ : l.slot = slot ∧ l.source = source := by simpa using (List.mem_filter.1 hl).2
    simp [Link.arrow, hslot, hsource]
  have herror : ∀ l ∈ links.filter (fun l => l.source = source),
      decide (l.slot = .error) = !decide (l.slot = .main) := by
    intro l _
    cases l.slot <;> rfl
  have harrows : arrowsFrom links source =
      ((links.filter fun l => l.source = source).filter fun l => l.slot = .main).map Link.arrow ++
        ((links.filter fun l => l.source = source).filter fun l => l.slot = .error).map Link.arrow := by
    rw [← hslot, ← hslot]
    rfl
  rw [harrows, List.filter_congr herror, ← List.map_append]
  exact (List.filter_append_perm _ _).map _

/-- All links come back, grouped by the names that they leave. -/
theorem perm_readLinks_toWire (d : Document) : Perm (readLinks d.toWire) (d.links.map Link.arrow) := by
  obtain ⟨hnodup, hmem, hvalue⟩ := Table.tabulates_ofPairs (slotsValue d.links) (d.links.map Link.source)
  rw [List.map_map] at hnodup hmem hvalue
  set table := Table.ofPairs (d.links.map ((fun s => (s, slotsValue d.links s)) ∘ Link.source)) with htable
  have hfield : ((d.toWire.field? "connections").bind Value.fields?).getD [] =
      table.map fun entry => (entry.1, entry.2.toWire) := by
    have hconnections : connectionsValue d.links = .object table := rfl
    have hget : d.toWire.field? "connections" = some (Value.object table).toWire := by
      simp [toWire, Table.get?, hconnections]
    rw [hget, toWire_object]
    rfl
  have hread : readLinks d.toWire = table.keys.flatMap (arrowsFrom d.links) := by
    rw [readLinks, hfield, List.flatMap_map, Table.keys, List.flatMap_map]
    refine List.flatMap_congr fun entry hentry => ?_
    rw [hvalue entry hentry, readSlots_toWire]
  rw [hread]
  calc
    Perm (table.keys.flatMap (arrowsFrom d.links))
        (table.keys.flatMap fun k => (d.links.filter fun l => l.source = k).map Link.arrow) :=
      List.Perm.flatMap_left _ fun k _ => perm_arrowsFrom d.links k
    _ = (table.keys.flatMap fun k => d.links.filter fun l => l.source = k).map Link.arrow :=
      List.map_flatMap.symm
    Perm _ (d.links.map Link.arrow) :=
      (perm_flatMap_filter hnodup fun l hl => hmem _ (List.mem_map_of_mem hl)).map _

end Document

end Flowgraph
