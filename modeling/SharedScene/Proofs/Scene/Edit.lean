import SharedScene.Proofs.Name.Free
import SharedScene.Proofs.Scene.Lookup
import SharedScene.Scene.Store

/-!
# What keeps a forest well-formed

An operation on a path keeps a forest well-formed when the slot that it fills is free: no other
instance has the name under the parent. Then it changes the row of one id, and says nothing about
any other. A resolved name is such a name, for a new instance (`slot_free_of_not_mem_names`) and for
one that is there already (`slot_free_of_not_mem_siblings`).
-/

namespace SharedScene.Forest

variable {f : Forest} {p q : Path} {item new : Item} {children siblings : Forest} {name : String}

/-! ## Free slots -/

/-- A name that no child has is free for a new child. -/
theorem WellFormed.slot_free_of_not_mem_names (h : f.WellFormed)
    (hq : f.childrenAt? q = some siblings) (hname : name ∉ siblings.names) :
    ∀ row ∈ f.table, row.slot ≠ (f.idAt? q, name) := by
  intro row hrow heq
  obtain ⟨hparent, hitem⟩ := Prod.ext_iff.mp heq
  have hmem : row.item ∈ siblings.items := (h.mem_items_iff hq).mpr (by
    rw [← show row.parent = f.idAt? q from hparent]
    exact hrow)
  refine hname ?_
  rw [← show row.item.name = name from hitem]
  exact List.mem_map_of_mem hmem

/-- A name that no other child has is free for an instance. -/
theorem WellFormed.slot_free_of_not_mem_siblings (h : f.WellFormed) {id : InstanceId}
    (hq : (f.childrenAt? q).isSome) (hname : name ∉ Store.siblingNames f q id) :
    ∀ row ∈ f.table, row.slot = (f.idAt? q, name) → row.id = id := by
  intro row hrow heq
  obtain ⟨siblings, hsiblings⟩ := Option.isSome_iff_exists.mp hq
  obtain ⟨hparent, hitem⟩ := Prod.ext_iff.mp heq
  have hmem : row.item ∈ siblings.items := (h.mem_items_iff hsiblings).mpr (by
    rw [← show row.parent = f.idAt? q from hparent]
    exact hrow)
  by_contra hne
  refine hname ?_
  rw [Store.siblingNames, hsiblings, ← show row.item.name = name from hitem]
  exact List.mem_map_of_mem (List.mem_filter.mpr ⟨hmem, decide_eq_true hne⟩)

/-! ## The four operations -/

/-- A node taken out leaves a well-formed forest. -/
theorem WellFormed.remove (h : f.WellFormed) (hp : f.find? p = some (item, children)) :
    (f.remove p).WellFormed := by
  have hrows := Sound.perm h (table_remove hp).symm
  exact hrows.sublist ((List.sublist_append_right _ _).trans (List.sublist_cons_self _ _))

/-- A new instance in a free slot. -/
theorem WellFormed.graft (h : f.WellFormed) (hq : (f.childrenAt? q).isSome)
    (hid : new.id ∉ f.ids) (hslot : ∀ row ∈ f.table, row.slot ≠ (f.idAt? q, new.name))
    (hkeys : ∀ key ∈ new.properties.keys, isReservedKey key = false) :
    (Forest.graft (single new .nil) f q).WellFormed := by
  refine Sound.perm (Sound.cons_iff.mpr ⟨fun row hrow heq => ?_, hslot, hkeys, h⟩)
    (table_graft new hq)
  refine hid ?_
  rw [← show row.id = new.id from heq]
  exact mem_ids_of_mem hrow

/-- The id of a new instance was free. -/
theorem WellFormed.not_mem_ids_of_graft (hg : (Forest.graft (single new .nil) f q).WellFormed)
    (hq : (f.childrenAt? q).isSome) : new.id ∉ f.ids := by
  intro hmem
  obtain ⟨row, hrow, hid⟩ := exists_mem_of_mem_ids none hmem
  exact (Sound.cons_iff.mp (Sound.perm hg (table_graft new hq).symm)).1 row hrow hid

/-- A new instance leaves the rows of all others. -/
theorem WellFormed.placed?_graft_of_ne (hf : f.WellFormed)
    (hg : (Forest.graft (single new .nil) f q).WellFormed) (hq : (f.childrenAt? q).isSome)
    {id : InstanceId} (hid : id ≠ new.id) :
    (Forest.graft (single new .nil) f q).placed? id = f.placed? id := by
  refine Option.ext fun row => ?_
  rw [hg.placed?_eq_some_iff, hf.placed?_eq_some_iff, (table_graft new hq).mem_iff, List.mem_cons]
  constructor
  · rintro ⟨rfl | hrow, rfl⟩
    · exact absurd rfl hid
    · exact ⟨hrow, rfl⟩
  · exact fun ⟨hrow, hid⟩ => ⟨.inr hrow, hid⟩

theorem WellFormed.placed?_graft (hf : f.WellFormed)
    (hg : (Forest.graft (single new .nil) f q).WellFormed) (hq : (f.childrenAt? q).isSome)
    {id : InstanceId} (hid : id ∈ f.ids) :
    (Forest.graft (single new .nil) f q).placed? id = f.placed? id :=
  hf.placed?_graft_of_ne hg hq fun heq => hg.not_mem_ids_of_graft hq (heq ▸ hid)

/-- A row in place of another one of the same id, in a slot that no third one has. -/
theorem Sound.replace {rows : List Placed} {old r : Placed} (h : Sound (old :: rows))
    (hid : r.id = old.id) (hslot : ∀ s ∈ old :: rows, s.slot = r.slot → s.id = old.id)
    (hkeys : ∀ key ∈ r.item.properties.keys, isReservedKey key = false) :
    Sound (r :: rows) := by
  obtain ⟨hids, _, _, hrows⟩ := Sound.cons_iff.mp h
  refine Sound.cons_iff.mpr ⟨fun s hs => hid ▸ hids s hs, fun s hs heq => ?_, hkeys, hrows⟩
  exact hids s hs (hslot s (List.mem_cons_of_mem _ hs) heq)

/-- A changed item that keeps its id and its name. -/
theorem WellFormed.modify (h : f.WellFormed) {change : Item → Item}
    (hp : f.find? p = some (item, children)) (hid : (change item).id = item.id)
    (hname : (change item).name = item.name)
    (hkeys : ∀ key ∈ (change item).properties.keys, isReservedKey key = false) :
    (Forest.modify change f p).WellFormed := by
  have hrows := Sound.perm h (table_remove hp).symm
  refine Sound.perm (Sound.replace (r := ⟨f.idAt? p.parent, change item⟩) hrows hid
    (fun r hr heq => ?_) hkeys) (table_modify hp hid)
  have hslot : r.slot = Placed.slot ⟨f.idAt? p.dropLast, item⟩ := by
    rw [heq, Placed.slot, Placed.slot, hname]
    rfl
  rw [hrows.eq_of_slot_eq hr List.mem_cons_self hslot]

theorem WellFormed.placed?_modify (h : f.WellFormed) {change : Item → Item}
    (hp : f.find? p = some (item, children)) (hid : (change item).id = item.id)
    (hg : (Forest.modify change f p).WellFormed) (x : InstanceId) :
    (Forest.modify change f p).placed? x =
      if x = item.id then some ⟨f.idAt? p.parent, change item⟩ else f.placed? x :=
  WellFormed.placed?_of_edit h hg (table_remove hp) (table_modify hp hid) hid x

/-- An instance under a parent that is not below it, in a free slot. -/
theorem WellFormed.relocate (h : f.WellFormed) (hp : f.find? p = some (item, children))
    (hq : (f.childrenAt? q).isSome) (hpq : ¬ p <+: q)
    (hslot : ∀ row ∈ f.table, row.slot = (f.idAt? q, name) → row.id = item.id) :
    (f.relocate p q name).WellFormed := by
  have hrows := Sound.perm h (table_remove hp).symm
  refine Sound.perm (Sound.replace (r := ⟨f.idAt? q, item.renamed name⟩) hrows rfl
    (fun r hr heq => ?_) ?_) (table_relocate hp hq hpq name)
  · exact hslot r ((table_remove hp).mem_iff.mpr hr) heq
  · exact h.unreserved ⟨f.idAt? p.parent, item⟩ (mem_table_of_find? hp)

theorem WellFormed.placed?_relocate (h : f.WellFormed) (hp : f.find? p = some (item, children))
    (hq : (f.childrenAt? q).isSome) (hpq : ¬ p <+: q) (hg : (f.relocate p q name).WellFormed)
    (x : InstanceId) :
    (f.relocate p q name).placed? x =
      if x = item.id then some ⟨f.idAt? q, item.renamed name⟩ else f.placed? x :=
  WellFormed.placed?_of_edit h hg (table_remove hp) (table_relocate hp hq hpq name) rfl x

end SharedScene.Forest
