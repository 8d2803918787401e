import SharedScene.Proofs.Scene.Children
import SharedScene.Proofs.Scene.SameTree
import SharedScene.Scene.Arena.Store

/-!
# An arena that stores a forest

An arena **stores** a forest when each of its tables says what follows from the forest: the nodes
are the records, the roots the topmost level, and the index leads from each path to the id that
stands there and back (`Arena.Stores`). A forest is stored in one way only (`Stores.unique`), and
what is asked of the tables has the answer that the forest gives.

The index is checked from one side. When its two directions are inverse to each other, and the paths
of the ids are right, the ids at the paths are right as well (`Stores.of_inverse`).
-/

namespace SharedScene

namespace Forest

variable {f : Forest} {q : Path} {siblings children : Forest} {item : Item} {id : InstanceId}

/-- The children at the path of a node are the node's. -/
theorem childrenAt?_of_find? (h : f.find? q = some (item, children)) :
    f.childrenAt? q = some children := by
  cases q with
  | nil =>
    rw [find?_root] at h
    cases h
  | cons n q => rw [childrenAt?_cons, h, Option.map_some]

/-- The list of the parent at a path. -/
theorem WellFormed.childIds_of_childrenAt? (h : f.WellFormed)
    (hq : f.childrenAt? q = some siblings) : f.childIds (f.idAt? q) = siblings.topIds := by
  rw [h.childIds_eq_map, rowsUnder_of_childrenAt? (WellFormed.nodup_ids h) hq, List.map_map]
  rfl

/-- The record of one of the children at a path. -/
theorem WellFormed.instance?_of_mem_items (h : f.WellFormed)
    (hq : f.childrenAt? q = some siblings) (hitem : item ∈ siblings.items) :
    f.instance? item.id =
      some (item.toInstance (f.idAt? q) (f.childIds (some item.id))) := by
  have hrow := h.placed?_eq_some_iff.mpr ⟨(h.mem_items_iff hq).mp hitem, rfl⟩
  rw [h.instance?_eq, show f.placed? item.id = _ from hrow]
  rfl

/-- Who has a record has a path. -/
theorem WellFormed.isSome_pathOf?_iff_isSome_instance? (h : f.WellFormed) :
    (pathOf? id f).isSome ↔ (f.instance? id).isSome :=
  isSome_pathOf?_iff.trans h.isSome_instance?_iff.symm

end Forest

namespace Arena

open Forest (pathOf? topIds)

variable {a b : Arena} {f : Forest} {id x : InstanceId} {parent : Option InstanceId} {p q : Path}

/-! ## What is written -/

section Writing

variable {change : Instance → Instance} {rewrite : List InstanceId → List InstanceId}

theorem get?_nodes_modify (change : Instance → Instance) (a : Arena) (id x : InstanceId) :
    (a.modify change id).nodes.get? x =
      (a.nodes.get? x).map fun node => if x = id then change node else node := by
  unfold modify
  split
  · next node hnode =>
    rw [SortedMap.get?_insert]
    split
    · next hx => rw [hx, hnode, Option.map_some]
    · rw [Option.map_id']
  · next hnone =>
    by_cases hx : x = id
    · rw [hx, hnone, Option.map_none]
    · simp only [if_neg hx, Option.map_id']

@[simp] theorem roots_modify : (a.modify change id).roots = a.roots := by
  unfold modify
  split <;> rfl

@[simp] theorem paths_modify : (a.modify change id).paths = a.paths := by
  unfold modify
  split <;> rfl

@[simp] theorem ids_modify : (a.modify change id).ids = a.ids := by
  unfold modify
  split <;> rfl

theorem get?_nodes_withChildren (rewrite : List InstanceId → List InstanceId) (a : Arena)
    (parent : Option InstanceId) (x : InstanceId) :
    (a.withChildren rewrite parent).nodes.get? x = (a.nodes.get? x).map fun node =>
      if parent = some x then { node with children := rewrite node.children } else node := by
  cases parent with
  | none => simp only [withChildren, reduceCtorEq, if_false, Option.map_id']
  | some id => simp only [withChildren, get?_nodes_modify, Option.some.injEq, eq_comm]

theorem roots_withChildren (rewrite : List InstanceId → List InstanceId) (a : Arena)
    (parent : Option InstanceId) :
    (a.withChildren rewrite parent).roots = if parent = none then rewrite a.roots else a.roots := by
  cases parent with
  | none => rfl
  | some id => exact roots_modify

@[simp] theorem paths_withChildren : (a.withChildren rewrite parent).paths = a.paths := by
  cases parent with
  | none => rfl
  | some id => exact paths_modify

@[simp] theorem ids_withChildren : (a.withChildren rewrite parent).ids = a.ids := by
  cases parent with
  | none => rfl
  | some id => exact ids_modify

end Writing

/-! ## Storing a forest -/

/-- A record decides which children are listed. -/
theorem children_of_node (h : a.nodes.get? id = f.instance? id) :
    a.children (some id) = f.childIds (some id) := by
  cases hrecord : f.instance? id with
  | none => simp only [Arena.children, Forest.childIds, h, hrecord]
  | some r => simp only [Arena.children, Forest.childIds, h, hrecord]

/-- There are as many nodes as ids. -/
theorem size_eq (nodup : f.ids.Nodup) (h : ∀ id, (a.nodes.get? id).isSome ↔ id ∈ f.ids) :
    a.size = f.size := by
  rw [← Forest.length_ids, ← (SortedMap.keys_perm nodup h).length_eq]
  exact (List.length_map ..).symm

/-- The two directions of the index are inverse to each other. -/
def Inverse (a : Arena) : Prop := ∀ p id, a.paths.get? p = some id ↔ a.ids.get? id = some p

/-- The tables say what follows from a forest. -/
structure Stores (a : Arena) (f : Forest) : Prop where
  node : ∀ id, a.nodes.get? id = f.instance? id
  roots : a.roots = f.topIds
  path : ∀ id, a.ids.get? id = pathOf? id f
  id : ∀ p, a.paths.get? p = f.idAt? p

theorem Stores.of_inverse (hf : f.WellFormed) (hnode : ∀ id, a.nodes.get? id = f.instance? id)
    (hroots : a.roots = f.topIds) (hpath : ∀ id, a.ids.get? id = pathOf? id f)
    (hinverse : a.Inverse) : a.Stores f where
  node := hnode
  roots := hroots
  path := hpath
  id p := Option.ext fun id => by rw [hinverse, hpath, hf.pathOf?_eq_some_iff]

theorem stores_empty : empty.Stores .nil where
  node _ := rfl
  roots := rfl
  path _ := rfl
  id _ := rfl

namespace Stores

theorem inverse (h : a.Stores f) (hf : f.WellFormed) : a.Inverse := fun p id => by
  rw [h.id, h.path, hf.pathOf?_eq_some_iff]

/-- A forest is stored in one way. -/
theorem unique (ha : a.Stores f) (hb : b.Stores f) : a = b := by
  obtain ⟨nodes, roots, paths, ids⟩ := a
  obtain ⟨nodes', roots', paths', ids'⟩ := b
  have hnodes : nodes = nodes' := SortedMap.ext_get? fun x => (ha.node x).trans (hb.node x).symm
  have hroots : roots = roots' := ha.roots.trans hb.roots.symm
  have hpaths : paths = paths' := SortedMap.ext_get? fun p => (ha.id p).trans (hb.id p).symm
  have hids : ids = ids' := SortedMap.ext_get? fun x => (ha.path x).trans (hb.path x).symm
  rw [hnodes, hroots, hpaths, hids]

theorem children (h : a.Stores f) (parent : Option InstanceId) :
    a.children parent = f.childIds parent := by
  cases parent with
  | none => exact h.roots
  | some id => exact children_of_node (h.node id)

theorem parentPath? (h : a.Stores f) (parent : Option InstanceId) :
    a.parentPath? parent = f.parentPath? parent := by
  cases parent with
  | none => rfl
  | some id => exact h.path id

/-- What stands at a path as a parent is there exactly when children can stand below. -/
theorem parentAt? (h : a.Stores f) (p : Path) :
    a.parentAt? p = (f.childrenAt? p).map fun _ => f.idAt? p := by
  cases p with
  | nil =>
    show some none = some (f.idAt? [])
    rw [Forest.idAt?, Forest.find?_root]
    rfl
  | cons n p =>
    show (a.paths.get? (n :: p)).map some = _
    rw [h.id, Forest.childrenAt?_cons, Forest.idAt?]
    cases f.find? (n :: p) with
    | none => rfl
    | some node => rfl

/-- The names of the children at a path. -/
theorem siblingNames (h : a.Stores f) (hf : f.WellFormed) {siblings : Forest}
    (hq : f.childrenAt? q = some siblings) (except : Option InstanceId) :
    a.siblingNames (f.idAt? q) except =
      (siblings.items.filter fun item => decide (some item.id ≠ except)).map (·.name) := by
  unfold Arena.siblingNames
  rw [h.children, hf.childIds_of_childrenAt? hq, topIds, List.filter_map, List.filterMap_map]
  refine List.filterMap_eq_map_iff_forall_eq_some.mpr fun item hitem => ?_
  have hrecord := hf.instance?_of_mem_items hq (List.mem_filter.mp hitem).1
  show (a.nodes.get? item.id).map (·.name) = _
  rw [h.node, hrecord]
  rfl

theorem siblingNames_none (h : a.Stores f) (hf : f.WellFormed) {siblings : Forest}
    (hq : f.childrenAt? q = some siblings) :
    a.siblingNames (f.idAt? q) none = siblings.names := by
  rw [h.siblingNames hf hq, List.filter_eq_self.mpr fun item _ => decide_eq_true nofun]
  rfl

theorem siblingNames_some (h : a.Stores f) (hf : f.WellFormed)
    (hq : (f.childrenAt? q).isSome) (id : InstanceId) :
    a.siblingNames (f.idAt? q) (some id) = Store.siblingNames f q id := by
  obtain ⟨siblings, hq⟩ := Option.isSome_iff_exists.mp hq
  rw [h.siblingNames hf hq, Store.siblingNames, hq]
  simp only [ne_eq, Option.some.injEq]

theorem size (h : a.Stores f) (hf : f.WellFormed) : a.size = f.size :=
  size_eq (Forest.WellFormed.nodup_ids hf) fun id => by rw [h.node, hf.isSome_instance?_iff]

/-- The record of an id, by its row. -/
theorem node_eq (h : a.Stores f) (hf : f.WellFormed) (id : InstanceId) :
    a.nodes.get? id = (f.placed? id).map fun row =>
      row.item.toInstance row.parent (f.childIds (some id)) :=
  (h.node id).trans (hf.instance?_eq id)

/-- Whether an id is taken. -/
theorem contains_nodes (h : a.Stores f) (hf : f.WellFormed) (id : InstanceId) :
    a.nodes.contains id = (pathOf? id f).isSome := by
  rw [SortedMap.contains, h.node, Bool.eq_iff_iff]
  exact hf.isSome_pathOf?_iff_isSome_instance?.symm

end Stores

end Arena

end SharedScene
