import SharedScene.Proofs.Scene.Arena.Walk
import SharedScene.Proofs.Success

/-!
# Tables that agree

What the tables say of an instance can be read off in several ways. It has a record; its parent
lists it; the index has its path, and has it under its path; a walk from the roots comes by; and its
own name, with those of its parent and of the parents above, **spells** a path, or would go on
forever (`Arena.Spells`). The tables are **consistent** when all these say the same
(`Arena.Consistent`).

Tables that store a well-formed forest are consistent (`Arena.Stores.consistent`), and a check of
consistent tables finds no fault (`Arena.Consistent.check_eq_ok`).
-/

namespace SharedScene.Arena

open Forest (pathOf?)

variable {a : Arena} {f : Forest} {id : InstanceId} {p : Path} {parent : Option InstanceId}

/-- The path that the names of an instance and of all those above it spell, from parent to parent up
to one that has none. -/
inductive Spells (a : Arena) : InstanceId → Path → Prop where
  | top {id : InstanceId} {node : Instance} (hnode : a.nodes.get? id = some node)
    (hparent : node.parent = none) : a.Spells id (Path.root.child node.name)
  | child {id parent : InstanceId} {node : Instance} {p : Path}
    (hnode : a.nodes.get? id = some node) (hparent : node.parent = some parent)
    (habove : a.Spells parent p) : a.Spells id (p.child node.name)

/-- Tables that say the same in all ways. -/
structure Consistent (a : Arena) : Prop where
  /-- A walk from the roots visits nothing twice, -/
  visits_once : (a.traverse.map Prod.snd).Nodup
  /-- and all that is stored. -/
  visits_all : ∀ id, id ∈ a.traverse.map Prod.snd ↔ (a.nodes.get? id).isSome
  /-- It ends by itself: were it not cut off, it would not go on. -/
  visits_end : ∀ budget, a.size ≤ budget → a.traverseWithin budget = a.traverse
  /-- All that is stored has a path, and nothing else has, -/
  indexed : ∀ id, (a.ids.get? id).isSome ↔ (a.nodes.get? id).isSome
  /-- by which it is found again. -/
  inverse : a.Inverse
  /-- The path is the one that the names above spell, -/
  spelled : ∀ id p, a.ids.get? id = some p ↔ a.Spells id p
  /-- and the one by which the walk comes. -/
  visited : ∀ id p, a.ids.get? id = some p ↔ (p, id) ∈ a.traverse
  /-- A record has the id under which it is stored. -/
  record_id : ∀ id node, a.nodes.get? id = some node → node.id = id
  /-- A parent lists what says that it is its parent, -/
  children_iff : ∀ parent id, id ∈ a.children parent ↔
    ∃ node, a.nodes.get? id = some node ∧ node.parent = parent
  /-- each once, -/
  children_nodup : ∀ parent, (a.children parent).Nodup
  /-- and no two of one name. -/
  names_distinct : ∀ id id' node node', a.nodes.get? id = some node →
    a.nodes.get? id' = some node' → node.parent = node'.parent → node.name = node'.name → id = id'
  /-- No key that addresses the record is among the properties. -/
  unreserved : ∀ id node, a.nodes.get? id = some node →
    ∀ key ∈ node.properties.keys, isReservedKey key = false

/-! ## Tables of a forest -/

namespace Stores

/-- What is stored, stands in a row of the forest. -/
theorem exists_row (h : a.Stores f) (hf : f.WellFormed) {node : Instance}
    (hnode : a.nodes.get? id = some node) : ∃ row, f.placed? id = some row ∧
      node = row.item.toInstance row.parent (f.childIds (some id)) := by
  rw [h.node_eq hf] at hnode
  obtain ⟨row, hrow, rfl⟩ := Option.map_eq_some_iff.mp hnode
  exact ⟨row, hrow, rfl⟩

theorem pathOf?_of_spells (h : a.Stores f) (hf : f.WellFormed) (hid : a.Spells id p) :
    pathOf? id f = some p := by
  induction hid with
  | top hnode hparent =>
    obtain ⟨row, hrow, rfl⟩ := h.exists_row hf hnode
    refine hf.pathOf?_of_placed? hrow ?_
    rw [show row.parent = none from hparent]
    rfl
  | child hnode hparent _ ih =>
    obtain ⟨row, hrow, rfl⟩ := h.exists_row hf hnode
    exact hf.pathOf?_child ih hrow hparent

theorem spells_of_pathOf? (h : a.Stores f) (hf : f.WellFormed) (hid : pathOf? id f = some p) :
    a.Spells id p := by
  induction p using List.reverseRecOn generalizing id with
  | nil => exact absurd hid (Forest.pathOf?_ne_root id f)
  | append_singleton above n ih =>
    obtain ⟨row, _, hrow, _, _, habove, hchild⟩ := hf.exists_placed? hid
    have hnode := h.node_eq hf id
    rw [hrow] at hnode
    rw [Path.parent, List.dropLast_concat] at habove hchild
    rw [hchild]
    cases hparent : row.parent with
    | none =>
      rw [hparent] at habove
      rw [← Option.some.inj habove]
      exact .top hnode hparent
    | some above =>
      rw [hparent] at habove
      exact .child hnode hparent (ih habove)

/-- Tables that store a well-formed forest are consistent. -/
theorem consistent (h : a.Stores f) (hf : f.WellFormed) : a.Consistent where
  visits_once := by
    rw [h.map_snd_traverse hf]
    exact Forest.WellFormed.nodup_ids hf
  visits_all id := by rw [h.map_snd_traverse hf, h.node, hf.isSome_instance?_iff]
  visits_end budget hbudget := by
    rw [h.traverseWithin hf (h.size hf ▸ hbudget), h.traverse hf]
  indexed id := by
    rw [h.path, h.node]
    exact hf.isSome_pathOf?_iff_isSome_instance?
  inverse := h.inverse hf
  spelled id p := by
    rw [h.path]
    exact ⟨h.spells_of_pathOf? hf, h.pathOf?_of_spells hf⟩
  visited id p := by rw [h.path, h.traverse hf, hf.mem_indexed_iff]
  record_id id node hnode := by
    obtain ⟨row, hrow, rfl⟩ := h.exists_row hf hnode
    exact (hf.placed?_eq_some_iff.mp hrow).2
  children_iff parent id := by
    rw [h.children, hf.mem_childIds_iff, h.node_eq hf, Option.map_eq_some_iff]
    constructor
    · rintro ⟨row, hrow, hparent⟩
      exact ⟨_, by rw [hrow, Option.map_some], hparent⟩
    · rintro ⟨_, hnode, hparent⟩
      obtain ⟨row, hrow, rfl⟩ := Option.map_eq_some_iff.mp hnode
      exact ⟨row, hrow, hparent⟩
  children_nodup parent := by
    rw [h.children]
    exact hf.nodup_childIds parent
  names_distinct id id' node node' hnode hnode' hparent hname := by
    obtain ⟨row, hrow, rfl⟩ := h.exists_row hf hnode
    obtain ⟨row', hrow', rfl⟩ := h.exists_row hf hnode'
    obtain ⟨hmem, rfl⟩ := hf.placed?_eq_some_iff.mp hrow
    obtain ⟨hmem', rfl⟩ := hf.placed?_eq_some_iff.mp hrow'
    rw [hf.eq_of_slot_eq hmem hmem' (Prod.ext hparent hname)]
  unreserved id node hnode := by
    obtain ⟨row, hrow, rfl⟩ := h.exists_row hf hnode
    exact hf.unreserved row (hf.placed?_eq_some_iff.mp hrow).1

end Stores

/-! ## Checking -/

/-- A list of children is in order when each is there, names the parent, and has a name of its
own. -/
theorem checkChildren_eq_ok {ids : List InstanceId} {seen : List String} (nodup : ids.Nodup)
    (hnodes : ∀ id ∈ ids, ∃ node, a.nodes.get? id = some node ∧ node.parent = parent ∧
      node.name ∉ seen)
    (distinct : ∀ id ∈ ids, ∀ id' ∈ ids, ∀ node node', a.nodes.get? id = some node →
      a.nodes.get? id' = some node' → node.name = node'.name → id = id') :
    a.checkChildren parent seen ids = .ok () := by
  induction ids generalizing seen with
  | nil => rfl
  | cons child rest ih =>
    obtain ⟨hfirst, hrest⟩ := List.nodup_cons.mp nodup
    obtain ⟨node, hnode, hparent, hname⟩ := hnodes child List.mem_cons_self
    simp only [checkChildren, hnode, hparent, ne_eq, not_true_eq_false, if_false, if_neg hname]
    refine ih hrest (fun id hid => ?_) fun id hid id' hid' =>
      distinct id (List.mem_cons_of_mem _ hid) id' (List.mem_cons_of_mem _ hid')
    obtain ⟨other, hother, hparent', hname'⟩ := hnodes id (List.mem_cons_of_mem _ hid)
    refine ⟨other, hother, hparent', fun hmem => ?_⟩
    rcases List.mem_cons.mp hmem with heq | hmem
    · -- the child before would have the same name, and so be the same
      have := distinct id (List.mem_cons_of_mem _ hid) child List.mem_cons_self _ _ hother hnode heq
      exact hfirst (this ▸ hid)
    · exact hname' hmem

/-- An index that leads to and fro has as many paths as ids. -/
theorem Inverse.size_paths (h : a.Inverse) : a.paths.size = a.ids.size := by
  have hmem : ∀ e ∈ a.paths.entries, a.ids.get? e.2 = some e.1 := fun e he =>
    (h e.1 e.2).mp (SortedMap.find?_of_mem a.paths.nodup_keys he)
  have nodup : (a.paths.entries.map Prod.snd).Nodup := by
    refine List.Nodup.map_on (fun e he e' he' heq => ?_) (List.Nodup.of_map _ a.paths.nodup_keys)
    have hpath := (hmem e he).symm.trans (heq ▸ hmem e' he')
    exact Prod.ext (Option.some.inj hpath) heq
  have hperm := SortedMap.keys_perm (m := a.ids) nodup fun id => by
    rw [List.mem_map]
    constructor
    · intro hid
      obtain ⟨p, hp⟩ := Option.isSome_iff_exists.mp hid
      exact ⟨(p, id), SortedMap.mem_of_find? ((h p id).mpr hp), rfl⟩
    · rintro ⟨e, he, rfl⟩
      rw [hmem e he]
      rfl
  have hlength := hperm.length_eq
  rw [SortedMap.keys, List.length_map, List.length_map] at hlength
  exact hlength.symm

namespace Consistent

/-- A walk visits as many as are stored. -/
theorem length_traverse (h : a.Consistent) : a.traverse.length = a.size := by
  have hperm := SortedMap.keys_perm (m := a.nodes) h.visits_once fun id => (h.visits_all id).symm
  have hlength := hperm.length_eq
  rw [SortedMap.keys, List.length_map, List.length_map] at hlength
  exact hlength.symm

/-- As many have a path. -/
theorem size_ids (h : a.Consistent) : a.ids.size = a.size := by
  have hperm := SortedMap.keys_perm (m := a.ids) a.nodes.nodup_keys fun id => by
    rw [h.indexed, SortedMap.isSome_get?_iff]
  have hlength := hperm.length_eq
  rw [SortedMap.keys, SortedMap.keys, List.length_map, List.length_map] at hlength
  exact hlength

/-- A check of consistent tables finds no fault. -/
theorem check_eq_ok (h : a.Consistent) : a.check = .ok () := by
  have hentries : a.traverse.forM a.checkEntry = .ok () := by
    refine Success.forM_of_forall fun e he => ?_
    have hpath := (h.visited e.2 e.1).mpr he
    exact if_pos ⟨hpath, (h.inverse e.1 e.2).mpr hpath⟩
  have hchildren : (none :: a.nodes.keys.map some).forM
      (fun parent => a.checkChildren parent [] (a.children parent)) = .ok () := by
    refine Success.forM_of_forall fun parent _ => ?_
    have hlisted := fun id => h.children_iff parent id
    refine checkChildren_eq_ok (h.children_nodup parent) (fun id hid => ?_)
      fun id hid id' hid' node node' hnode hnode' => ?_
    · obtain ⟨node, hnode, hparent⟩ := (hlisted id).mp hid
      exact ⟨node, hnode, hparent, List.not_mem_nil⟩
    · obtain ⟨_, hnode₁, hparent⟩ := (hlisted id).mp hid
      obtain ⟨_, hnode₂, hparent'⟩ := (hlisted id').mp hid'
      cases hnode.symm.trans hnode₁
      cases hnode'.symm.trans hnode₂
      exact h.names_distinct id id' node node' hnode hnode' (hparent.trans hparent'.symm)
  have hsizes : ¬ (a.ids.size ≠ a.size ∨ a.paths.size ≠ a.size) := by
    rw [h.inverse.size_paths, h.size_ids]
    simp only [ne_eq, not_true_eq_false, or_self, not_false_eq_true]
  unfold check
  simp only [h.length_traverse, ne_eq, not_true_eq_false, if_false, if_neg hsizes, hentries]
  exact hchildren

end Consistent

end SharedScene.Arena
