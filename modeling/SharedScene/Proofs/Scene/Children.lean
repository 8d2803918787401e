import SharedScene.Proofs.Scene.Edit
import SharedScene.Proofs.Scene.Rows
import SharedScene.Proofs.Scene.Records

/-!
# The children of every parent

The children that a record lists are the rows under its id, in their order
(`WellFormed.childIds_eq_map`), so an operation is followed through the rows. A node that is taken
out is missing from the list of its parent (`WellFormed.childIds_remove`), one that is renamed where
it is stays in its place there (`WellFormed.childIds_relocate_of_eq`), and one that goes to another
parent leaves the one list and comes last in the other (`WellFormed.childIds_relocate_of_ne`). The
order of all others is kept, and so is every other list.
-/

namespace SharedScene.Forest

variable {f : Forest} {p q : Path} {item : Item} {children : Forest} {y : InstanceId}
  {x : Option InstanceId} {name : String}

/-! ## A node and the rest -/

/-- The ids of a node, and those of what is left without it. -/
theorem ids_perm_remove (h : f.find? p = some (item, children)) :
    f.ids.Perm (item.id :: children.ids ++ (f.remove p).ids) := by
  have := (table_remove h).map Placed.id
  rwa [map_id_placements, List.map_cons, List.map_append, map_id_placements, map_id_placements]
    at this

theorem mem_ids_of_idAt? (h : f.idAt? p = some y) : y ∈ f.ids := by
  obtain ⟨_, hfind, hid⟩ := Option.map_eq_some_iff.mp h
  exact hid ▸ mem_ids_of_find? hfind

/-- A node has no id twice, and shares none with what is left without it. -/
theorem nodup_node (nodup : f.ids.Nodup) (h : f.find? p = some (item, children)) :
    (item.id :: children.ids).Nodup ∧ (f.remove p).ids.Nodup ∧
      ∀ id ∈ item.id :: children.ids, id ∉ (f.remove p).ids := by
  obtain ⟨hnode, hrest, hdisjoint⟩ :=
    List.nodup_append.mp ((ids_perm_remove h).nodup_iff.mp nodup)
  exact ⟨hnode, hrest, fun id hid hmem => hdisjoint id hid id hmem rfl⟩

/-- What stands neither at a node nor below it is none of its instances. -/
theorem idAt?_ne_of_mem_node (nodup : f.ids.Nodup) (h : f.find? p = some (item, children))
    (hpq : ¬ p <+: q) (hy : y ∈ item.id :: children.ids) : f.idAt? q ≠ some y := by
  intro hq
  rw [← idAt?_remove hpq] at hq
  obtain ⟨⟨other, below⟩, hfind, rfl⟩ := Option.map_eq_some_iff.mp hq
  exact (nodup_node nodup h).2.2 _ hy (mem_ids_of_find? hfind)

/-! ## Rows under a parent -/

theorem rowsUnder_split (before after below : List Placed) (row : Placed) :
    rowsUnder (before ++ (row :: (below ++ after))) x =
      rowsUnder before x ++ (rowsUnder [row] x ++ (rowsUnder below x ++ rowsUnder after x)) := by
  rw [← List.singleton_append, rowsUnder_append, rowsUnder_append, rowsUnder_append]

/-- Under an instance of a node are only rows below the node. -/
theorem rowsUnder_of_mem_node (nodup : f.ids.Nodup) (h : f.find? p = some (item, children))
    (hy : y ∈ item.id :: children.ids) :
    rowsUnder f.table (some y) = rowsUnder (placements (some item.id) children) (some y) := by
  obtain ⟨before, after, hremove, htable, _⟩ := exists_table_split h
  have hrest : rowsUnder (before ++ after) (some y) = [] := by
    rw [← hremove]
    exact rowsUnder_placements_eq_nil (fun heq => by cases heq) ((nodup_node nodup h).2.2 y hy)
  rw [rowsUnder_append, List.append_eq_nil_iff] at hrest
  have hrow : rowsUnder [⟨f.idAt? p.dropLast, item⟩] (some y) = [] :=
    rowsUnder_cons_of_ne (idAt?_ne_of_mem_node nodup h (not_prefix_parent h) hy)
  rw [htable, rowsUnder_split, hrest.1, hrest.2, hrow, List.nil_append, List.nil_append,
    List.append_nil]

/-- Under any other parent are no rows below the node. -/
theorem rowsUnder_below_eq_nil (hx : ∀ y ∈ item.id :: children.ids, x ≠ some y) :
    rowsUnder (placements (some item.id) children) x = [] := by
  refine rowsUnder_eq_nil fun w hw heq => ?_
  obtain ⟨y, hy, hparent⟩ := exists_parent_of_mem hw
  exact hx y hy (heq.symm.trans hparent)

/-- Under the id at a path are the items of the children there, in their order. -/
theorem rowsUnder_of_childrenAt? (nodup : f.ids.Nodup) (hq : f.childrenAt? q = some children) :
    rowsUnder f.table (f.idAt? q) = children.items.map (Placed.mk (f.idAt? q)) := by
  cases q with
  | nil =>
    obtain rfl := Option.some.inj hq
    rw [idAt?, find?_root]
    exact rowsUnder_placements fun _ _ heq => by cases heq
  | cons n q =>
    obtain ⟨⟨item, below⟩, hfind, rfl⟩ := Option.map_eq_some_iff.mp hq
    rw [idAt?, hfind, Option.map_some, rowsUnder_of_mem_node nodup hfind List.mem_cons_self]
    refine rowsUnder_placements fun id hid heq => ?_
    obtain ⟨hitem, _⟩ := List.nodup_cons.mp (nodup_node nodup hfind).1
    exact hitem (Option.some.inj heq ▸ hid)

/-- Without a node its row is missing, and other rows stay in their order. -/
theorem rowsUnder_remove (nodup : f.ids.Nodup) (h : f.find? p = some (item, children))
    (hx : ∀ y ∈ item.id :: children.ids, x ≠ some y) :
    rowsUnder (f.remove p).table x =
      (rowsUnder f.table x).filter fun w => decide (w.id ≠ item.id) := by
  obtain ⟨before, after, hremove, htable, _⟩ := exists_table_split h
  have hkept : ∀ w ∈ rowsUnder before x ++ rowsUnder after x, decide (w.id ≠ item.id) = true := by
    intro w hw
    rw [← rowsUnder_append, ← hremove] at hw
    refine decide_eq_true fun heq => ?_
    have hmem := mem_ids_of_mem (List.mem_of_mem_filter hw)
    exact (nodup_node nodup h).2.2 _ List.mem_cons_self (heq ▸ hmem)
  have hrow : (rowsUnder [⟨f.idAt? p.dropLast, item⟩] x).filter
      (fun w => decide (w.id ≠ item.id)) = [] := by
    refine List.filter_eq_nil_iff.mpr fun w hw => ?_
    obtain rfl := List.mem_singleton.mp (List.mem_of_mem_filter hw)
    exact fun h => of_decide_eq_true h rfl
  rw [htable, rowsUnder_split, rowsUnder_below_eq_nil hx, hremove, List.filter_append,
    List.filter_append, hrow, List.nil_append, List.nil_append, ← List.filter_append,
    List.filter_eq_self.mpr hkept, rowsUnder_append]

/-- A changed item that keeps its id has its row in the same place. -/
theorem map_rowsUnder_modify (h : f.find? p = some (item, children)) {change : Item → Item}
    (hid : (change item).id = item.id) :
    (rowsUnder (Forest.modify change f p).table x).map Placed.id =
      (rowsUnder f.table x).map Placed.id := by
  obtain ⟨before, after, _, htable, hmodify⟩ := exists_table_split h
  have hrow : (rowsUnder [⟨f.idAt? p.dropLast, change item⟩] x).map Placed.id =
      (rowsUnder [⟨f.idAt? p.dropLast, item⟩] x).map Placed.id := by
    by_cases hx : f.idAt? p.dropLast = x
    · rw [rowsUnder_cons_of_eq hx, rowsUnder_cons_of_eq hx, List.map_cons, List.map_cons]
      exact congrArg (· :: _) hid
    · rw [rowsUnder_cons_of_ne hx, rowsUnder_cons_of_ne hx]
  rw [hmodify change hid, htable, rowsUnder_split, rowsUnder_split]
  simp only [List.map_append, hrow]

/-- Under another parent the row of a node comes last. -/
theorem rowsUnder_relocate (nodup : f.ids.Nodup) (h : f.find? p = some (item, children))
    (hq : (f.childrenAt? q).isSome) (hpq : ¬ p <+: q) (hparent : p.parent ≠ q) :
    rowsUnder (f.relocate p q name).table x =
      ((rowsUnder f.table x).filter fun w => decide (w.id ≠ item.id)) ++
        rowsUnder [⟨f.idAt? q, item.renamed name⟩] x := by
  have hq' : ((f.remove p).childrenAt? q).isSome := by
    rwa [isSome_childrenAt?_iff, idAt?_remove hpq, ← isSome_childrenAt?_iff]
  obtain ⟨hnode, hrest, hdisjoint⟩ := nodup_node nodup h
  have hnew : rowsUnder
      (placements ((f.remove p).idAt? q) (single (item.renamed name) children)) x =
      rowsUnder [⟨f.idAt? q, item.renamed name⟩] x ++
        rowsUnder (placements (some item.id) children) x := by
    rw [idAt?_remove hpq, ← rowsUnder_append, single, placements, placements, List.append_nil]
    rfl
  rw [relocate, if_neg hparent, h]
  by_cases hx : ∀ y ∈ item.id :: children.ids, x ≠ some y
  · rw [rowsUnder_below_eq_nil hx, List.append_nil] at hnew
    rw [← rowsUnder_remove nodup h hx, ← hnew]
    refine rowsUnder_graft_of_apart hrest hq' ?_
    rw [hnew, idAt?_remove hpq]
    by_cases hxq : f.idAt? q = x
    · exact .inl hxq.symm
    · exact .inr (.inl (rowsUnder_cons_of_ne hxq))
  · -- what hangs from the node or from below it goes along as it is
    push Not at hx
    obtain ⟨y, hy, rfl⟩ := hx
    have hnone : rowsUnder (f.remove p).table (some y) = [] :=
      rowsUnder_placements_eq_nil (fun heq => by cases heq) (hdisjoint y hy)
    have hrow : rowsUnder [⟨f.idAt? q, item.renamed name⟩] (some y) = [] :=
      rowsUnder_cons_of_ne (idAt?_ne_of_mem_node nodup h hpq hy)
    have hkept : ∀ w ∈ rowsUnder (placements (some item.id) children) (some y),
        decide (w.id ≠ item.id) = true := by
      intro w hw
      refine decide_eq_true fun heq => (List.nodup_cons.mp hnode).1 ?_
      exact heq ▸ mem_ids_of_mem (List.mem_of_mem_filter hw)
    rw [rowsUnder_graft_of_apart hrest hq' (.inr (.inr hnone)), hnone, hnew, hrow,
      rowsUnder_of_mem_node nodup h hy, List.filter_eq_self.mpr hkept, List.nil_append,
      List.append_nil, List.nil_append]

/-! ## Lists of children -/

/-- The children of a parent are the rows under it, in their order. -/
theorem WellFormed.childIds_eq_map (h : f.WellFormed) (x : Option InstanceId) :
    f.childIds x = (rowsUnder f.table x).map Placed.id := by
  rcases h.childIds_eq x with ⟨q, children, hq, hid, heq⟩ | ⟨heq, hnone⟩
  · rw [heq, ← hid, rowsUnder_of_childrenAt? (WellFormed.nodup_ids h) hq, List.map_map]
    rfl
  · have hrows : rowsUnder f.table x = [] := rowsUnder_eq_nil fun w hw =>
      hnone w.id w (h.placed?_eq_some_iff.mpr ⟨hw, rfl⟩)
    rw [heq, hrows, List.map_nil]

/-- A node is a child of its parent alone. -/
theorem WellFormed.filter_childIds (h : f.WellFormed) (hfind : f.find? p = some (item, children))
    (hx : x ≠ f.idAt? p.parent) :
    (f.childIds x).filter (fun y => decide (y ≠ item.id)) = f.childIds x := by
  refine List.filter_eq_self.mpr fun y hy => decide_eq_true ?_
  rintro rfl
  rw [h.mem_childIds_iff, h.placed?_of_find? hfind] at hy
  exact hx (Option.some.inj hy).symm

/-- A node that is taken out is missing from its parent's list. -/
theorem WellFormed.childIds_remove (h : f.WellFormed) (hfind : f.find? p = some (item, children))
    (hx : ∀ y ∈ item.id :: children.ids, x ≠ some y) :
    (f.remove p).childIds x = (f.childIds x).filter fun y => decide (y ≠ item.id) := by
  rw [(h.remove hfind).childIds_eq_map, h.childIds_eq_map,
    rowsUnder_remove (WellFormed.nodup_ids h) hfind hx, List.filter_map]
  rfl

/-- A changed item that keeps its id is in the same lists. -/
theorem WellFormed.childIds_modify (h : f.WellFormed) {change : Item → Item}
    (hg : (Forest.modify change f p).WellFormed) (hfind : f.find? p = some (item, children))
    (hid : (change item).id = item.id) (x : Option InstanceId) :
    (Forest.modify change f p).childIds x = f.childIds x := by
  rw [hg.childIds_eq_map, h.childIds_eq_map, map_rowsUnder_modify hfind hid]

/-- Where one item is changed, only its record is another one, at the same place. -/
theorem WellFormed.instance?_modify (h : f.WellFormed) {change : Item → Item}
    (hg : (Forest.modify change f p).WellFormed) (hfind : f.find? p = some (item, children))
    (hid : (change item).id = item.id) (y : InstanceId) :
    (Forest.modify change f p).instance? y = (f.instance? y).map fun r =>
      if y = item.id then (change item).toInstance r.parent r.children else r := by
  rw [hg.instance?_eq, h.instance?_eq, h.childIds_modify hg hfind hid,
    h.placed?_modify hfind hid hg]
  by_cases hy : y = item.id
  · rw [if_pos hy, hy, h.placed?_of_find? hfind]
    simp only [Option.map_some, if_true]
    rfl
  · simp only [if_neg hy, Option.map_map]
    rfl

/-- A new instance comes last in the list of its parent. -/
theorem WellFormed.childIds_graft (h : f.WellFormed)
    (hg : (Forest.graft (single item .nil) f q).WellFormed) (hq : (f.childrenAt? q).isSome)
    (x : Option InstanceId) : (Forest.graft (single item .nil) f q).childIds x =
      f.childIds x ++ if f.idAt? q = x then [item.id] else [] := by
  rw [hg.childIds_eq_map, h.childIds_eq_map, rowsUnder_graft (WellFormed.nodup_ids h) hq,
    List.map_append]
  split
  · next hx => rw [rowsUnder_cons_of_eq hx]; rfl
  · next hx => rw [rowsUnder_cons_of_ne hx]; rfl

/-- The records with a new instance. -/
theorem WellFormed.instance?_graft (h : f.WellFormed)
    (hg : (Forest.graft (single item .nil) f q).WellFormed) (hq : (f.childrenAt? q).isSome)
    (y : InstanceId) : (Forest.graft (single item .nil) f q).instance? y =
      if y = item.id then some (item.toInstance (f.idAt? q) [])
      else (f.instance? y).map fun r =>
        { r with children := r.children ++ if f.idAt? q = some y then [item.id] else [] } := by
  have hlist := h.childIds_graft hg hq (some y)
  by_cases hy : y = item.id
  · have hrow := hg.placed?_eq_some_iff.mpr
      ⟨(table_graft item hq).mem_iff.mpr List.mem_cons_self, rfl⟩
    have hnew : item.id ∉ f.ids := WellFormed.not_mem_ids_of_graft hg hq
    have hparent : f.idAt? q ≠ some item.id := fun heq => hnew (mem_ids_of_idAt? heq)
    have hnone : f.childIds (some item.id) = [] := by
      rw [childIds, Option.not_isSome_iff_eq_none.mp (h.isSome_instance?_iff.not.mpr hnew)]
    rw [if_pos hy, hg.instance?_eq, hlist, hy, hnone, if_neg hparent]
    rw [show Forest.placed? _ item.id = _ from hrow]
    rfl
  · rw [if_neg hy, hg.instance?_eq, hlist, h.instance?_eq, h.placed?_graft_of_ne hg hq hy,
      Option.map_map]
    rfl

/-- A node that stays under its parent stays in its place. -/
theorem WellFormed.childIds_relocate_of_eq (h : f.WellFormed)
    (hg : (f.relocate p q name).WellFormed) (hfind : f.find? p = some (item, children))
    (hparent : p.parent = q) : (f.relocate p q name).childIds x = f.childIds x := by
  rw [hg.childIds_eq_map, h.childIds_eq_map, Forest.relocate, if_pos hparent]
  exact map_rowsUnder_modify hfind rfl

/-- A node that goes to another parent leaves the one list and comes last in the other. -/
theorem WellFormed.childIds_relocate_of_ne (h : f.WellFormed)
    (hg : (f.relocate p q name).WellFormed) (hfind : f.find? p = some (item, children))
    (hq : (f.childrenAt? q).isSome) (hpq : ¬ p <+: q) (hparent : p.parent ≠ q) :
    (f.relocate p q name).childIds x =
      (f.childIds x).filter (fun y => decide (y ≠ item.id)) ++
        if f.idAt? q = x then [item.id] else [] := by
  rw [hg.childIds_eq_map, h.childIds_eq_map,
    rowsUnder_relocate (WellFormed.nodup_ids h) hfind hq hpq hparent, List.map_append,
    List.filter_map]
  refine congrArg _ ?_
  split
  · next hx => rw [rowsUnder_cons_of_eq hx]; rfl
  · next hx => rw [rowsUnder_cons_of_ne hx]; rfl

end SharedScene.Forest
