import SharedScene.Proofs.Scene.Lookup

/-!
# A scene by its records

Who knows a scene by ids has the ids of the topmost level and the record of each instance, which
names its parent and its children by id. In a well-formed forest each record says what the row of
its instance says (`WellFormed.instance?_eq`), the lists of children are those of the parents that
the rows name (`WellFormed.mem_childIds_iff`), and the indexed view has each instance once, at its
path (`WellFormed.mem_indexed_iff`).
-/

namespace SharedScene.Forest

variable {f g : Forest} {p q above : Path} {item : Item} {children : Forest} {id : InstanceId}
  {row : Placed} {parent : Option InstanceId} {e : IndexedInstance}

/-! ## Reading by id -/

/-- The ids of the children of a parent; the root has the topmost ones. -/
def childIds (f : Forest) : Option InstanceId → List InstanceId
  | none => f.topIds
  | some id => match f.instance? id with
    | some r => r.children
    | none => []

/-! ## Records -/

/-- The record of an instance says what its row says, and lists the children at its path. -/
theorem WellFormed.instance?_of_placed? (h : f.WellFormed) (hrow : f.placed? id = some row) :
    ∃ p children, pathOf? id f = some p ∧ f.find? p = some (row.item, children) ∧
      f.instance? id = some (row.item.toInstance row.parent children.topIds) := by
  obtain ⟨p, children, hp, hfind, hparent, _⟩ := h.exists_pathOf? hrow
  refine ⟨p, children, hp, hfind, ?_⟩
  obtain ⟨hid, _⟩ := h.parentPath?_eq_some_iff.mp hparent
  rw [instance?, hp]
  show f.instanceAt? p = _
  rw [instanceAt?, hfind]
  show some (row.item.toInstance (f.idAt? p.parent) children.topIds) = _
  rw [hid]

/-- An instance has a record exactly when it has a row. -/
theorem WellFormed.exists_placed?_of_instance? (h : f.WellFormed) {r : Instance}
    (hr : f.instance? id = some r) : ∃ row p children, f.placed? id = some row ∧
      pathOf? id f = some p ∧ f.find? p = some (row.item, children) ∧
      r = row.item.toInstance row.parent children.topIds := by
  obtain ⟨p, hp, _⟩ := Option.bind_eq_some_iff.mp hr
  obtain ⟨row, _, hrow, _⟩ := h.exists_placed? hp
  obtain ⟨p', children, hp', hfind, hrecord⟩ := h.instance?_of_placed? hrow
  exact ⟨row, p', children, hrow, hp', hfind, Option.some.inj (hr.symm.trans hrecord)⟩

/-- The records of a forest are its rows, with the children of each. -/
theorem WellFormed.instance?_eq (h : f.WellFormed) (id : InstanceId) : f.instance? id =
    (f.placed? id).map fun row => row.item.toInstance row.parent (f.childIds (some id)) := by
  cases hrow : f.placed? id with
  | none =>
    cases hr : f.instance? id with
    | none => rfl
    | some r =>
      obtain ⟨row, _, _, hrow', _⟩ := h.exists_placed?_of_instance? hr
      cases hrow.symm.trans hrow'
  | some row =>
    obtain ⟨_, _, _, _, hr⟩ := h.instance?_of_placed? hrow
    rw [Option.map_some, childIds, hr]
    rfl

theorem WellFormed.isSome_instance?_iff (h : f.WellFormed) :
    (f.instance? id).isSome ↔ id ∈ f.ids := by
  rw [h.instance?_eq, Option.isSome_map, isSome_placed?_iff]

/-! ## Children -/

/-- The ids of the topmost level are among all ids, in their order. -/
theorem topIds_sublist (f : Forest) : f.topIds.Sublist f.ids := by
  induction f with
  | nil => exact List.Sublist.slnil
  | cons item children rest _ ihr =>
    rw [ids_cons]
    exact (ihr.trans (List.sublist_append_right _ _)).cons_cons item.id

/-- No id stands twice among the children at a path. -/
theorem WellFormed.nodup_topIds (h : f.WellFormed) (hq : f.childrenAt? q = some children) :
    children.topIds.Nodup := by
  cases q with
  | nil =>
    obtain rfl := Option.some.inj hq
    exact (WellFormed.nodup_ids h).sublist (topIds_sublist f)
  | cons n q =>
    obtain ⟨⟨item, below⟩, hfind, rfl⟩ := Option.map_eq_some_iff.mp hq
    have hsound := Sound.perm h (table_remove hfind).symm
    have hbelow := hsound.sublist
      ((List.sublist_append_left _ _).trans (List.sublist_cons_self _ _))
    have hids := map_id_placements (some item.id) below ▸ hbelow.nodup_ids
    exact hids.sublist (topIds_sublist below)

/-- The children at a path are the instances whose parent stands there. -/
theorem WellFormed.mem_topIds_iff (h : f.WellFormed) (hq : f.childrenAt? q = some children) :
    id ∈ children.topIds ↔ ∃ row, f.placed? id = some row ∧ row.parent = f.idAt? q := by
  rw [topIds, List.mem_map]
  constructor
  · rintro ⟨item, hitem, rfl⟩
    have hrow := (h.mem_items_iff hq).mp hitem
    exact ⟨_, h.placed?_eq_some_iff.mpr ⟨hrow, rfl⟩, rfl⟩
  · rintro ⟨row, hrow, hparent⟩
    obtain ⟨hmem, hid⟩ := h.placed?_eq_some_iff.mp hrow
    refine ⟨row.item, (h.mem_items_iff hq).mpr ?_, hid⟩
    rw [← hparent]
    exact hmem

/-- The children of a parent are those at its path; what is not there has none. -/
theorem WellFormed.childIds_eq (h : f.WellFormed) (parent : Option InstanceId) :
    (∃ q children, f.childrenAt? q = some children ∧ f.idAt? q = parent ∧
      f.childIds parent = children.topIds) ∨
    (f.childIds parent = [] ∧ ∀ id row, f.placed? id = some row → row.parent ≠ parent) := by
  cases parent with
  | none => exact .inl ⟨[], f, rfl, by rw [idAt?, find?_root, Option.map_none], rfl⟩
  | some x =>
    cases hx : f.instance? x with
    | some r =>
      obtain ⟨row, q, children, _, hq, hfind, rfl⟩ := h.exists_placed?_of_instance? hx
      refine .inl ⟨q, children, ?_, h.pathOf?_eq_some_iff.mp hq, by rw [childIds, hx]; rfl⟩
      cases q with
      | nil => rw [find?_root] at hfind; cases hfind
      | cons n q => rw [childrenAt?_cons, hfind, Option.map_some]
    | none =>
      refine .inr ⟨by rw [childIds, hx], fun id row hrow hparent => ?_⟩
      have habsent : x ∉ f.ids := by
        rw [← h.isSome_instance?_iff, hx]
        exact Bool.false_ne_true
      rcases parent_of_mem (h.placed?_eq_some_iff.mp hrow).1 with heq | ⟨y, hy, heq⟩
      · cases hparent.symm.trans heq
      · cases hparent.symm.trans heq
        exact habsent hy

/-- A parent has those children whose rows name it. -/
theorem WellFormed.mem_childIds_iff (h : f.WellFormed) :
    id ∈ f.childIds parent ↔ (f.placed? id).map (·.parent) = some parent := by
  rw [Option.map_eq_some_iff]
  rcases h.childIds_eq parent with ⟨q, children, hq, hid, heq⟩ | ⟨heq, hnone⟩
  · rw [heq, h.mem_topIds_iff hq, hid]
  · rw [heq]
    refine ⟨fun hmem => absurd hmem List.not_mem_nil, ?_⟩
    rintro ⟨row, hrow, hparent⟩
    exact absurd hparent (hnone id row hrow)

theorem WellFormed.nodup_childIds (h : f.WellFormed) (parent : Option InstanceId) :
    (f.childIds parent).Nodup := by
  rcases h.childIds_eq parent with ⟨q, children, hq, _, heq⟩ | ⟨heq, _⟩
  · rw [heq]
    exact h.nodup_topIds hq
  · rw [heq]
    exact List.nodup_nil

/-! ## The indexed view -/

/-- Where an instance of the indexed view stands. -/
theorem exists_find?_of_mem_index (names : NamesDistinct g) (he : e ∈ index parent above g) :
    ∃ p item children, e.path = above ++ p ∧ g.find? p = some (item, children) ∧
      e.record = item.toInstance (idOr parent g p.parent) children.topIds := by
  induction g generalizing parent above with
  | nil => cases he
  | cons first below rest ihc ihr =>
    obtain ⟨hfirst, hbelow, hrest⟩ := names
    rcases List.mem_cons.mp he with rfl | he
    · exact ⟨[first.name], first, below, rfl, find?_cons_single rfl, rfl⟩
    · rcases List.mem_append.mp he with he | he
      · obtain ⟨p, item, children, hpath, hfind, hrecord⟩ := ihc hbelow he
        cases p with
        | nil => rw [find?_root] at hfind; cases hfind
        | cons m p =>
          refine ⟨first.name :: m :: p, item, children, ?_, ?_, ?_⟩
          · rw [hpath, Path.child, List.append_assoc]
            rfl
          · rw [find?_cons_of_eq rfl, hfind]
          · rw [hrecord, Path.parent, Path.parent, List.dropLast_cons_cons, idOr_cons_of_eq rfl]
      · obtain ⟨p, item, children, hpath, hfind, hrecord⟩ := ihr hrest he
        cases p with
        | nil => rw [find?_root] at hfind; cases hfind
        | cons n p =>
          -- the first node has another name, else it would share one with a later sibling
          have hn : first.name ≠ n := fun hn => hfirst (hn ▸ head_mem_names_of_find? hfind)
          refine ⟨n :: p, item, children, hpath, ?_, ?_⟩
          · rw [find?_cons_of_ne hn, hfind]
          · cases p with
            | nil => exact hrecord
            | cons m p =>
              rw [hrecord, Path.parent, List.dropLast_cons_cons, idOr_cons_of_ne hn]

/-- The indexed view shows each instance at its path, with its record. -/
theorem WellFormed.instance?_of_mem_indexed (h : f.WellFormed) (he : e ∈ f.indexed) :
    pathOf? e.record.id f = some e.path ∧ f.instance? e.record.id = some e.record := by
  obtain ⟨p, item, children, hpath, hfind, hrecord⟩ := exists_find?_of_mem_index h.namesDistinct he
  obtain rfl : p = e.path := hpath.symm
  have hp := pathOf?_of_find? (WellFormed.nodup_ids h) hfind
  have hid : e.record.id = item.id := congrArg Instance.id hrecord
  refine ⟨hid ▸ hp, ?_⟩
  rw [hid, instance?, hp]
  show f.instanceAt? e.path = some e.record
  rw [instanceAt?, hfind, hrecord, idOr_none]
  rfl

theorem map_id_index (parent : Option InstanceId) (above : Path) (g : Forest) :
    (index parent above g).map (fun e => e.record.id) = g.ids := by
  induction g generalizing parent above with
  | nil => rfl
  | cons item children rest ihc ihr =>
    rw [index, List.map_cons, List.map_append, ihc, ihr, ids_cons]
    rfl

theorem length_ids (f : Forest) : f.ids.length = f.size := by
  induction f with
  | nil => rfl
  | cons item children rest ihc ihr =>
    rw [ids_cons, List.length_cons, List.length_append, ihc, ihr, size]
    omega

theorem length_table (f : Forest) : f.table.length = f.size := by
  rw [← length_ids, ← map_id_placements none, List.length_map]

/-- The indexed view has each instance at its path, and nothing else. -/
theorem WellFormed.mem_indexed_iff (h : f.WellFormed) :
    (p, id) ∈ f.indexed.map (fun e => (e.path, e.record.id)) ↔ pathOf? id f = some p := by
  rw [List.mem_map]
  constructor
  · rintro ⟨e, he, heq⟩
    cases heq
    exact (h.instance?_of_mem_indexed he).1
  · intro hp
    have hid : id ∈ f.ids := isSome_pathOf?_iff.mp (by rw [hp]; rfl)
    rw [← map_id_index none Path.root f] at hid
    obtain ⟨e, he, rfl⟩ := List.mem_map.mp hid
    refine ⟨e, he, ?_⟩
    rw [Option.some.inj (hp.symm.trans (h.instance?_of_mem_indexed he).1)]

end SharedScene.Forest
