import SharedScene.Proofs.Scene.WellFormed

/-!
# Ids, paths and rows of a well-formed forest

Three ways to ask for an instance: by its path, by its id, and by its row in the table. In a
well-formed forest the answers fit together, and each question has one answer. What stands below a
path is what a chain of parents leads up from (`mem_of_prefix`): a set of ids that has the parents
of its members has everything above them.
-/

namespace SharedScene.Forest

variable {f g : Forest} {p q : Path} {item : Item} {children : Forest} {id : InstanceId}
  {row : Placed} {parent : Option InstanceId}

/-! ## By id -/

/-- The row of an id. -/
theorem WellFormed.placed?_eq_some_iff (h : f.WellFormed) :
    f.placed? id = some row ↔ row ∈ f.table ∧ row.id = id := by
  constructor
  · intro hrow
    refine ⟨List.mem_of_find?_eq_some hrow, ?_⟩
    exact of_decide_eq_true (List.find?_some (p := fun r : Placed => decide (r.item.id = id)) hrow)
  · rintro ⟨hmem, rfl⟩
    cases hfound : f.placed? row.id with
    | none =>
      have := List.find?_eq_none.mp hfound row hmem
      exact absurd (decide_eq_true rfl) this
    | some other =>
      have hother := List.mem_of_find?_eq_some hfound
      have hid : other.id = row.id := of_decide_eq_true
        (List.find?_some (p := fun r : Placed => decide (r.item.id = row.id)) hfound)
      rw [h.eq_of_id_eq hother hmem hid]

/-- The row of what stands at a path. -/
theorem WellFormed.placed?_of_find? (h : f.WellFormed) (hp : f.find? p = some (item, children)) :
    f.placed? item.id = some ⟨f.idAt? p.parent, item⟩ :=
  h.placed?_eq_some_iff.mpr ⟨mem_table_of_find? hp, rfl⟩

theorem isSome_placed?_iff : (f.placed? id).isSome ↔ id ∈ f.ids := by
  rw [placed?, List.find?_isSome]
  constructor
  · rintro ⟨row, hmem, hid⟩
    exact of_decide_eq_true hid ▸ mem_ids_of_mem hmem
  · intro hid
    obtain ⟨row, hmem, rfl⟩ := exists_mem_of_mem_ids none hid
    exact ⟨row, hmem, decide_eq_true rfl⟩

/-- The rows after one row took the place of another of the same id. -/
theorem WellFormed.placed?_of_edit (hf : f.WellFormed) (hg : g.WellFormed) {rows : List Placed}
    {old new : Placed} (hfrows : f.table.Perm (old :: rows)) (hgrows : g.table.Perm (new :: rows))
    (hid : new.id = old.id) (x : InstanceId) :
    g.placed? x = if x = old.id then some new else f.placed? x := by
  split
  · next hx =>
    exact hg.placed?_eq_some_iff.mpr ⟨hgrows.mem_iff.mpr List.mem_cons_self, hid.trans hx.symm⟩
  · next hx =>
    refine Option.ext fun row => ?_
    rw [hg.placed?_eq_some_iff, hf.placed?_eq_some_iff, hfrows.mem_iff, hgrows.mem_iff,
      List.mem_cons, List.mem_cons]
    constructor
    · rintro ⟨rfl | hmem, hrow⟩
      · exact absurd (hrow.symm.trans hid) hx
      · exact ⟨.inr hmem, hrow⟩
    · rintro ⟨rfl | hmem, hrow⟩
      · exact absurd hrow.symm hx
      · exact ⟨.inr hmem, hrow⟩

/-! ## By path -/

/-- The paths of instances and the ids at paths are inverse to each other. -/
theorem WellFormed.pathOf?_eq_some_iff (h : f.WellFormed) :
    pathOf? id f = some p ↔ f.idAt? p = some id := by
  constructor
  · intro hp
    obtain ⟨item, children, hfind, rfl⟩ := exists_find?_of_pathOf? h.namesDistinct hp
    rw [idAt?, hfind, Option.map_some]
  · intro hid
    obtain ⟨⟨item, children⟩, hfind, rfl⟩ := Option.map_eq_some_iff.mp hid
    exact pathOf?_of_find? (WellFormed.nodup_ids h) hfind

/-- A parent and its path: the id at the path, where there are children. -/
theorem WellFormed.parentPath?_eq_some_iff (h : f.WellFormed) :
    f.parentPath? parent = some q ↔ f.idAt? q = parent ∧ (f.childrenAt? q).isSome := by
  rw [isSome_childrenAt?_iff]
  cases parent with
  | none =>
    constructor
    · intro hq
      obtain rfl := Option.some.inj hq
      exact ⟨by rw [idAt?, Path.root, find?_root, Option.map_none], .inl rfl⟩
    · rintro ⟨hid, rfl | hsome⟩
      · rfl
      · rw [hid] at hsome
        cases hsome
  | some id =>
    rw [parentPath?, h.pathOf?_eq_some_iff]
    constructor
    · intro hid
      exact ⟨hid, .inr (by rw [hid]; rfl)⟩
    · exact fun hid => hid.1

/-- What stands at the path of an instance, and in its row. -/
theorem WellFormed.exists_placed? (h : f.WellFormed) (hp : pathOf? id f = some p) :
    ∃ row children, f.placed? id = some row ∧ f.find? p = some (row.item, children) ∧
      row.id = id ∧ f.parentPath? row.parent = some p.parent ∧
      p = Path.child p.parent row.item.name := by
  obtain ⟨item, children, hfind, hid⟩ := exists_find?_of_pathOf? h.namesDistinct hp
  obtain ⟨siblings, hsiblings, _⟩ := exists_childrenAt?_parent hfind
  refine ⟨⟨f.idAt? p.parent, item⟩, children, ?_, hfind, hid, ?_, eq_child_of_find? hfind⟩
  · exact h.placed?_eq_some_iff.mpr ⟨mem_table_of_find? hfind, hid⟩
  · exact h.parentPath?_eq_some_iff.mpr ⟨rfl, by rw [hsiblings]; rfl⟩

/-- What stands at the path of a row's instance. -/
theorem WellFormed.exists_pathOf? (h : f.WellFormed) (hrow : f.placed? id = some row) :
    ∃ p children, pathOf? id f = some p ∧ f.find? p = some (row.item, children) ∧
      f.parentPath? row.parent = some p.parent ∧ p = Path.child p.parent row.item.name := by
  have hid : id ∈ f.ids := isSome_placed?_iff.mp (by rw [hrow]; rfl)
  obtain ⟨p, hp⟩ := Option.isSome_iff_exists.mp (isSome_pathOf?_iff.mpr hid)
  obtain ⟨row', children, hrow', hfind, _, hparent, hchild⟩ := h.exists_placed? hp
  obtain rfl := Option.some.inj (hrow.symm.trans hrow')
  exact ⟨p, children, hp, hfind, hparent, hchild⟩

/-- An instance stands at the path of its parent and its own name. -/
theorem WellFormed.pathOf?_of_placed? (h : f.WellFormed) (hrow : f.placed? id = some row)
    (hparent : f.parentPath? row.parent = some q) :
    pathOf? id f = some (q.child row.item.name) := by
  obtain ⟨p, _, hp, _, habove, hchild⟩ := h.exists_pathOf? hrow
  rw [hp, hchild, Option.some.inj (habove.symm.trans hparent)]

/-- A parent has the same path in another forest when the instance there has. -/
theorem WellFormed.parentPath?_kept (h : f.WellFormed) (hq : (f.childrenAt? q).isSome)
    (hkept : ∀ x, pathOf? x f = some q → pathOf? x g = some q) :
    g.parentPath? (f.idAt? q) = some q := by
  have hparent := h.parentPath?_eq_some_iff.mpr ⟨rfl, hq⟩
  cases hid : f.idAt? q with
  | none => rwa [hid] at hparent
  | some x =>
    rw [hid] at hparent
    exact hkept x hparent

theorem exists_parentPath? (h : ∀ x, parent = some x → x ∈ f.ids) :
    ∃ q, f.parentPath? parent = some q := by
  cases parent with
  | none => exact ⟨Path.root, rfl⟩
  | some x => exact Option.isSome_iff_exists.mp (isSome_pathOf?_iff.mpr (h x rfl))

/-! ## Children -/

/-- A row under the item at a path is about one of its children. -/
theorem mem_items_of_parent_eq {above : Option InstanceId} (nodup : f.ids.Nodup)
    (hfind : f.find? p = some (item, children)) (hrow : row ∈ placements above f)
    (hparent : row.parent = some item.id) (habove : above ≠ some item.id) :
    row.item ∈ children.items := by
  induction f generalizing p above with
  | nil => cases hfind
  | cons first below rest ihc ihr =>
    rw [ids_cons, List.nodup_cons, List.nodup_append] at nodup
    obtain ⟨hfirst, hbelow, hrest, hdisjoint⟩ := nodup
    cases p with
    | nil => cases hfind
    | cons n p =>
      -- each row but those at the item has another parent, so the row is among those
      rcases List.mem_cons.mp hrow with rfl | hrow
      · exact absurd hparent habove
      by_cases hn : first.name = n
      · cases p with
        | nil =>
          rw [find?_cons_single hn] at hfind
          cases hfind
          rcases List.mem_append.mp hrow with hrow | hrow
          · refine mem_items_of_mem_placements (fun x hx heq => ?_) hrow hparent
            exact hfirst (Option.some.inj heq ▸ List.mem_append_left _ hx)
          · refine absurd hparent (parent_ne_of_mem hrow habove fun h => ?_)
            exact hfirst (List.mem_append_right _ h)
        | cons m p =>
          rw [find?_cons_of_eq hn] at hfind
          have hmem := mem_ids_of_find? hfind
          rcases List.mem_append.mp hrow with hrow | hrow
          · refine ihc hbelow hfind hrow fun heq => ?_
            exact hfirst (Option.some.inj heq ▸ List.mem_append_left _ hmem)
          · refine absurd hparent (parent_ne_of_mem hrow habove fun h => ?_)
            exact hdisjoint _ hmem _ h rfl
      · rw [find?_cons_of_ne hn] at hfind
        have hmem := mem_ids_of_find? hfind
        rcases List.mem_append.mp hrow with hrow | hrow
        · refine absurd hparent (parent_ne_of_mem hrow (fun heq => ?_) fun h => ?_)
          · exact hfirst (Option.some.inj heq ▸ List.mem_append_right _ hmem)
          · exact hdisjoint _ h _ hmem rfl
        · exact ihr hrest hfind hrow habove

/-- The rows under the id at a path are those of the children there. -/
theorem WellFormed.mem_items_iff (h : f.WellFormed) (hq : f.childrenAt? q = some children) :
    item ∈ children.items ↔ ⟨f.idAt? q, item⟩ ∈ f.table := by
  refine ⟨mem_table_of_mem_items hq, fun hrow => ?_⟩
  cases q with
  | nil =>
    obtain rfl := Option.some.inj hq
    rw [idAt?, find?_root] at hrow
    exact mem_items_of_mem_placements (fun _ _ heq => by cases heq) hrow rfl
  | cons n q =>
    obtain ⟨⟨above, below⟩, hfind, rfl⟩ := Option.map_eq_some_iff.mp hq
    refine mem_items_of_parent_eq (WellFormed.nodup_ids h) hfind hrow ?_ (fun heq => by cases heq)
    rw [idAt?, hfind]
    rfl

/-! ## Upwards -/

/-- A set of ids that has the parents of its members. -/
def UpClosed (f : Forest) (s : InstanceId → Prop) : Prop :=
  ∀ row ∈ f.table, s row.id → ∀ parent, row.parent = some parent → s parent

/-- What stands on the way down to a member of an upwards closed set is a member too. -/
theorem WellFormed.mem_of_prefix (h : f.WellFormed) {s : InstanceId → Prop} (hs : f.UpClosed s)
    {above : InstanceId} (hq : pathOf? id f = some q) (hid : s id) (hp : f.idAt? p = some above)
    (hpq : p <+: q) : s above := by
  induction hn : q.length generalizing q id with
  | zero =>
    obtain rfl := List.length_eq_zero_iff.mp hn
    obtain rfl := List.prefix_nil.mp hpq
    rw [idAt?, find?_root] at hp
    cases hp
  | succ n ih =>
    -- one step up the chain of parents keeps the prefix and the membership
    by_cases heq : p = q
    · rw [heq, (h.pathOf?_eq_some_iff).mp hq] at hp
      exact Option.some.inj hp ▸ hid
    · obtain ⟨row, children, hrow, hfind, hrid, hparent, hchild⟩ := h.exists_placed? hq
      have hpq' : p <+: q.parent := by
        rw [hchild] at hpq heq
        rcases List.prefix_concat_iff.mp hpq with hfull | hpq
        · exact absurd hfull heq
        · exact hpq
      have hmem := (h.placed?_eq_some_iff.mp hrow).1
      cases hrp : row.parent with
      | none =>
        rw [hrp] at hparent
        obtain heq' := Option.some.inj hparent
        rw [← heq'] at hpq'
        obtain rfl := List.prefix_nil.mp hpq'
        rw [idAt?, find?_root] at hp
        cases hp
      | some x =>
        rw [hrp] at hparent
        refine ih hparent (hs row hmem (hrid ▸ hid) x hrp) hpq' ?_
        rw [Path.parent, List.length_dropLast, hn]
        rfl

/-- Two forests that give the members of an upwards closed set the same parents and names give them
the same paths. -/
theorem WellFormed.pathOf?_congr (hf : f.WellFormed) (hg : g.WellFormed) {s : InstanceId → Prop}
    (hs : f.UpClosed s)
    (same : ∀ x, s x → (g.placed? x).map Placed.slot = (f.placed? x).map Placed.slot)
    (hp : pathOf? id f = some p) (hid : s id) : pathOf? id g = some p := by
  induction hn : p.length generalizing p id with
  | zero =>
    obtain rfl := List.length_eq_zero_iff.mp hn
    rw [hf.pathOf?_eq_some_iff, idAt?, find?_root] at hp
    cases hp
  | succ n ih =>
    obtain ⟨row, children, hrow, hfind, hrid, hparent, hchild⟩ := hf.exists_placed? hp
    have hslot := same id hid
    rw [hrow, Option.map_some] at hslot
    obtain ⟨row', hrow', hslot⟩ := Option.map_eq_some_iff.mp hslot
    obtain ⟨hparents, hnames⟩ := Prod.ext_iff.mp hslot
    have habove : g.parentPath? row.parent = some p.parent := by
      cases hrp : row.parent with
      | none => rw [hrp] at hparent; exact hparent
      | some x =>
        rw [hrp] at hparent
        refine ih hparent (hs row (hf.placed?_eq_some_iff.mp hrow).1 (hrid ▸ hid) x hrp) ?_
        rw [Path.parent, List.length_dropLast, hn]
        rfl
    rw [← show row'.parent = row.parent from hparents] at habove
    rw [hg.pathOf?_of_placed? hrow' habove, show row'.item.name = row.item.name from hnames,
      ← hchild]

end SharedScene.Forest
