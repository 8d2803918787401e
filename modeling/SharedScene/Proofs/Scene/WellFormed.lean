import SharedScene.Proofs.Scene.Table

/-!
# Well-formed forests

A forest is **well-formed** when no id stands twice in it, no two siblings share a name, and no key
that addresses the record stands among the properties. Each part speaks of the rows of the table
and none of their order, so a permutation of the table keeps them; an edit of one row keeps them
when the new row does (`Sound.cons_iff`).

In a well-formed forest paths and ids are two names of one thing: `pathOf?` and `idAt?` are inverse
to each other (`WellFormed.pathOf?_eq_some_iff`), an id has one row, and the row names the parent
at whose path the path begins (`WellFormed.exists_placed?`).
-/

namespace SharedScene.Forest

/-- Rows that a well-formed forest can have. -/
structure Sound (rows : List Placed) : Prop where
  nodup_ids : (rows.map Placed.id).Nodup
  nodup_slots : (rows.map Placed.slot).Nodup
  unreserved : ∀ row ∈ rows, ∀ key ∈ row.item.properties.keys, isReservedKey key = false

/-- No id twice, no two siblings of one name, no reserved key among the properties. -/
abbrev WellFormed (f : Forest) : Prop := Sound f.table

namespace Sound

variable {rows more : List Placed} {row row' : Placed}

theorem perm (h : Sound rows) (hp : more.Perm rows) : Sound more where
  nodup_ids := (hp.map Placed.id).nodup_iff.mpr h.nodup_ids
  nodup_slots := (hp.map Placed.slot).nodup_iff.mpr h.nodup_slots
  unreserved := fun r hr => h.unreserved r (hp.mem_iff.mp hr)

theorem sublist (h : Sound rows) (hs : more.Sublist rows) : Sound more where
  nodup_ids := h.nodup_ids.sublist (hs.map Placed.id)
  nodup_slots := h.nodup_slots.sublist (hs.map Placed.slot)
  unreserved := fun r hr => h.unreserved r (hs.subset hr)

/-- One more row is sound when its id and its slot are new and its properties are unreserved. -/
theorem cons_iff : Sound (row :: rows) ↔
    (∀ r ∈ rows, r.id ≠ row.id) ∧ (∀ r ∈ rows, r.slot ≠ row.slot) ∧
      (∀ key ∈ row.item.properties.keys, isReservedKey key = false) ∧ Sound rows := by
  constructor
  · intro h
    have hids := List.nodup_cons.mp h.nodup_ids
    have hslots := List.nodup_cons.mp h.nodup_slots
    refine ⟨fun r hr heq => hids.1 ?_, fun r hr heq => hslots.1 ?_,
      h.unreserved row List.mem_cons_self, h.sublist (List.sublist_cons_self row rows)⟩
    · exact heq ▸ List.mem_map_of_mem hr
    · exact heq ▸ List.mem_map_of_mem hr
  · rintro ⟨hids, hslots, hkeys, h⟩
    refine ⟨List.nodup_cons.mpr ⟨fun hmem => ?_, h.nodup_ids⟩,
      List.nodup_cons.mpr ⟨fun hmem => ?_, h.nodup_slots⟩, ?_⟩
    · obtain ⟨r, hr, heq⟩ := List.mem_map.mp hmem
      exact hids r hr heq
    · obtain ⟨r, hr, heq⟩ := List.mem_map.mp hmem
      exact hslots r hr heq
    · intro r hr
      rcases List.mem_cons.mp hr with rfl | hr
      · exact hkeys
      · exact h.unreserved r hr

theorem eq_of_id_eq (h : Sound rows) (hr : row ∈ rows) (hr' : row' ∈ rows)
    (heq : row.id = row'.id) : row = row' :=
  List.inj_on_of_nodup_map h.nodup_ids hr hr' heq

theorem eq_of_slot_eq (h : Sound rows) (hr : row ∈ rows) (hr' : row' ∈ rows)
    (heq : row.slot = row'.slot) : row = row' :=
  List.inj_on_of_nodup_map h.nodup_slots hr hr' heq

end Sound

theorem WellFormed.nodup_ids {f : Forest} (h : f.WellFormed) : f.ids.Nodup := by
  rw [← map_id_placements none f]
  exact Sound.nodup_ids h

theorem wellFormed_nil : WellFormed .nil :=
  ⟨List.nodup_nil, List.nodup_nil, fun _ h => absurd h List.not_mem_nil⟩

/-! ## Distinct names, level by level -/

/-- At every level no two nodes share a name. -/
def NamesDistinct : Forest → Prop
  | .nil => True
  | .cons item children rest =>
    item.name ∉ rest.names ∧ NamesDistinct children ∧ NamesDistinct rest

theorem namesDistinct_of_sound {parent : Option InstanceId} {f : Forest}
    (h : Sound (placements parent f)) : NamesDistinct f := by
  induction f generalizing parent with
  | nil => trivial
  | cons item children rest ihc ihr =>
    obtain ⟨_, hslots, _, hrows⟩ := Sound.cons_iff.mp h
    refine ⟨fun hmem => ?_, ihc (hrows.sublist (List.sublist_append_left _ _)),
      ihr (hrows.sublist (List.sublist_append_right _ _))⟩
    obtain ⟨other, hother, hname⟩ := List.mem_map.mp hmem
    have hrow : (⟨parent, other⟩ : Placed) ∈ placements parent rest :=
      mem_placements_of_mem_items hother
    refine hslots _ (List.mem_append_right _ hrow) ?_
    rw [Placed.slot, Placed.slot, hname]

theorem WellFormed.namesDistinct {f : Forest} (h : f.WellFormed) : NamesDistinct f :=
  namesDistinct_of_sound h

/-! ## What a path leads to -/

section Following

variable {f : Forest} {p q : Path} {item : Item} {children : Forest} {id : InstanceId}

/-- A path ends with the name of the item that stands there. -/
theorem eq_child_of_find? (h : f.find? p = some (item, children)) :
    p = Path.child p.parent item.name := by
  induction f generalizing p with
  | nil => cases h
  | cons first below rest ihc ihr =>
    cases p with
    | nil => cases h
    | cons n p =>
      by_cases hn : first.name = n
      · cases p with
        | nil =>
          rw [find?_cons_single hn] at h
          cases h
          rw [hn]
          rfl
        | cons m p =>
          rw [find?_cons_of_eq hn] at h
          exact congrArg (n :: ·) (ihc h)
      · rw [find?_cons_of_ne hn] at h
        exact ihr h

/-- No instance stands above itself. -/
theorem not_prefix_parent (h : f.find? p = some (item, children)) : ¬ p <+: p.parent := by
  intro hprefix
  have hle := hprefix.length_le
  rw [Path.parent, List.length_dropLast] at hle
  cases p with
  | nil => rw [find?_root] at h; cases h
  | cons n p =>
    rw [List.length_cons] at hle
    omega

/-- An item stands among the children at the path of its parent. -/
theorem exists_childrenAt?_parent (h : f.find? p = some (item, children)) :
    ∃ siblings, f.childrenAt? p.parent = some siblings ∧ item ∈ siblings.items := by
  induction f generalizing p with
  | nil => cases h
  | cons first below rest ihc ihr =>
    cases p with
    | nil => cases h
    | cons n p =>
      by_cases hn : first.name = n
      · cases p with
        | nil =>
          rw [find?_cons_single hn] at h
          cases h
          exact ⟨_, rfl, List.mem_cons_self⟩
        | cons m p =>
          rw [find?_cons_of_eq hn] at h
          obtain ⟨siblings, hs, hmem⟩ := ihc h
          refine ⟨siblings, ?_, hmem⟩
          rw [Path.parent, List.dropLast_cons_cons, childrenAt?_cons_of_eq hn]
          exact hs
      · rw [find?_cons_of_ne hn] at h
        obtain ⟨siblings, hs, hmem⟩ := ihr h
        cases p with
        | nil =>
          obtain rfl := Option.some.inj hs
          exact ⟨_, rfl, List.mem_cons_of_mem _ hmem⟩
        | cons m p =>
          refine ⟨siblings, ?_, hmem⟩
          rw [Path.parent, List.dropLast_cons_cons, childrenAt?_cons_of_ne hn]
          exact hs

theorem mem_table_of_find? (h : f.find? p = some (item, children)) :
    ⟨f.idAt? p.parent, item⟩ ∈ f.table :=
  (table_remove h).mem_iff.mpr List.mem_cons_self

theorem mem_table_of_mem_items (hq : f.childrenAt? q = some children) (h : item ∈ children.items) :
    ⟨f.idAt? q, item⟩ ∈ f.table := by
  cases q with
  | nil =>
    obtain rfl := Option.some.inj hq
    rw [idAt?, find?_root]
    exact mem_placements_of_mem_items h
  | cons n q =>
    obtain ⟨⟨parent, below⟩, hfind, rfl⟩ := Option.map_eq_some_iff.mp hq
    refine (table_remove hfind).mem_iff.mpr (List.mem_cons_of_mem _ (List.mem_append_left _ ?_))
    rw [idAt?, hfind]
    exact mem_placements_of_mem_items h

theorem isSome_pathOf?_iff : (pathOf? id f).isSome ↔ id ∈ f.ids := by
  induction f with
  | nil => simp [pathOf?, ids, preorder]
  | cons first below rest ihc ihr =>
    rw [ids_cons, List.mem_cons, List.mem_append, ← ihc, ← ihr, pathOf?]
    by_cases hid : first.id = id
    · simp [hid]
    · cases pathOf? id below <;> simp [hid, Ne.symm hid]

/-- A path begins with the name of an item of the topmost level. -/
theorem head_mem_names_of_find? {n : String} (h : f.find? (n :: p) = some (item, children)) :
    n ∈ f.names := by
  induction f with
  | nil => cases h
  | cons first below rest _ ihr =>
    by_cases hn : first.name = n
    · exact List.mem_cons.mpr (.inl hn.symm)
    · rw [find?_cons_of_ne hn] at h
      exact List.mem_cons_of_mem _ (ihr h)

/-- With distinct names the path of an instance leads to it. -/
theorem exists_find?_of_pathOf? (names : NamesDistinct f) (h : pathOf? id f = some p) :
    ∃ item children, f.find? p = some (item, children) ∧ item.id = id := by
  induction f generalizing p with
  | nil => cases h
  | cons first below rest ihc ihr =>
    obtain ⟨hfresh, hbelow, hrest⟩ := names
    rw [pathOf?] at h
    split at h
    · next hid =>
      cases h
      exact ⟨first, below, find?_cons_single rfl, hid⟩
    · next hid =>
      cases hb : pathOf? id below with
      | some p' =>
        rw [hb] at h
        cases h
        obtain ⟨item, children, hfind, heq⟩ := ihc hbelow hb
        cases p' with
        | nil => rw [find?_root] at hfind; cases hfind
        | cons m p' => exact ⟨item, children, by rw [find?_cons_of_eq rfl, hfind], heq⟩
      | none =>
        rw [hb] at h
        obtain ⟨item, children, hfind, heq⟩ := ihr hrest h
        cases p with
        | nil => rw [find?_root] at hfind; cases hfind
        | cons n p =>
          -- the first node has another name, else it would share one with a later sibling
          have hn : first.name ≠ n := fun hn => hfresh (hn ▸ head_mem_names_of_find? hfind)
          exact ⟨item, children, by rw [find?_cons_of_ne hn, hfind], heq⟩

theorem mem_ids_of_find? (h : f.find? p = some (item, children)) : item.id ∈ f.ids :=
  mem_ids_of_mem (mem_table_of_find? h)

/-- With distinct ids the path that leads to an instance is its path. -/
theorem pathOf?_of_find? (nodup : f.ids.Nodup) (h : f.find? p = some (item, children)) :
    pathOf? item.id f = some p := by
  induction f generalizing p with
  | nil => cases h
  | cons first below rest ihc ihr =>
    rw [ids_cons, List.nodup_cons, List.nodup_append] at nodup
    obtain ⟨hfirst, hbelow, hrest, hdisjoint⟩ := nodup
    cases p with
    | nil => cases h
    | cons n p =>
      by_cases hn : first.name = n
      · cases p with
        | nil =>
          rw [find?_cons_single hn] at h
          cases h
          rw [pathOf?, if_pos rfl, hn]
        | cons m p =>
          rw [find?_cons_of_eq hn] at h
          have hid : first.id ≠ item.id := fun heq =>
            hfirst (heq ▸ List.mem_append_left _ (mem_ids_of_find? h))
          rw [pathOf?, if_neg hid, ihc hbelow h, hn]
      · rw [find?_cons_of_ne hn] at h
        have hmem := mem_ids_of_find? h
        have hid : first.id ≠ item.id := fun heq => hfirst (heq ▸ List.mem_append_right _ hmem)
        have hnone : pathOf? item.id below = none := by
          rw [← Option.not_isSome_iff_eq_none, isSome_pathOf?_iff]
          exact fun hb => hdisjoint _ hb _ hmem rfl
        rw [pathOf?, if_neg hid, hnone]
        exact ihr hrest h

end Following

end SharedScene.Forest
