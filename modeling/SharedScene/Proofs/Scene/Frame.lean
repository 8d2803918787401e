import SharedScene.Proofs.Scene.Applied

/-!
# What a message leaves alone

A message is about one instance. An update, a rename and a move change the row of that instance and
of no other; a delete takes the rows of all that is below as well, and a create leaves every row as
it is (`Store.Changed.placed?_eq`). Where an instance stands depends on the names and parents from
the top down to it. So an instance keeps its path when neither it nor an instance above it is
renamed, moved or deleted (`Store.Changed.pathOf?_eq`). And nothing is added but by a create, under
the parent that it names (`Store.Changed.exists_create`).
-/

namespace SharedScene

/-- A message changes the row of the instance at a path, or takes it out. -/
def Message.Touches : Message → Path → Prop
  | .create _ _, _ => False
  | .update path _ _, p => path = p
  | .delete path, p => path <+: p
  | .reparent path _ _, p => path = p

/-- A message gives the instance at a path another name or another parent, or takes it out. -/
def Message.Displaces : Message → Path → Prop
  | .create _ _, _ => False
  | .update path key _, p => path = p ∧ key = nameKey
  | .delete path, p => path <+: p
  | .reparent path _ _, p => path = p

namespace Forest

variable {f g : Forest} {p q : Path} {item new : Item} {children : Forest} {id : InstanceId}
  {row : Placed} {event : Event} {message : Message}

/-! ## Rows -/

/-- A delete leaves the rows of what stands neither there nor below. -/
theorem WellFormed.placed?_remove (hf : f.WellFormed) (hg : (f.remove p).WellFormed)
    (hq : pathOf? id f = some q) (hpq : ¬ p <+: q) : (f.remove p).placed? id = f.placed? id := by
  obtain ⟨item, children, hfind, rfl⟩ := exists_find?_of_pathOf? hf.namesDistinct hq
  have hparent : ¬ p <+: q.parent := fun h => hpq (h.trans (List.dropLast_prefix q))
  have hitem := map_find?_remove (f := f) hpq
  rw [hfind, Option.map_some] at hitem
  obtain ⟨⟨item', below⟩, hfind', rfl⟩ := Option.map_eq_some_iff.mp hitem
  rw [hg.placed?_of_find? hfind', hf.placed?_of_find? hfind, idAt?_remove hparent]

/-! ## What an event does -/

/-- What an observer makes of an event that fits. -/
theorem replay?_cases (he : f.replay? event = some g) :
    match event with
    | .create _ path record => (f.childrenAt? path.parent).isSome ∧
        g = graft (single record.toItem .nil) f path.parent
    | .update id path key value => f.idAt? path = some id ∧
        ((key = nameKey ∧ ∃ name, (f.childrenAt? path.parent).isSome ∧
            g = f.relocate path path.parent name) ∨
          (key ≠ nameKey ∧ g = modify (Item.withProperty key value) f path))
    | .delete id path => f.idAt? path = some id ∧ g = f.remove path
    | .reparent id path q name => f.idAt? path = some id ∧ ¬ path <+: q ∧
        (f.childrenAt? q).isSome ∧ g = f.relocate path q name := by
  have hparent : ∀ {q : Path} {name : String} {id : InstanceId},
      f.isFree q name id = true → (f.childrenAt? q).isSome := fun h => (Bool.and_eq_true_iff.mp h).1
  cases event with
  | create id path record =>
    simp only [replay?] at he
    split at he
    · next hfits =>
      obtain ⟨_, _, _, _, _, hfree⟩ := hfits
      cases he
      exact ⟨hparent hfree, rfl⟩
    · cases he
  | update id path key value =>
    simp only [replay?, replayRename?] at he
    split at he
    · next hid =>
      refine ⟨hid, ?_⟩
      split at he
      · next hkey =>
        split at he
        · split at he
          · next hfree =>
            cases he
            exact .inl ⟨hkey, _, hparent hfree, rfl⟩
          · cases he
        · cases he
      · next hkey =>
        cases he
        exact .inr ⟨hkey, rfl⟩
    · cases he
  | delete id path =>
    simp only [replay?] at he
    split at he
    · next hid =>
      cases he
      exact ⟨hid, rfl⟩
    · cases he
  | reparent id path q name =>
    simp only [replay?] at he
    split at he
    · next hfits =>
      obtain ⟨hid, hcycle, hfree⟩ := hfits
      rw [Path.isAtOrAbove, List.isPrefixOf_iff_prefix] at hcycle
      cases he
      exact ⟨hid, hcycle, hparent hfree, rfl⟩
    · cases he

/-- An event leaves the rows of the instances that its message does not touch. -/
theorem placed?_of_replay? (hf : f.WellFormed) (hg : g.WellFormed) (he : f.replay? event = some g)
    (hreports : event.ReportsOn message) (hq : pathOf? id f = some q)
    (hmessage : ¬ message.Touches q) : g.placed? id = f.placed? id := by
  have hcases := replay?_cases he
  have hid := hf.pathOf?_eq_some_iff.mp hq
  -- what stands elsewhere is another instance
  have hother : ∀ {path : Path} {item : Item} {children : Forest},
      f.find? path = some (item, children) → path ≠ q → id ≠ item.id := by
    rintro path item children hfind hne rfl
    exact hne (Option.some.inj ((pathOf?_of_find? (WellFormed.nodup_ids hf) hfind).symm.trans hq))
  cases event with
  | create id' path record =>
    obtain ⟨hparent, rfl⟩ := hcases
    exact hf.placed?_graft hg hparent (isSome_pathOf?_iff.mp (by rw [hq]; rfl))
  | update id' path key value =>
    cases message with
    | update path' key' value' =>
      obtain ⟨rfl, rfl⟩ := hreports
      obtain ⟨hat, hcases⟩ := hcases
      obtain ⟨⟨item, children⟩, hfind, rfl⟩ := Option.map_eq_some_iff.mp hat
      rcases hcases with ⟨_, name, hparent, rfl⟩ | ⟨_, rfl⟩
      · rw [hf.placed?_relocate hfind hparent (not_prefix_parent hfind) hg]
        exact if_neg (hother hfind hmessage)
      · rw [hf.placed?_modify hfind rfl hg]
        exact if_neg (hother hfind hmessage)
    | create | delete | reparent => cases hreports
  | delete id' path =>
    cases message with
    | delete path' =>
      obtain rfl := hreports
      obtain ⟨_, rfl⟩ := hcases
      exact hf.placed?_remove hg hq hmessage
    | create | update | reparent => cases hreports
  | reparent id' path newParentPath name =>
    cases message with
    | reparent path' q' name' =>
      obtain ⟨rfl, rfl⟩ := hreports
      obtain ⟨hat, hcycle, hparent, rfl⟩ := hcases
      obtain ⟨⟨item, children⟩, hfind, rfl⟩ := Option.map_eq_some_iff.mp hat
      rw [hf.placed?_relocate hfind hparent hcycle hg]
      exact if_neg (hother hfind hmessage)
    | create | update | delete => cases hreports

/-- An event leaves the parents and names of the instances that its message does not displace. -/
theorem slot_of_replay? (hf : f.WellFormed) (hg : g.WellFormed) (he : f.replay? event = some g)
    (hreports : event.ReportsOn message) (hq : pathOf? id f = some q)
    (hmessage : ¬ message.Displaces q) :
    (g.placed? id).map Placed.slot = (f.placed? id).map Placed.slot := by
  by_cases htouches : message.Touches q
  · -- what is touched without being displaced has a property set
    cases message with
    | update path key value =>
      obtain rfl := show path = q from htouches
      have hkey : key ≠ nameKey := fun hkey => hmessage ⟨rfl, hkey⟩
      cases event with
      | update id' path' key' value' =>
        obtain ⟨rfl, rfl⟩ := hreports
        obtain ⟨item, children, hfind, rfl⟩ := exists_find?_of_pathOf? hf.namesDistinct hq
        rcases (replay?_cases he).2 with ⟨hname, _⟩ | ⟨_, rfl⟩
        · exact absurd hname hkey
        · rw [hf.placed?_modify hfind rfl hg, if_pos rfl, hf.placed?_of_find? hfind]
          rfl
      | create | delete | reparent => cases hreports
    | create => cases htouches
    | delete | reparent => exact absurd htouches hmessage
  · rw [placed?_of_replay? hf hg he hreports hq htouches]

/-- The instances on the way down to a path have their parents on the way. -/
theorem WellFormed.upClosed_prefix (h : f.WellFormed) (q : Path) :
    f.UpClosed fun x => ∃ p, pathOf? x f = some p ∧ p <+: q := by
  rintro row hrow ⟨p, hp, hpq⟩ above habove
  obtain ⟨row', children, hrow', _, _, hparent, _⟩ := h.exists_placed? hp
  obtain rfl := Option.some.inj ((h.placed?_eq_some_iff.mpr ⟨hrow, rfl⟩).symm.trans hrow')
  rw [habove] at hparent
  exact ⟨p.parent, hparent, (List.dropLast_prefix p).trans hpq⟩

/-- An instance keeps its path when neither it nor what is above it is displaced. -/
theorem pathOf?_of_replay? (hf : f.WellFormed) (hg : g.WellFormed) (he : f.replay? event = some g)
    (hreports : event.ReportsOn message) (hq : pathOf? id f = some q)
    (hmessage : ∀ p, p <+: q → ¬ message.Displaces p) : pathOf? id g = some q := by
  refine hf.pathOf?_congr hg (hf.upClosed_prefix q) ?_ hq ⟨q, hq, List.prefix_refl q⟩
  rintro x ⟨p, hp, hpq⟩
  exact slot_of_replay? hf hg he hreports hp (hmessage p hpq)

/-- What an event adds stands under the parent that a create names. -/
theorem exists_create_of_replay? (hg : g.WellFormed) (he : f.replay? event = some g)
    (hreports : event.ReportsOn message) (hnew : id ∉ f.ids) (hrow : g.placed? id = some row) :
    ∃ q new, message = .create q new ∧ (f.childrenAt? q).isSome ∧ row.parent = f.idAt? q := by
  have hcases := replay?_cases he
  obtain ⟨hmem, rfl⟩ := hg.placed?_eq_some_iff.mp hrow
  have hadded : row ∉ f.table := fun hold => hnew (mem_ids_of_mem hold)
  -- where a row takes the place of another one, it has the id of that one
  have hother : ∀ {p : Path} {item : Item} {children : Forest} {x : Placed},
      f.find? p = some (item, children) → x.id = item.id →
      g.table.Perm (x :: (placements (some item.id) children ++ (f.remove p).table)) → False := by
    intro p item children x hfind hid hperm
    rcases List.mem_cons.mp (hperm.mem_iff.mp hmem) with rfl | hrest
    · exact hnew (hid ▸ mem_ids_of_find? hfind)
    · exact hadded ((table_remove hfind).mem_iff.mpr (List.mem_cons_of_mem _ hrest))
  cases event with
  | create id path record =>
    cases message with
    | create q new =>
      obtain rfl := hreports
      obtain ⟨hparent, rfl⟩ := hcases
      refine ⟨path.parent, new, rfl, hparent, ?_⟩
      rcases List.mem_cons.mp ((table_graft _ hparent).mem_iff.mp hmem) with rfl | hold
      · rfl
      · exact absurd hold hadded
    | update | delete | reparent => cases hreports
  | update id path key value =>
    obtain ⟨hat, hcases⟩ := hcases
    obtain ⟨⟨item, children⟩, hfind, _⟩ := Option.map_eq_some_iff.mp hat
    rcases hcases with ⟨_, name, hparent, rfl⟩ | ⟨_, rfl⟩
    · exact (hother hfind rfl (table_relocate hfind hparent (not_prefix_parent hfind) name)).elim
    · exact (hother hfind rfl (table_modify hfind rfl)).elim
  | delete id path =>
    obtain ⟨hat, rfl⟩ := hcases
    obtain ⟨⟨item, children⟩, hfind, _⟩ := Option.map_eq_some_iff.mp hat
    have hrest := List.mem_append_right (placements (some item.id) children) hmem
    exact absurd ((table_remove hfind).mem_iff.mpr (List.mem_cons_of_mem _ hrest)) hadded
  | reparent id path q name =>
    obtain ⟨hat, hcycle, hparent, rfl⟩ := hcases
    obtain ⟨⟨item, children⟩, hfind, _⟩ := Option.map_eq_some_iff.mp hat
    exact (hother hfind rfl (table_relocate hfind hparent hcycle name)).elim

end Forest

namespace Store.Changed

open Forest

variable {s s' : Store} {message : Message} {origin : Origin} {id : InstanceId} {q : Path}

/-- A message leaves the rows of the instances that it does not touch. -/
theorem placed?_eq (h : s.Changed message origin s') (hwf : s.forest.WellFormed)
    (hq : pathOf? id s.forest = some q) (hmessage : ¬ message.Touches q) :
    s'.forest.placed? id = s.forest.placed? id := by
  obtain ⟨event, _, he, hreports⟩ := h.told
  exact placed?_of_replay? hwf h.wellFormed he hreports hq hmessage

/-- A message leaves an instance at its path if it displaces neither it nor what is above it. -/
theorem pathOf?_eq (h : s.Changed message origin s') (hwf : s.forest.WellFormed)
    (hq : pathOf? id s.forest = some q) (hmessage : ∀ p, p <+: q → ¬ message.Displaces p) :
    pathOf? id s'.forest = some q := by
  obtain ⟨event, _, he, hreports⟩ := h.told
  exact pathOf?_of_replay? hwf h.wellFormed he hreports hq hmessage

/-- So a parent that is not displaced is found where it was. -/
theorem parentPath?_eq (h : s.Changed message origin s') (hwf : s.forest.WellFormed)
    (hq : (s.forest.childrenAt? q).isSome) (hmessage : ∀ p, p <+: q → ¬ message.Displaces p) :
    s'.forest.parentPath? (s.forest.idAt? q) = some q :=
  hwf.parentPath?_kept hq fun _ hx => h.pathOf?_eq hwf hx hmessage

/-- A message adds an instance only where it creates one, under the parent that it names. -/
theorem exists_create (h : s.Changed message origin s') (hnew : id ∉ s.forest.ids)
    {row : Placed} (hrow : s'.forest.placed? id = some row) :
    ∃ q new, message = .create q new ∧ (s.forest.childrenAt? q).isSome ∧
      row.parent = s.forest.idAt? q := by
  obtain ⟨event, _, he, hreports⟩ := h.told
  exact exists_create_of_replay? h.wellFormed he hreports hnew hrow

end Store.Changed

end SharedScene
