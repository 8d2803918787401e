import SharedScene.Proofs.Scene.Observer

/-!
# A replica on the side of the bridge

The bridge takes the changes that wait for it and applies each as it says to its own copy of the
scene, a **replica**: the target is what stands at the path, names and values are taken as given, a
new instance and one that gets another parent become the last child, and all others keep their
place. A replica is an observer who is told of changes in the words of a message
(`PendingChange.event?`), and as strict as any other: a change that does not fit its copy is refused
(`Forest.deliver?`).
-/

namespace SharedScene

/-- What a change that waited says to a replica. A create or a reparent without an id or a name of
its own says nothing. -/
def PendingChange.event? (f : Forest) (c : PendingChange) : Option Event :=
  match c.message with
  | .create parentPath new =>
    if new.id = some c.target then
      some (.create c.target (parentPath.child new.name)
        (Item.toInstance ⟨c.target, new.className, new.name, new.properties⟩
          (f.idAt? parentPath) []))
    else none
  | .update path key value => some (.update c.target path key (some value))
  | .delete path => some (.delete c.target path)
  | .reparent path newParentPath (some name) =>
    some (.reparent c.target path newParentPath name)
  | .reparent _ _ none => none

namespace Forest

variable {f g : Forest} {c : PendingChange}

/-- What a replica makes of a change; nothing when the change does not fit. -/
def deliver? (f : Forest) (c : PendingChange) : Option Forest := (c.event? f).bind f.replay?

/-- What a replica makes of several changes, in their order. -/
def deliverAll? (f : Forest) (changes : List PendingChange) : Option Forest :=
  changes.foldlM deliver? f

theorem deliver?_eq_some : f.deliver? c = some g ↔
    ∃ event, c.event? f = some event ∧ f.replay? event = some g :=
  Option.bind_eq_some_iff

theorem deliverAll?_cons (f : Forest) (c : PendingChange) (changes : List PendingChange) :
    f.deliverAll? (c :: changes) = (f.deliver? c).bind fun g => g.deliverAll? changes := rfl

theorem deliverAll?_append (f : Forest) (changes more : List PendingChange) :
    f.deliverAll? (changes ++ more) =
      (f.deliverAll? changes).bind fun g => g.deliverAll? more :=
  List.foldlM_append

/-! ## Ids stay distinct -/

theorem nodup_map_id_table : (f.table.map Placed.id).Nodup ↔ f.ids.Nodup := by
  rw [map_id_placements]

theorem nodup_ids_of_perm {rows : List Placed} (h : g.table.Perm rows)
    (hnodup : (rows.map Placed.id).Nodup) : g.ids.Nodup :=
  nodup_map_id_table.mp ((h.map Placed.id).nodup_iff.mpr hnodup)

section Places

variable {path q : Path} {id : InstanceId} {name : String}

/-- The node at a path, and the rows of the forest around it. -/
theorem exists_find?_of_idAt? (h : f.ids.Nodup) (hid : f.idAt? path = some id) :
    ∃ item children, f.find? path = some (item, children) ∧
      ((⟨f.idAt? path.dropLast, item⟩ :: (placements (some item.id) children ++
        (f.remove path).table)).map Placed.id).Nodup := by
  obtain ⟨⟨item, children⟩, hfind, _⟩ := Option.map_eq_some_iff.mp hid
  have hrows := nodup_map_id_table.mpr h
  exact ⟨item, children, hfind, ((table_remove hfind).map Placed.id).nodup_iff.mp hrows⟩

theorem nodup_ids_relocate (h : f.ids.Nodup) (hid : f.idAt? path = some id)
    (hfree : f.isFree q name id = true) (hcycle : ¬ path <+: q) :
    (f.relocate path q name).ids.Nodup := by
  obtain ⟨item, children, hfind, hnodup⟩ := exists_find?_of_idAt? h hid
  rw [isFree, Bool.and_eq_true] at hfree
  exact nodup_ids_of_perm (table_relocate hfind hfree.1 hcycle name) hnodup

theorem nodup_ids_remove (h : f.ids.Nodup) (hid : f.idAt? path = some id) :
    (f.remove path).ids.Nodup := by
  obtain ⟨item, children, _, hnodup⟩ := exists_find?_of_idAt? h hid
  refine nodup_map_id_table.mp (hnodup.sublist (List.Sublist.map _ ?_))
  exact (List.sublist_append_right _ _).trans (List.sublist_cons_self _ _)

end Places

/-- An event that fits leaves every id in one place. -/
theorem nodup_ids_replay? (h : f.ids.Nodup) {event : Event} (he : f.replay? event = some g) :
    g.ids.Nodup := by
  cases event with
  | create id path record =>
    simp only [replay?] at he
    split at he
    · next hfits =>
      obtain ⟨_, rfl, _, _, habsent, hfree⟩ := hfits
      rw [isFree, Bool.and_eq_true] at hfree
      cases he
      refine nodup_ids_of_perm (table_graft record.toItem hfree.1)
        (List.nodup_cons.mpr ⟨fun hmem => ?_, nodup_map_id_table.mpr h⟩)
      rw [map_id_placements] at hmem
      have hsome : (pathOf? record.id f).isSome := isSome_pathOf?_iff.mpr hmem
      rw [Option.isNone_iff_eq_none.mp habsent] at hsome
      cases hsome
    · cases he
  | update id path key value =>
    simp only [replay?, replayRename?] at he
    split at he
    · next hid =>
      obtain ⟨item, children, hfind, hnodup⟩ := exists_find?_of_idAt? h hid
      split at he
      · split at he
        · split at he
          · next hfree =>
            cases he
            exact nodup_ids_relocate h hid hfree (not_prefix_parent hfind)
          · cases he
        · cases he
      · cases he
        exact nodup_ids_of_perm (table_modify hfind rfl) hnodup
    · cases he
  | delete id path =>
    simp only [replay?] at he
    split at he
    · next hid =>
      cases he
      exact nodup_ids_remove h hid
    · cases he
  | reparent id path q name =>
    simp only [replay?] at he
    split at he
    · next hfits =>
      obtain ⟨hid, hcycle, hfree⟩ := hfits
      rw [Path.isAtOrAbove, List.isPrefixOf_iff_prefix] at hcycle
      cases he
      exact nodup_ids_relocate h hid hfree hcycle
    · cases he

/-- So do changes that are delivered. -/
theorem nodup_ids_deliverAll? (h : f.ids.Nodup) {changes : List PendingChange}
    (hg : f.deliverAll? changes = some g) : g.ids.Nodup := by
  induction changes generalizing f with
  | nil =>
    cases hg
    exact h
  | cons c changes ih =>
    rw [deliverAll?_cons] at hg
    obtain ⟨f', hf', hg⟩ := Option.bind_eq_some_iff.mp hg
    obtain ⟨event, _, he⟩ := deliver?_eq_some.mp hf'
    exact ih (nodup_ids_replay? h he) hg

end Forest

end SharedScene
