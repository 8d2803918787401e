import SharedScene.Proofs.Scene.Observer

/-!
# A change of every item

A change of the items alone, which gives none another id or name, leaves all places and paths as
they are. So it may come before or after any operation on a path: the lookups answer as before
(`find?_mapItems`, `isFree_mapItems`), and each edit of the changed forest is the changed forest of
the edit (`modify_mapItems`, `remove_mapItems`, `graft_mapItems`, `relocate_mapItems`).
-/

namespace SharedScene.Forest

/-- The forest with every item changed, in its place. -/
def mapItems (change : Item → Item) : Forest → Forest
  | .nil => .nil
  | .cons item children rest =>
    .cons (change item) (mapItems change children) (mapItems change rest)

section MapItems

variable {f new : Forest} {φ change : Item → Item} {p q : Path}

theorem mapItems_mapItems (f : Forest) (φ ψ : Item → Item) :
    (f.mapItems φ).mapItems ψ = f.mapItems fun item => ψ (φ item) := by
  induction f with
  | nil => rfl
  | cons item children rest ihc ihr => simp only [mapItems, ihc, ihr]

theorem mapItems_append (f g : Forest) (φ : Item → Item) :
    (f.append g).mapItems φ = (f.mapItems φ).append (g.mapItems φ) := by
  induction f with
  | nil => rfl
  | cons item children rest _ ihr => simp only [append, mapItems, ihr]

theorem items_mapItems (f : Forest) (φ : Item → Item) :
    (f.mapItems φ).items = f.items.map φ := by
  induction f with
  | nil => rfl
  | cons item children rest _ ihr => simp only [mapItems, items, List.map_cons, ihr]

/-- A change that leaves the items of a forest leaves the forest. -/
theorem mapItems_of_forall (h : ∀ item ∈ f.preorder, φ item = item) : f.mapItems φ = f := by
  induction f with
  | nil => rfl
  | cons item children rest ihc ihr =>
    rw [preorder, List.forall_mem_cons, List.forall_mem_append] at h
    obtain ⟨hitem, hchildren, hrest⟩ := h
    rw [mapItems, hitem, ihc hchildren, ihr hrest]

section Ids

variable (hid : ∀ item, (φ item).id = item.id)

include hid

theorem ids_mapItems (f : Forest) : (f.mapItems φ).ids = f.ids := by
  induction f with
  | nil => rfl
  | cons item children rest ihc ihr => rw [mapItems, ids_cons, ids_cons, hid, ihc, ihr]

theorem isNone_pathOf?_mapItems (f : Forest) (id : InstanceId) :
    (pathOf? id (f.mapItems φ)).isNone = (pathOf? id f).isNone := by
  have hsome : (pathOf? id (f.mapItems φ)).isSome ↔ (pathOf? id f).isSome := by
    rw [isSome_pathOf?_iff, isSome_pathOf?_iff, ids_mapItems hid]
  rw [← Option.not_isSome, ← Option.not_isSome, Bool.eq_iff_iff.mpr hsome]

end Ids

section Names

variable (hname : ∀ item, (φ item).name = item.name)

include hname

theorem find?_mapItems (f : Forest) (p : Path) :
    (f.mapItems φ).find? p = (f.find? p).map fun node => (φ node.1, node.2.mapItems φ) := by
  induction f generalizing p with
  | nil => rfl
  | cons item children rest ihc ihr =>
    rw [mapItems]
    cases p with
    | nil => rfl
    | cons n p =>
      by_cases hn : item.name = n
      · have hn' : (φ item).name = n := (hname item).trans hn
        cases p with
        | nil =>
          rw [find?_cons_single hn, find?_cons_single hn']
          rfl
        | cons m p => rw [find?_cons_of_eq hn, find?_cons_of_eq hn', ihc]
      · have hn' : (φ item).name ≠ n := fun h => hn ((hname item).symm.trans h)
        rw [find?_cons_of_ne hn, find?_cons_of_ne hn', ihr]

theorem childrenAt?_mapItems (f : Forest) (q : Path) :
    (f.mapItems φ).childrenAt? q = (f.childrenAt? q).map (mapItems φ) := by
  cases q with
  | nil => rfl
  | cons n q =>
    rw [childrenAt?_cons, childrenAt?_cons, find?_mapItems hname, Option.map_map, Option.map_map]
    rfl

/-- A change at a path, which does to the item there the same before and after. -/
theorem modify_mapItems
    (hcommutes : ∀ item children, f.find? p = some (item, children) →
      φ (change item) = change (φ item)) :
    (modify change f p).mapItems φ = modify change (f.mapItems φ) p := by
  induction f generalizing p with
  | nil => rfl
  | cons item children rest ihc ihr =>
    rw [mapItems]
    cases p with
    | nil => rfl
    | cons n p =>
      by_cases hn : item.name = n
      · have hn' : (φ item).name = n := (hname item).trans hn
        cases p with
        | nil =>
          rw [modify_cons_single _ hn, modify_cons_single _ hn', mapItems,
            hcommutes item children (find?_cons_single hn)]
        | cons m p =>
          rw [modify_cons_of_eq _ hn, modify_cons_of_eq _ hn', mapItems, ihc]
          intro found below hfind
          exact hcommutes found below ((find?_cons_of_eq hn).trans hfind)
      · have hn' : (φ item).name ≠ n := fun h => hn ((hname item).symm.trans h)
        rw [modify_cons_of_ne _ hn, modify_cons_of_ne _ hn', mapItems, ihr]
        intro found below hfind
        exact hcommutes found below ((find?_cons_of_ne hn).trans hfind)

theorem remove_mapItems (f : Forest) (p : Path) :
    (f.remove p).mapItems φ = (f.mapItems φ).remove p := by
  induction f generalizing p with
  | nil => rfl
  | cons item children rest ihc ihr =>
    rw [mapItems]
    cases p with
    | nil => rfl
    | cons n p =>
      by_cases hn : item.name = n
      · have hn' : (φ item).name = n := (hname item).trans hn
        cases p with
        | nil => rw [remove_cons_single hn, remove_cons_single hn']
        | cons m p => rw [remove_cons_of_eq hn, remove_cons_of_eq hn', mapItems, ihc]
      · have hn' : (φ item).name ≠ n := fun h => hn ((hname item).symm.trans h)
        rw [remove_cons_of_ne hn, remove_cons_of_ne hn', mapItems, ihr]

theorem graft_mapItems (new f : Forest) (q : Path) :
    (graft new f q).mapItems φ = graft (new.mapItems φ) (f.mapItems φ) q := by
  induction f generalizing q with
  | nil => cases q <;> rfl
  | cons item children rest ihc ihr =>
    cases q with
    | nil => exact mapItems_append (.cons item children rest) new φ
    | cons n q =>
      rw [mapItems]
      by_cases hn : item.name = n
      · have hn' : (φ item).name = n := (hname item).trans hn
        rw [graft_cons_of_eq _ hn, graft_cons_of_eq _ hn', mapItems, ihc]
      · have hn' : (φ item).name ≠ n := fun h => hn ((hname item).symm.trans h)
        rw [graft_cons_of_ne _ hn, graft_cons_of_ne _ hn', mapItems, ihr]

theorem relocate_mapItems (f : Forest) (p q : Path) (name : String)
    (hrenamed : ∀ item : Item, φ (item.renamed name) = (φ item).renamed name) :
    (f.relocate p q name).mapItems φ = (f.mapItems φ).relocate p q name := by
  unfold relocate
  split
  · exact modify_mapItems hname fun item _ _ => hrenamed item
  · rw [find?_mapItems hname]
    cases f.find? p with
    | none => rfl
    | some node =>
      obtain ⟨item, children⟩ := node
      dsimp only [Option.map_some]
      rw [graft_mapItems hname, remove_mapItems hname, single, mapItems, hrenamed]
      rfl

end Names

section Both

variable (hid : ∀ item, (φ item).id = item.id) (hname : ∀ item, (φ item).name = item.name)

include hid hname

theorem idAt?_mapItems (f : Forest) (p : Path) : (f.mapItems φ).idAt? p = f.idAt? p := by
  rw [idAt?, idAt?, find?_mapItems hname, Option.map_map]
  exact congrArg (fun g => (f.find? p).map g) (funext fun node => hid node.1)

theorem siblingNames_mapItems (f : Forest) (q : Path) (id : InstanceId) :
    Store.siblingNames (f.mapItems φ) q id = Store.siblingNames f q id := by
  unfold Store.siblingNames
  rw [childrenAt?_mapItems hname]
  cases f.childrenAt? q with
  | none => rfl
  | some children =>
    simp only [Option.map_some, items_mapItems, List.filter_map, List.map_map]
    simp only [Function.comp_def, hid, hname]

theorem isFree_mapItems (f : Forest) (q : Path) (name : String) (id : InstanceId) :
    (f.mapItems φ).isFree q name id = f.isFree q name id := by
  rw [isFree, isFree, siblingNames_mapItems hid hname, childrenAt?_mapItems hname,
    Option.isSome_map]

end Both

end MapItems

end SharedScene.Forest
