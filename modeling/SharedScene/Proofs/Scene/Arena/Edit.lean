import SharedScene.Proofs.Scene.Arena.Walk

/-!
# Edits of an arena

Every edit of an arena that stores a forest leaves an arena that stores the edited forest:
`Stores.insert`, `Stores.removeSubtree?`, `Stores.relocate?` and `Stores.modify`.

The index is written one entry after the other. In between, some ids are **off** it: their paths no
longer lead to them (`InverseBut`). Writing a subtree anew first takes all of it off and then puts
each id back at its new path, and no entry of another instance is lost on the way, since at no time
two ids that are on the index have one path (`index_of_moves`).
-/

namespace SharedScene

namespace Forest

variable {f g : Forest} {p q t : Path} {item : Item} {children : Forest} {id x : InstanceId}
  {name : String}

/-- All ids of a forest are closed upwards. -/
theorem upClosed_ids (f : Forest) : f.UpClosed (· ∈ f.ids) := by
  intro row hrow _ above habove
  rcases parent_of_mem hrow with hnone | ⟨id, hid, hparent⟩
  · rw [habove] at hnone
    cases hnone
  · rw [habove] at hparent
    exact Option.some.inj hparent ▸ hid

/-- With a new instance everything else stays where it is. -/
theorem WellFormed.pathOf?_graft (hf : f.WellFormed)
    (hg : (Forest.graft (single item .nil) f q).WellFormed) (hq : (f.childrenAt? q).isSome)
    (x : InstanceId) : pathOf? x (Forest.graft (single item .nil) f q) =
      if x = item.id then some (q.child item.name) else pathOf? x f := by
  have hkept : ∀ y r, pathOf? y f = some r →
      pathOf? y (Forest.graft (single item .nil) f q) = some r := fun y r hr =>
    hf.pathOf?_congr hg f.upClosed_ids (fun z hz => by rw [hf.placed?_graft hg hq hz]) hr
      (isSome_pathOf?_iff.mp (by rw [hr]; rfl))
  split
  · next hx =>
    rw [hx]
    exact hg.pathOf?_of_placed? (hg.placed?_eq_some_iff.mpr
      ⟨(table_graft item hq).mem_iff.mpr List.mem_cons_self, rfl⟩)
      (hf.parentPath?_kept hq fun y hy => hkept y q hy)
  · next hx =>
    cases hr : pathOf? x f with
    | some r => exact hkept x r hr
    | none =>
      rw [← Option.not_isSome_iff_eq_none, isSome_pathOf?_iff, ← isSome_placed?_iff,
        hf.placed?_graft_of_ne hg hq hx, isSome_placed?_iff, ← isSome_pathOf?_iff, hr]
      exact Bool.false_ne_true

/-- Where an item is changed that keeps its name, everything stays where it is. -/
theorem WellFormed.pathOf?_modify (hf : f.WellFormed) {change : Item → Item}
    (hg : (Forest.modify change f p).WellFormed) (hfind : f.find? p = some (item, children))
    (hid : (change item).id = item.id) (hname : (change item).name = item.name)
    (x : InstanceId) : pathOf? x (Forest.modify change f p) = pathOf? x f := by
  have hrows := hf.placed?_modify hfind hid hg
  have hslots : ∀ y, ((Forest.modify change f p).placed? y).map Placed.slot =
      (f.placed? y).map Placed.slot := by
    intro y
    rw [hrows]
    split
    · next hy =>
      rw [hy, hf.placed?_of_find? hfind, Option.map_some, Option.map_some, Placed.slot,
        Placed.slot, hname]
    · rfl
  cases hr : pathOf? x f with
  | some r =>
    exact hf.pathOf?_congr hg f.upClosed_ids (fun y _ => hslots y) hr
      (isSome_pathOf?_iff.mp (by rw [hr]; rfl))
  | none =>
    have hnone : ¬ (f.placed? x).isSome := by
      rw [isSome_placed?_iff, ← isSome_pathOf?_iff, hr]
      exact Bool.false_ne_true
    rw [← Option.not_isSome_iff_eq_none, isSome_pathOf?_iff, ← isSome_placed?_iff,
      ← Option.isSome_map (f := Placed.slot), hslots, Option.isSome_map]
    exact hnone

/-- What is neither a node nor below it is left when the node is taken out. -/
theorem WellFormed.mem_ids_remove (h : f.WellFormed) (hfind : f.find? p = some (item, children)) :
    x ∈ (f.remove p).ids ↔ x ∉ item.id :: children.ids ∧ x ∈ f.ids := by
  obtain ⟨_, _, hdisjoint⟩ := nodup_node (WellFormed.nodup_ids h) hfind
  rw [(ids_perm_remove hfind).mem_iff, List.mem_append]
  exact ⟨fun hx => ⟨fun hnode => hdisjoint x hnode hx, .inr hx⟩,
    fun ⟨hnode, hx⟩ => hx.resolve_left hnode⟩

/-- The paths without a node. -/
theorem WellFormed.pathOf?_remove (h : f.WellFormed) (hfind : f.find? p = some (item, children))
    (x : InstanceId) : pathOf? x (f.remove p) =
      if x ∈ item.id :: children.ids then none else pathOf? x f := by
  have hnone : ∀ {g : Forest}, x ∉ g.ids → pathOf? x g = none := fun hx =>
    Option.not_isSome_iff_eq_none.mp (isSome_pathOf?_iff.not.mpr hx)
  have hmem := h.mem_ids_remove hfind (x := x)
  split
  · next hx => exact hnone fun hrest => (hmem.mp hrest).1 hx
  · next hx =>
    cases hr : pathOf? x f with
    | none =>
      refine hnone fun hrest => ?_
      have hids := isSome_pathOf?_iff.mpr (hmem.mp hrest).2
      rw [hr] at hids
      cases hids
    | some r =>
      refine (h.removes_remove hfind).kept x r hr fun hbelow => hx ?_
      obtain ⟨t, rfl⟩ := Path.eq_or_isBelow_iff.mp hbelow
      exact (h.mem_node_iff hfind).mpr ⟨t, hr⟩

/-- The records without a node. -/
theorem WellFormed.instance?_remove (h : f.WellFormed)
    (hfind : f.find? p = some (item, children)) (x : InstanceId) : (f.remove p).instance? x =
      if x ∈ item.id :: children.ids then none
      else (f.instance? x).map fun r => if f.idAt? p.parent = some x
        then { r with children := r.children.filter fun y => decide (y ≠ item.id) } else r := by
  have hnone : ∀ {g : Forest}, g.WellFormed → x ∉ g.ids → g.instance? x = none := fun hg hx =>
    Option.not_isSome_iff_eq_none.mp (hg.isSome_instance?_iff.not.mpr hx)
  have hmem := h.mem_ids_remove hfind (x := x)
  split
  · next hx => exact hnone (h.remove hfind) fun hrest => (hmem.mp hrest).1 hx
  · next hx =>
    cases hr : f.instance? x with
    | none =>
      refine hnone (h.remove hfind) fun hrest => ?_
      have hids := h.isSome_instance?_iff.mpr (hmem.mp hrest).2
      rw [hr] at hids
      cases hids
    | some r =>
      have hids := h.isSome_instance?_iff.mp (by rw [hr]; rfl)
      rw [(h.removes_remove hfind).records x r hr (hmem.mpr ⟨hx, hids⟩), Option.map_some]
      simp only [eq_comm (a := some x)]
      split <;> rfl

/-- What stands below the new path came from below the old one. -/
theorem Moves.came_from (h : f.Moves id p q name g)
    (hx : pathOf? x g = some (q.child name ++ t)) : pathOf? x f = some (p ++ t) := by
  obtain ⟨r, hr⟩ := Option.isSome_iff_exists.mp (isSome_pathOf?_iff.mpr
    ((h.ids x).mp (isSome_pathOf?_iff.mp (by rw [hx]; rfl))))
  by_cases hbelow : r = p ∨ r.isBelow p = true
  · obtain ⟨t', rfl, _, ht'⟩ := h.rebased x r hr hbelow
    rw [List.append_cancel_left (Option.some.inj (hx.symm.trans ht')), hr]
  · obtain rfl := Option.some.inj ((h.kept x r hr hbelow).symm.trans hx)
    exact absurd (h.free x _ hr (Path.eq_or_isBelow_iff.mpr ⟨t, rfl⟩)) hbelow

/-- What does not stand below the new path is where it was. -/
theorem Moves.pathOf?_of_off (h : f.Moves id p q name g)
    (hx : ∀ t, pathOf? x g ≠ some (q.child name ++ t)) : pathOf? x f = pathOf? x g := by
  cases hr : pathOf? x f with
  | none =>
    refine (Option.not_isSome_iff_eq_none.mp fun hsome => ?_).symm
    have hmem := isSome_pathOf?_iff.mpr ((h.ids x).mp (isSome_pathOf?_iff.mp hsome))
    rw [hr] at hmem
    cases hmem
  | some r =>
    by_cases hbelow : r = p ∨ r.isBelow p = true
    · obtain ⟨t, _, _, ht⟩ := h.rebased x r hr hbelow
      exact absurd ht (hx t)
    · exact (h.kept x r hr hbelow).symm

/-- The parent of the instance at a path. -/
theorem WellFormed.parent_of_find? (h : f.WellFormed) (hfind : f.find? p = some (item, children))
    {r : Instance} (hr : f.instance? item.id = some r) : r.parent = f.idAt? p.parent := by
  rw [h.instance?_eq, h.placed?_of_find? hfind] at hr
  exact congrArg Instance.parent (Option.some.inj hr).symm

/-- Those of some ids that stand somewhere, with their paths. -/
def places (g : Forest) (ids : List InstanceId) : List (InstanceId × Path) :=
  ids.filterMap fun x => (pathOf? x g).map (Prod.mk x)

theorem pathOf?_of_mem_places {ids : List InstanceId} {move : InstanceId × Path}
    (h : move ∈ g.places ids) : pathOf? move.1 g = some move.2 := by
  obtain ⟨x, _, hx⟩ := List.mem_filterMap.mp h
  obtain ⟨r, hr, rfl⟩ := Option.map_eq_some_iff.mp hx
  exact hr

theorem mem_keys_places {ids : List InstanceId} (hx : x ∈ ids) (hp : pathOf? x g = some p) :
    x ∈ (g.places ids).map Prod.fst :=
  List.mem_map.mpr ⟨(x, p), List.mem_filterMap.mpr ⟨x, hx, by rw [hp, Option.map_some]⟩, rfl⟩

theorem nodup_keys_places {ids : List InstanceId} (nodup : ids.Nodup) :
    ((g.places ids).map Prod.fst).Nodup :=
  nodup.sublist (SortedMap.keys_filterMap_sublist _ _)

end Forest

namespace Arena

open Forest (pathOf? single topIds)

variable {a b : Arena} {f g : Forest} {id : InstanceId} {p q : Path} {item : Item}
  {children : Forest} {name : String} {off : List InstanceId}

/-! ## The index -/

/-- The two directions of the index are inverse to each other, but for ids that are off it: no path
leads to them. -/
def InverseBut (off : List InstanceId) (a : Arena) : Prop :=
  ∀ p id, a.paths.get? p = some id ↔ a.ids.get? id = some p ∧ id ∉ off

theorem inverseBut_nil : a.InverseBut [] ↔ a.Inverse := by
  simp only [InverseBut, Inverse, List.not_mem_nil, not_false_eq_true, and_true]

@[simp] theorem nodes_unlist : (a.unlist id).nodes = a.nodes := by
  unfold unlist
  split <;> rfl

@[simp] theorem roots_unlist : (a.unlist id).roots = a.roots := by
  unfold unlist
  split <;> rfl

@[simp] theorem ids_unlist : (a.unlist id).ids = a.ids := by
  unfold unlist
  split <;> rfl

theorem get?_paths_unlist (a : Arena) (id : InstanceId) (q : Path) :
    (a.unlist id).paths.get? q =
      if a.ids.get? id = some q then none else a.paths.get? q := by
  unfold unlist
  split
  · next path hpath => simp only [hpath, SortedMap.get?_erase, Option.some.injEq, eq_comm]
  · next hnone => simp only [hnone, reduceCtorEq, if_false]

theorem InverseBut.congr (h : a.InverseBut off) (hpaths : b.paths = a.paths)
    (hids : b.ids = a.ids) : b.InverseBut off := by
  rw [InverseBut, hpaths, hids]
  exact h

/-- A struck path takes its id off the index. -/
theorem InverseBut.unlist (h : a.InverseBut off) (hid : id ∉ off) :
    (a.unlist id).InverseBut (id :: off) := by
  intro q x
  rw [ids_unlist, get?_paths_unlist, List.mem_cons, not_or]
  split
  · next hq =>
    constructor
    · intro hnone
      cases hnone
    · rintro ⟨hx, hne, hoff⟩
      have hboth := ((h q x).mpr ⟨hx, hoff⟩).symm.trans ((h q id).mpr ⟨hq, hid⟩)
      exact absurd (Option.some.inj hboth) hne
  · next hq =>
    rw [h]
    constructor
    · rintro ⟨hx, hoff⟩
      exact ⟨hx, fun heq => hq (heq ▸ hx), hoff⟩
    · rintro ⟨hx, _, hoff⟩
      exact ⟨hx, hoff⟩

/-- An id comes back to the index at a path that no other one on the index has. -/
theorem InverseBut.enlist (h : a.InverseBut (id :: off)) (hid : id ∉ off)
    (hfree : ∀ x, a.ids.get? x = some p → x ∈ id :: off) : (a.enlist id p).InverseBut off := by
  intro q x
  have hold := h q x
  rw [List.mem_cons, not_or] at hold
  show (a.paths.insert p id).get? q = some x ↔ (a.ids.insert id p).get? x = some q ∧ x ∉ off
  rw [SortedMap.get?_insert, SortedMap.get?_insert]
  by_cases hx : x = id
  · obtain rfl := hx
    by_cases hq : q = p
    · simp only [hq, if_true, hid, not_false_eq_true, and_self]
    · rw [if_neg hq, if_pos rfl, hold]
      constructor
      · rintro ⟨_, hne, _⟩
        exact absurd rfl hne
      · rintro ⟨heq, _⟩
        exact absurd (Option.some.inj heq).symm hq
  · rw [if_neg hx]
    by_cases hq : q = p
    · rw [if_pos hq, hq]
      constructor
      · intro heq
        exact absurd (Option.some.inj heq).symm hx
      · rintro ⟨hxp, hoff⟩
        rcases List.mem_cons.mp (hfree x hxp) with heq | hmem
        · exact absurd heq hx
        · exact absurd hmem hoff
    · rw [if_neg hq, hold]
      constructor
      · rintro ⟨hxq, _, hoff⟩
        exact ⟨hxq, hoff⟩
      · rintro ⟨hxq, hoff⟩
        exact ⟨hxq, hx, hoff⟩

theorem Inverse.forget (h : a.Inverse) (id : InstanceId) : (a.forget id).Inverse := by
  intro q x
  have hold := (inverseBut_nil.mpr h).unlist (List.not_mem_nil (a := id)) q x
  rw [ids_unlist, List.mem_singleton] at hold
  show (a.unlist id).paths.get? q = some x ↔ ((a.unlist id).ids.erase id).get? x = some q
  rw [ids_unlist, SortedMap.get?_erase, hold]
  by_cases hx : x = id
  · rw [if_pos hx]
    constructor
    · rintro ⟨_, hne⟩
      exact absurd hx hne
    · intro hnone
      cases hnone
  · rw [if_neg hx]
    exact and_iff_left hx

/-- Struck paths take their ids off the index, one after the other. -/
theorem InverseBut.foldl_unlist {moves : List (InstanceId × Path)}
    (h : a.InverseBut off) (nodup : (moves.map Prod.fst).Nodup)
    (apart : ∀ x ∈ moves.map Prod.fst, x ∉ off) :
    (moves.foldl (fun a move => a.unlist move.1) a).InverseBut
      ((moves.map Prod.fst).reverse ++ off) := by
  induction moves generalizing a off with
  | nil => exact h
  | cons move moves ih =>
    obtain ⟨hhead, hrest⟩ := List.nodup_cons.mp nodup
    have hmove := h.unlist (apart move.1 List.mem_cons_self)
    have hafter := ih hmove hrest fun x hx hmem => by
      rcases List.mem_cons.mp hmem with rfl | hmem
      · exact hhead hx
      · exact apart x (List.mem_cons_of_mem _ hx) hmem
    rw [List.map_cons, List.reverse_cons, List.append_assoc]
    exact hafter

/-- Ids that are off the index come back to it at their paths in a forest. Where the index has
been right for all others, it is right in the end. -/
theorem index_of_moves (hg : g.WellFormed) {moves : List (InstanceId × Path)}
    (nodup : (moves.map Prod.fst).Nodup) (hmoves : ∀ move ∈ moves, pathOf? move.1 g = some move.2)
    (hpath : ∀ x ∉ moves.map Prod.fst, a.ids.get? x = pathOf? x g)
    (h : a.InverseBut (moves.map Prod.fst)) :
    let b := moves.foldl (fun a move => a.enlist move.1 move.2) a
    b.Inverse ∧ ∀ x, b.ids.get? x = pathOf? x g := by
  induction moves generalizing a with
  | nil => exact ⟨inverseBut_nil.mp h, fun x => hpath x List.not_mem_nil⟩
  | cons move moves ih =>
    obtain ⟨id, path⟩ := move
    obtain ⟨hhead, hrest⟩ := List.nodup_cons.mp nodup
    have hid := hmoves (id, path) List.mem_cons_self
    refine ih hrest (fun move hmove => hmoves move (List.mem_cons_of_mem _ hmove)) ?_
      (h.enlist hhead fun x hx => ?_)
    · intro x hx
      show (a.ids.insert id path).get? x = _
      rw [SortedMap.get?_insert]
      split
      · next heq => rw [heq, hid]
      · next hne => exact hpath x fun hmem => (List.mem_cons.mp hmem).elim hne hx
    · by_contra hoff
      have hx' := (hpath x hoff).symm.trans hx
      rw [hg.pathOf?_eq_some_iff] at hid hx'
      exact hoff (List.mem_cons.mpr (.inl (Option.some.inj (hx'.symm.trans hid))))

/-! ## Putting in -/

/-- A new instance under the parent at a path. -/
theorem Stores.insert (h : a.Stores f) (hf : f.WellFormed)
    (hg : (Forest.graft (single item .nil) f q).WellFormed) (hq : (f.childrenAt? q).isSome) :
    let (path, b) := a.insert q (item.toInstance (f.idAt? q) [])
    path = q.child item.name ∧ b.Stores (Forest.graft (single item .nil) f q) := by
  have hnew := Forest.WellFormed.not_mem_ids_of_graft hg hq
  have hnone : a.ids.get? item.id = none := by
    rw [h.path, ← Option.not_isSome_iff_eq_none, Forest.isSome_pathOf?_iff]
    exact hnew
  have hparent : f.idAt? q ≠ some item.id := fun heq => hnew (Forest.mem_ids_of_idAt? heq)
  have hpath := hf.pathOf?_graft hg hq
  refine ⟨rfl, .of_inverse hg (fun x => ?_) ?_ (fun x => ?_) ?_⟩
  · show ((withChildren (· ++ [item.id]) _ (f.idAt? q)).nodes).get? x = _
    rw [get?_nodes_withChildren, SortedMap.get?_insert, hf.instance?_graft hg hq, h.node]
    by_cases hx : x = item.id
    · rw [if_pos (show x = (item.toInstance (f.idAt? q) []).id from hx), if_pos hx, hx,
        Option.map_some, if_neg hparent]
    · rw [if_neg (show x ≠ (item.toInstance (f.idAt? q) []).id from hx), if_neg hx]
      refine congrArg (Option.map · _) (funext fun r => ?_)
      rw [apply_ite (r.children ++ ·), List.append_nil]
      split <;> rfl
  · show (withChildren (· ++ [item.id]) _ (f.idAt? q)).roots = _
    have hroots := hf.childIds_graft hg hq none
    rw [roots_withChildren]
    refine Eq.trans ?_ hroots.symm
    show (if f.idAt? q = none then a.roots ++ [item.id] else a.roots) = f.topIds ++ _
    rw [h.roots]
    split
    · rfl
    · rw [List.append_nil]
  · show ((withChildren _ _ _).ids.insert item.id (q.child item.name)).get? x = _
    rw [ids_withChildren, SortedMap.get?_insert, hpath, h.path]
  · have hoff : a.InverseBut [item.id] := fun p x => by
      rw [h.inverse hf p x, List.mem_singleton]
      refine (and_iff_left_of_imp fun hx heq => ?_).symm
      rw [heq, hnone] at hx
      cases hx
    refine inverseBut_nil.mp (InverseBut.enlist (hoff.congr paths_withChildren ids_withChildren)
      List.not_mem_nil fun x hx => ?_)
    -- the path is that of the new instance, and of no other one
    rw [attach, ids_withChildren, h.path] at hx
    by_contra hne
    have hx' := (hpath x).trans ((if_neg fun heq => hne (List.mem_singleton.mpr heq)).trans hx)
    have hid := (hpath item.id).trans (if_pos rfl)
    rw [hg.pathOf?_eq_some_iff] at hx' hid
    exact hne (List.mem_singleton.mpr (Option.some.inj (hx'.symm.trans hid)))

/-! ## Taking out -/

@[simp] theorem roots_foldl_forget (ids : List InstanceId) (a : Arena) :
    (ids.foldl forget a).roots = a.roots := by
  induction ids generalizing a with
  | nil => rfl
  | cons id ids ih => exact (ih _).trans roots_unlist

/-- A table from which each id is erased when it is forgotten has none of several forgotten ones. -/
theorem get?_foldl_forget {α : Type} (table : Arena → SortedMap InstanceId α)
    (herase : ∀ a id, table (forget a id) = (table a).erase id) (ids : List InstanceId) (a : Arena)
    (x : InstanceId) :
    (table (ids.foldl forget a)).get? x = if x ∈ ids then none else (table a).get? x := by
  induction ids generalizing a with
  | nil => rfl
  | cons id ids ih =>
    rw [List.foldl_cons, ih, herase, SortedMap.get?_erase]
    by_cases hx : x = id
    · simp only [hx, if_true, List.mem_cons_self, ite_self]
    · simp only [List.mem_cons, hx, if_false, false_or]

theorem Inverse.foldl_forget (h : a.Inverse) (ids : List InstanceId) :
    (ids.foldl Arena.forget a).Inverse := by
  induction ids generalizing a with
  | nil => exact h
  | cons id ids ih => exact ih (h.forget id)

/-- An instance goes with all below it. -/
theorem Stores.removeSubtree? (h : a.Stores f) (hf : f.WellFormed)
    (hfind : f.find? p = some (item, children)) :
    ∃ b, a.removeSubtree? item.id =
        some (item.toInstance (f.idAt? p.parent) (f.childIds (some item.id)), b) ∧
      b.Stores (f.remove p) := by
  have hg := hf.remove hfind
  obtain ⟨siblings, hq, hitem⟩ := Forest.exists_childrenAt?_parent hfind
  have hrecord := hf.instance?_of_mem_items hq hitem
  have hnode : a.nodes.get? item.id = _ := (h.node item.id).trans hrecord
  have hparent : ∀ y ∈ item.id :: children.ids, f.idAt? p.parent ≠ some y := fun y hy =>
    Forest.idAt?_ne_of_mem_node (Forest.WellFormed.nodup_ids hf) hfind
      (Forest.not_prefix_parent hfind) hy
  have hdetach : ∀ y, (a.detach item.id (f.idAt? p.parent)).nodes.get? y =
      (f.instance? y).map fun r => if f.idAt? p.parent = some y
        then { r with children := r.children.filter fun x => decide (x ≠ item.id) } else r := by
    intro y
    rw [detach, get?_nodes_withChildren, h.node]
  -- the walk follows the lists of the instances that go, and these are as they were
  have hids : (a.detach item.id (f.idAt? p.parent)).subtreeIds item.id =
      item.id :: children.ids := by
    refine subtreeWithin_eq hf hfind (fun y hy => ?_) ?_
    · have hnode := hdetach y
      simp only [hparent y hy, if_false, Option.map_id'] at hnode
      exact children_of_node hnode
    · rw [size_eq (Forest.WellFormed.nodup_ids hf) fun y => by
        rw [hdetach, Option.isSome_map, hf.isSome_instance?_iff]]
      exact Forest.size_lt_of_find? hfind
  refine ⟨(item.id :: children.ids).foldl forget (a.detach item.id (f.idAt? p.parent)), ?_, ?_⟩
  · rw [Arena.removeSubtree?, hnode]
    show some (_, List.foldl forget _ (Arena.subtreeIds (detach _ _ (f.idAt? p.parent)) _)) = _
    rw [hids]
    rfl
  refine .of_inverse hg (fun y => ?_) ?_ (fun y => ?_) ?_
  · rw [get?_foldl_forget nodes fun a id => by rw [forget, nodes_unlist], hdetach,
      hf.instance?_remove hfind]
  · rw [roots_foldl_forget, (hf.removes_remove hfind).roots, detach, roots_withChildren, h.roots]
    simp only [eq_comm]
  · rw [get?_foldl_forget ids fun a id => by rw [forget, ids_unlist], detach, ids_withChildren,
      h.path, hf.pathOf?_remove hfind]
  · exact Inverse.foldl_forget (fun p x => by
      rw [detach, paths_withChildren, ids_withChildren]; exact h.inverse hf p x) _

/-! ## Moving -/

theorem nodes_reindexSubtree (a : Arena) (id : InstanceId) (p : Path) :
    (a.reindexSubtree id p).nodes = a.nodes ∧ (a.reindexSubtree id p).roots = a.roots := by
  let same (b : Arena) : Prop := b.nodes = a.nodes ∧ b.roots = a.roots
  unfold reindexSubtree
  split
  · exact ⟨rfl, rfl⟩
  · refine List.foldlRecOn _ _ (motive := same) ?_ fun b hb _ _ => hb
    exact List.foldlRecOn _ _ (motive := same) ⟨rfl, rfl⟩
      fun b hb _ _ => ⟨nodes_unlist.trans hb.1, roots_unlist.trans hb.2⟩

@[simp] theorem ids_foldl_unlist (moves : List (InstanceId × Path)) (a : Arena) :
    (moves.foldl (fun a move => a.unlist move.1) a).ids = a.ids := by
  induction moves generalizing a with
  | nil => rfl
  | cons move moves ih => exact (ih _).trans ids_unlist

/-- Rewriting the beginnings of the paths of before gives the paths that are taken. -/
theorem rebased_eq_places (h : a.Stores f) (hg : g.WellFormed) (hmoves : f.Moves id p q name g)
    (hfind : g.find? (q.child name) = some (item, children)) :
    ((item.id :: children.ids).filterMap fun member => do
      let path ← a.ids.get? member
      return (member, ← path.rebase? p (q.child name))) = g.places (item.id :: children.ids) := by
  refine List.filterMap_congr fun x hx => ?_
  obtain ⟨t, ht⟩ := (hg.mem_node_iff hfind).mp hx
  rw [h.path, hmoves.came_from ht, ht]
  show (Path.rebase? _ _ _).bind _ = _
  rw [Path.rebase?_append]
  rfl

/-- When the nodes say already where an instance went, but the index is the one of before, writing
the subtree anew makes it right. -/
theorem Stores.reindexSubtree (h : a.Stores f) (hf : f.WellFormed) (hg : g.WellFormed)
    (hmoves : f.Moves id p q name g) (hnode : ∀ x, b.nodes.get? x = g.instance? x)
    (hroots : b.roots = g.topIds) (hpaths : b.paths = a.paths) (hids : b.ids = a.ids) :
    (b.reindexSubtree id (q.child name)).Stores g := by
  obtain ⟨⟨item, children⟩, hfind, rfl⟩ :=
    Option.map_eq_some_iff.mp (hg.pathOf?_eq_some_iff.mp hmoves.path)
  obtain ⟨hnodes', hroots'⟩ := nodes_reindexSubtree b item.id (q.child name)
  have hsubtree : b.subtreeIds item.id = item.id :: children.ids := by
    refine subtreeWithin_eq hg hfind (fun y _ => children_of_node (hnode y)) ?_
    rw [size_eq (Forest.WellFormed.nodup_ids hg) fun y => by rw [hnode, hg.isSome_instance?_iff]]
    exact Forest.size_lt_of_find? hfind
  let moves := g.places (item.id :: children.ids)
  have nodup : (moves.map Prod.fst).Nodup :=
    Forest.nodup_keys_places (Forest.nodup_node (Forest.WellFormed.nodup_ids hg) hfind).1
  have hwritten : b.reindexSubtree item.id (q.child name) =
      moves.foldl (fun a move => a.enlist move.1 move.2)
        (moves.foldl (fun a move => a.unlist move.1) b) := by
    unfold Arena.reindexSubtree
    rw [hids, h.path, hmoves.stands.path]
    dsimp only
    rw [hsubtree, rebased_eq_places h hg hmoves hfind]
  -- in between, just the subtree is off the index, and the other paths are right
  have hoff : (moves.foldl (fun a move => a.unlist move.1) b).InverseBut (moves.map Prod.fst) := by
    have hstruck := InverseBut.foldl_unlist
      ((inverseBut_nil.mpr (h.inverse hf)).congr hpaths hids) nodup fun _ _ => List.not_mem_nil
    intro p x
    rw [hstruck, List.append_nil, List.mem_reverse]
  have hbefore : ∀ x ∉ moves.map Prod.fst,
      (moves.foldl (fun a move => a.unlist move.1) b).ids.get? x = pathOf? x g := by
    intro x hx
    rw [ids_foldl_unlist, hids, h.path]
    refine hmoves.pathOf?_of_off fun t ht => hx ?_
    exact Forest.mem_keys_places ((hg.mem_node_iff hfind).mpr ⟨t, ht⟩) ht
  obtain ⟨hinverse, hpath⟩ := index_of_moves hg nodup
    (fun _ hmove => Forest.pathOf?_of_mem_places hmove) hbefore hoff
  rw [← hwritten] at hinverse hpath
  exact .of_inverse hg (fun x => by rw [hnodes', hnode]) (hroots'.trans hroots) hpath hinverse

/-- Where an instance is struck from one list and comes last in another one, every list is what it
is after the move. -/
theorem lists_of_move (a : Arena) (id : InstanceId) (old new : Option InstanceId) :
    let b := if old = new then a else (a.detach id old).attach id new
    (∀ x, b.nodes.get? x = (a.nodes.get? x).map fun r =>
      { r with children := Forest.listAfterMove id old new (some x) r.children }) ∧
    b.roots = Forest.listAfterMove id old new none a.roots ∧ b.paths = a.paths ∧
      b.ids = a.ids := by
  by_cases hsame : old = new
  · simp only [Forest.listAfterMove, if_pos hsame, Option.map_id', and_self, implies_true]
  · simp only [Forest.listAfterMove, if_neg hsame]
    refine ⟨fun x => ?_, ?_, ?_, ?_⟩
    · rw [attach, get?_nodes_withChildren, detach, get?_nodes_withChildren, Option.map_map]
      refine congrArg (Option.map · _) (funext fun r => ?_)
      by_cases hold : some x = old
      · rw [if_pos hold, Function.comp_apply, if_pos hold.symm,
          if_neg fun hnew => hsame (hold.symm.trans hnew.symm)]
      · rw [if_neg hold, Function.comp_apply, if_neg (Ne.symm hold)]
        by_cases hnew : some x = new
        · rw [if_pos hnew, if_pos hnew.symm]
        · rw [if_neg hnew, if_neg (Ne.symm hnew)]
    · rw [attach, roots_withChildren, detach, roots_withChildren]
      by_cases hold : none = old
      · rw [if_pos hold, if_pos hold.symm, if_neg fun hnew => hsame (hold.symm.trans hnew.symm)]
      · rw [if_neg hold, if_neg (Ne.symm hold)]
        simp only [eq_comm]
    · rw [attach, paths_withChildren, detach, paths_withChildren]
    · rw [attach, ids_withChildren, detach, ids_withChildren]

/-- An instance is put under a parent, and its name and the index are written: all that a move
does. -/
theorem Stores.move (h : a.Stores f) (hf : f.WellFormed) (hg : g.WellFormed)
    (hmoves : f.Moves id p q name g) :
    let b := if f.idAt? p.parent = f.idAt? q then a
      else (a.detach id (f.idAt? p.parent)).attach id (f.idAt? q)
    ((b.modify (fun node => { node with parent := f.idAt? q, name }) id).reindexSubtree id
      (q.child name)).Stores g := by
  obtain ⟨hnodes, hroots, hpaths, hids⟩ := lists_of_move a id (f.idAt? p.parent) (f.idAt? q)
  refine h.reindexSubtree hf hg hmoves (fun x => ?_) ?_ (paths_modify.trans hpaths)
    (ids_modify.trans hids)
  · rw [get?_nodes_modify, hnodes, h.node]
    cases hr : f.instance? x with
    | none =>
      refine (Option.not_isSome_iff_eq_none.mp fun hsome => ?_).symm
      have hmem := (hmoves.ids x).mp (hg.isSome_instance?_iff.mp hsome)
      have hmem := hf.isSome_instance?_iff.mpr hmem
      rw [hr] at hmem
      cases hmem
    | some r =>
      rw [hmoves.records x r hr, Option.map_some, Option.map_some]
      by_cases hx : x = id
      · simp only [if_pos hx]
      · simp only [if_neg hx]
  · rw [roots_modify, hmoves.roots, ← h.roots]
    exact hroots

/-- Under its own parent an instance is renamed. -/
theorem Stores.rename (h : a.Stores f) (hf : f.WellFormed) (hg : g.WellFormed)
    (hfind : f.find? p = some (item, children)) (hmoves : f.Moves item.id p p.parent name g) :
    ((a.modify (fun node => { node with name }) item.id).reindexSubtree item.id
      (p.parent.child name)).Stores g := by
  have hmove := h.move hf hg hmoves
  dsimp only at hmove
  rw [if_pos rfl] at hmove
  have hsame : a.modify (fun node => { node with parent := f.idAt? p.parent, name }) item.id =
      a.modify (fun node => { node with name }) item.id := by
    unfold modify
    rw [h.node]
    cases hr : f.instance? item.id with
    | none => rfl
    | some r =>
      dsimp only
      rw [← hf.parent_of_find? hfind hr]
  rwa [hsame] at hmove

/-- A move in one call, which tells the new path. -/
theorem Stores.relocate? (h : a.Stores f) (hf : f.WellFormed)
    (hg : (f.relocate p q name).WellFormed) (hfind : f.find? p = some (item, children))
    (hq : (f.childrenAt? q).isSome) (hpq : ¬ p <+: q) :
    ∃ b, a.relocate? item.id (f.idAt? q) name = some (q.child name, b) ∧
      b.Stores (f.relocate p q name) := by
  obtain ⟨siblings, hsiblings, hitem⟩ := Forest.exists_childrenAt?_parent hfind
  have hnode := (h.node item.id).trans (hf.instance?_of_mem_items hsiblings hitem)
  have hparent := (h.parentPath? _).trans (hf.parentPath?_eq_some_iff.mpr ⟨rfl, hq⟩)
  refine ⟨_, ?_, h.move hf hg (hf.moves_relocate hg hfind hq hpq)⟩
  rw [Arena.relocate?, hparent, hnode]
  rfl

/-! ## Changing an item -/

/-- A changed item that keeps its id and its name. -/
theorem Stores.modify (h : a.Stores f) (hf : f.WellFormed) {change : Item → Item}
    (rewrite : Instance → Instance) (hg : (Forest.modify change f p).WellFormed)
    (hfind : f.find? p = some (item, children)) (hid : (change item).id = item.id)
    (hname : (change item).name = item.name) (hrewrite : ∀ parent children,
      rewrite (item.toInstance parent children) = (change item).toInstance parent children) :
    (a.modify rewrite item.id).Stores (Forest.modify change f p) := by
  refine .of_inverse hg (fun x => ?_) ?_ (fun x => ?_) fun p x => ?_
  · rw [get?_nodes_modify, h.node, hf.instance?_modify hg hfind hid]
    cases hr : f.instance? x with
    | none => rfl
    | some r =>
      rw [Option.map_some, Option.map_some]
      split
      · next hx =>
        rw [hx, hf.instance?_eq, hf.placed?_of_find? hfind] at hr
        obtain rfl := Option.some.inj hr
        exact congrArg some (hrewrite _ _)
      · rfl
  · rw [roots_modify, h.roots]
    exact (hf.childIds_modify hg hfind hid none).symm
  · rw [ids_modify, h.path, hf.pathOf?_modify hg hfind hid hname]
  · rw [paths_modify, ids_modify]
    exact h.inverse hf p x

end Arena

end SharedScene
