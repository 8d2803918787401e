import SharedScene.Proofs.Scene.Arena.Reachable

/-!
# Structural changes write what belongs to a subtree

In tables a subtree is what a walk down the lists of children finds, and the index rewrites paths by
their beginning. In tables that come about the two say the same (`Arena.StandsAt`).

A rename or a move rewrites in the index the paths of one subtree, where no other instance stands or
will stand, and among the nodes the name and the parent of one instance and at most two lists
(`Arena.Moves`). A delete strikes a subtree from all tables and from one list (`Arena.Removes`).
Both hold of every change that is applied to tables that come about
(`ArenaStore.structural_change_touches_tables`).
-/

namespace SharedScene

open Forest (pathOf? listAfterMove)

namespace Arena

variable {a b : Arena} {f g : Forest} {id x : InstanceId} {p q : Path} {name : String}

/-- An instance and what is below it, as the lists of children lead down to it. -/
def Descends (a : Arena) : InstanceId → InstanceId → Prop :=
  Relation.ReflTransGen fun y x => x ∈ a.children (some y)

/-- The index has an instance at a path, and at that path or below it just those to which the lists
lead down, and which the walk finds. -/
structure StandsAt (a : Arena) (id : InstanceId) (p : Path) : Prop where
  path : a.ids.get? id = some p
  descends_iff : ∀ x r, a.ids.get? x = some r → (a.Descends id x ↔ r = p ∨ r.isBelow p = true)
  mem_subtreeIds_iff : ∀ x, x ∈ a.subtreeIds id ↔
    ∃ r, a.ids.get? x = some r ∧ (r = p ∨ r.isBelow p = true)

/-- Tables in which the instance at `p` and what is below it went under the parent at `q`, as
`name`. -/
structure Moves (a : Arena) (id : InstanceId) (p q : Path) (name : String) (b : Arena) :
    Prop where
  stands : a.StandsAt id p
  /-- Nothing comes or goes, -/
  stored : ∀ x, (b.nodes.get? x).isSome ↔ (a.nodes.get? x).isSome
  /-- the new place was free, unless for the instance itself, -/
  free : ∀ x r, a.ids.get? x = some r → r = q.child name ∨ r.isBelow (q.child name) = true →
    r = p ∨ r.isBelow p = true
  /-- what belongs to the instance goes along, -/
  rebased : ∀ x r, a.ids.get? x = some r → r = p ∨ r.isBelow p = true →
    ∃ t, r = p ++ t ∧ r.rebase? p (q.child name) = some (q.child name ++ t) ∧
      b.ids.get? x = some (q.child name ++ t)
  /-- everything else stays where it is, -/
  kept : ∀ x r, a.ids.get? x = some r → ¬ (r = p ∨ r.isBelow p = true) → b.ids.get? x = some r
  /-- all of it is found at its path, -/
  inverse : b.Inverse
  /-- and nothing else is written than one name, one parent and the lists of two parents, -/
  records : ∀ x node, a.nodes.get? x = some node → b.nodes.get? x = some { node with
    name := if x = id then name else node.name
    parent := if x = id then a.paths.get? q else node.parent
    children := listAfterMove id (a.paths.get? p.parent) (a.paths.get? q) (some x) node.children }
  /-- where the root is a parent as well. -/
  roots : b.roots = listAfterMove id (a.paths.get? p.parent) (a.paths.get? q) none a.roots

/-- Tables without the instance at `p` and what is below it. -/
structure Removes (a : Arena) (id : InstanceId) (p : Path) (b : Arena) : Prop where
  stands : a.StandsAt id p
  /-- What does not belong to the instance is left, -/
  stored : ∀ x, (b.nodes.get? x).isSome ↔
    ∃ r, a.ids.get? x = some r ∧ ¬ (r = p ∨ r.isBelow p = true)
  /-- where it was, and nothing else has a path, -/
  kept : ∀ x r, b.ids.get? x = some r ↔
    a.ids.get? x = some r ∧ ¬ (r = p ∨ r.isBelow p = true)
  /-- all of it is found at its path, -/
  inverse : b.Inverse
  /-- and nothing else is written than the list of the parent, -/
  records : ∀ x node, a.nodes.get? x = some node → (b.nodes.get? x).isSome →
    b.nodes.get? x = some { node with
      children := if some x = a.paths.get? p.parent then
        node.children.filter fun y => decide (y ≠ id) else node.children }
  /-- which may be that of the root. -/
  roots : b.roots = if none = a.paths.get? p.parent then a.roots.filter fun y => decide (y ≠ id)
    else a.roots

/-! ## Tables of forests -/

namespace Stores

theorem mem_subtreeIds_iff (h : a.Stores f) (hf : f.WellFormed) (hid : pathOf? id f = some p) :
    x ∈ a.subtreeIds id ↔ ∃ r, pathOf? x f = some r ∧ (r = p ∨ r.isBelow p = true) := by
  obtain ⟨item, children, hfind, rfl⟩ := Forest.exists_find?_of_pathOf? hf.namesDistinct hid
  have hwalk : a.subtreeIds item.id = item.id :: children.ids :=
    subtreeWithin_eq hf hfind (fun y _ => h.children (some y))
      (h.size hf ▸ Forest.size_lt_of_find? hfind)
  rw [hwalk, hf.mem_node_iff hfind]
  constructor
  · rintro ⟨t, ht⟩
    exact ⟨_, ht, Path.eq_or_isBelow_iff.mpr ⟨t, rfl⟩⟩
  · rintro ⟨r, hr, hbelow⟩
    obtain ⟨t, rfl⟩ := Path.eq_or_isBelow_iff.mp hbelow
    exact ⟨t, hr⟩

theorem standsAt (h : a.Stores f) (hf : f.WellFormed) (hid : f.StandsAt id p) :
    a.StandsAt id p where
  path := (h.path id).trans hid.path
  descends_iff x r hr := by
    rw [h.path] at hr
    unfold Descends
    simp only [h.children]
    exact hid.descends_iff x r hr
  mem_subtreeIds_iff x := by
    simp only [h.path]
    exact h.mem_subtreeIds_iff hf hid.path

/-- What moves in a forest moves in its tables. -/
theorem moves (ha : a.Stores f) (hf : f.WellFormed) (hb : b.Stores g) (hg : g.WellFormed)
    (h : f.Moves id p q name g) : a.Moves id p q name b where
  stands := ha.standsAt hf h.stands
  stored x := by
    rw [hb.node, ha.node, hg.isSome_instance?_iff, hf.isSome_instance?_iff]
    exact h.ids x
  free x r := by
    rw [ha.path]
    exact h.free x r
  rebased x r := by
    rw [ha.path, hb.path]
    exact h.rebased x r
  kept x r := by
    rw [ha.path, hb.path]
    exact h.kept x r
  inverse := hb.inverse hg
  records x node := by
    rw [ha.node, hb.node, ha.id, ha.id]
    exact h.records x node
  roots := by
    rw [ha.roots, hb.roots, ha.id, ha.id]
    exact h.roots

/-- What is removed from a forest is removed from its tables. -/
theorem removes (ha : a.Stores f) (hf : f.WellFormed) (hb : b.Stores g) (hg : g.WellFormed)
    (h : f.Removes id p g) : a.Removes id p b where
  stands := ha.standsAt hf h.stands
  stored x := by
    rw [hb.node, hg.isSome_instance?_iff, h.ids]
    simp only [ha.path]
  kept x r := by
    rw [ha.path, hb.path]
    refine ⟨fun hr => ?_, fun hr => h.kept x r hr.1 hr.2⟩
    obtain ⟨r', hr', hoff⟩ := (h.ids x).mp (Forest.isSome_pathOf?_iff.mp (by rw [hr]; rfl))
    obtain rfl := Option.some.inj (hr.symm.trans (h.kept x r' hr' hoff))
    exact ⟨hr', hoff⟩
  inverse := hb.inverse hg
  records x node := by
    rw [ha.node, hb.node, hg.isSome_instance?_iff, ha.id]
    exact h.records x node
  roots := by
    rw [ha.roots, hb.roots, ha.id]
    exact h.roots

end Stores

end Arena

namespace ArenaStore

variable {t t' : ArenaStore} {message : Message} {origin : Origin} {outcome : Outcome}

/-- What is applied to tables that come about is applied to a store that comes about. -/
theorem Reachable.exists_apply (h : t.Reachable)
    (hrun : (ArenaStore.apply message origin).run t = .ok outcome t') : ∃ s s' : Store,
      s.Reachable ∧ t.arena.Stores s.forest ∧ s.apply message origin = .ok (outcome, s') ∧
      s'.forest.WellFormed ∧ t'.arena.Stores s'.forest := by
  obtain ⟨s, hs, hshows⟩ := h.exists_shows
  obtain ⟨s', ha, hshows'⟩ := (run_apply hshows hs.wellFormed message).exists_of_ok hrun
  exact ⟨s, s', hs, hshows.stores, ha, (hs.apply ha).wellFormed, hshows'.stores⟩

/-- A rename or a move that is applied takes the instance and what is below it to the path that is
reported, and a delete takes them out. Nothing else is written but the lists of the parents. -/
theorem structural_change_touches_tables (h : t.Reachable) (origin : Origin) :
    (∀ p value change t', (apply (.update p nameKey value) origin).run t =
        .ok (.applied change) t' →
      t.arena.Moves change.id p p.parent change.name t'.arena ∧
        change.path = p.parent.child change.name) ∧
    (∀ p q name change t', (apply (.reparent p q name) origin).run t =
        .ok (.applied change) t' →
      t.arena.Moves change.id p q change.name t'.arena ∧ change.path = q.child change.name) ∧
    (∀ p change t', (apply (.delete p) origin).run t = .ok (.applied change) t' →
      t.arena.Removes change.id p t'.arena) := by
  refine ⟨fun p value change t' hrun => ?_, fun p q name change t' hrun => ?_,
    fun p change t' hrun => ?_⟩
  · obtain ⟨s, s', hs, hstores, ha, hs', hstores'⟩ := h.exists_apply hrun
    obtain ⟨hrename, _, _⟩ := Store.structural_change_touches_subtree hs origin
    obtain ⟨hmoves, hpath⟩ := hrename p value change s' ha
    exact ⟨hstores.moves hs.wellFormed hstores' hs' hmoves, hpath⟩
  · obtain ⟨s, s', hs, hstores, ha, hs', hstores'⟩ := h.exists_apply hrun
    obtain ⟨_, hreparent, _⟩ := Store.structural_change_touches_subtree hs origin
    obtain ⟨hmoves, hpath⟩ := hreparent p q name change s' ha
    exact ⟨hstores.moves hs.wellFormed hstores' hs' hmoves, hpath⟩
  · obtain ⟨s, s', hs, hstores, ha, hs', hstores'⟩ := h.exists_apply hrun
    obtain ⟨_, _, hdelete⟩ := Store.structural_change_touches_subtree hs origin
    exact hstores.removes hs.wellFormed hstores' hs' (hdelete p change s' ha)

/-- The tables of a shelf and of a room, each with a box. -/
def furnished : ArenaStore := ((empty (.stemmed "id")).replaceAll Store.furnishedReports).2

/-- The box of the shelf goes to the room as a second box there, and its lid with it; the other box
stays. -/
theorem structural_change_touches_tables_furnished :
    furnished.Reachable ∧ ∃ change t',
      (apply (.reparent ["Shelf", "Box"] ["Room"] none) .agent).run furnished =
        .ok (.applied change) t' ∧
      t'.arena.ids.get? ⟨"c"⟩ = some ["Room", "Box_2", "Lid"] ∧
      t'.arena.paths.get? ["Room", "Box"] = some ⟨"f"⟩ ∧
      (t'.arena.nodes.get? ⟨"a"⟩).map (·.children) = some [⟨"d"⟩] ∧
      (t'.arena.nodes.get? ⟨"e"⟩).map (·.children) = some [⟨"f"⟩, ⟨"b"⟩] := by
  have hreachable : furnished.Reachable := .replaceAll _ (.empty _)
  obtain ⟨change, t', hrun, hname, hid⟩ : ∃ change t',
      (apply (.reparent ["Shelf", "Box"] ["Room"] none) .agent).run furnished =
        .ok (.applied change) t' ∧ change.name = "Box_2" ∧ change.id = ⟨"b"⟩ :=
    ⟨_, _, rfl, by decide +kernel, by decide +kernel⟩
  obtain ⟨_, hreparent, _⟩ := structural_change_touches_tables hreachable .agent
  obtain ⟨hmoves, _⟩ := hreparent _ _ _ change t' hrun
  rw [hname, hid] at hmoves
  have hlists : ∀ x ids, (furnished.arena.nodes.get? x).map (·.children) = some ids →
      (t'.arena.nodes.get? x).map (·.children) =
        some (listAfterMove ⟨"b"⟩ (some ⟨"a"⟩) (some ⟨"e"⟩) (some x) ids) := by
    intro x ids hx
    obtain ⟨node, hnode, rfl⟩ := Option.map_eq_some_iff.mp hx
    rw [hmoves.records x node hnode]
    rfl
  obtain ⟨rest, hrest, _, hpath⟩ := hmoves.rebased ⟨"c"⟩ ["Shelf", "Box", "Lid"]
    (by decide +kernel) (by decide +kernel)
  obtain rfl : ["Lid"] = rest := (List.cons.inj (List.cons.inj hrest).2).2
  refine ⟨hreachable, change, t', hrun, hpath, ?_, ?_, ?_⟩
  · rw [hmoves.inverse]
    exact hmoves.kept ⟨"f"⟩ _ (by decide +kernel) (by decide +kernel)
  · exact hlists ⟨"a"⟩ [⟨"b"⟩, ⟨"d"⟩] (by decide +kernel)
  · exact hlists ⟨"e"⟩ [⟨"f"⟩] (by decide +kernel)

end ArenaStore

end SharedScene
