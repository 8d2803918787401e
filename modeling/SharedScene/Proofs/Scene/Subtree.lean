import Mathlib.Logic.Relation
import SharedScene.Proofs.Scene.Children
import SharedScene.Proofs.Scene.Frame
import SharedScene.Proofs.Scene.History

/-!
# Structural changes touch their subtree alone

What belongs to an instance can be told in two ways: by the lists of children that lead down from
it, and by the paths that begin with its own. In a well-formed forest both tell the same
(`WellFormed.descends_iff`).

A rename or a move takes that subtree from one path to another (`Moves`), where nothing else stands:
the paths of its instances begin with the new one and go on as before, and no other path changes. Of
what is stored, the name and the parent of the one instance change, and under another parent the two
lists that it leaves and joins. A delete takes the subtree out and changes one list (`Removes`).
Both hold of every change that is applied to a store that comes about
(`Store.structural_change_touches_subtree`).
-/

namespace SharedScene

namespace Forest

variable {f g : Forest} {p q r t : Path} {n name : String} {item : Item} {children : Forest}
  {x y : InstanceId} {row : Placed}

/-! ## One level down -/

theorem pathOf?_ne_root (x : InstanceId) (f : Forest) : pathOf? x f ≠ some [] := by
  induction f with
  | nil => exact fun h => by cases h
  | cons first below rest _ ihr =>
    rw [pathOf?]
    split
    · exact fun h => by cases h
    · split
      · exact fun h => by cases h
      · exact ihr

/-- A child stands at the path of its parent and its own name. -/
theorem WellFormed.pathOf?_child (h : f.WellFormed) (hy : pathOf? y f = some p)
    (hrow : f.placed? x = some row) (hparent : row.parent = some y) :
    pathOf? x f = some (p.child row.item.name) :=
  h.pathOf?_of_placed? hrow (by rw [hparent, parentPath?, hy])

theorem ne_nil_of_pathOf? (h : pathOf? x f = some p) : p ≠ [] :=
  fun hp => pathOf?_ne_root x f (hp ▸ h)

/-- What stands further down stands under something there. -/
theorem WellFormed.exists_parent (h : f.WellFormed) (hp : p ≠ [])
    (hx : pathOf? x f = some (p ++ (t ++ [n]))) :
    ∃ row z, f.placed? x = some row ∧ row.parent = some z ∧ row.item.name = n ∧
      pathOf? z f = some (p ++ t) := by
  obtain ⟨row, _, hrow, _, _, habove, hchild⟩ := h.exists_placed? hx
  rw [Path.parent, ← List.append_assoc, List.dropLast_concat] at habove hchild
  have hname : row.item.name = n := by
    have := List.append_cancel_left hchild
    exact (List.singleton_inj.mp this).symm
  cases hparent : row.parent with
  | none =>
    rw [hparent] at habove
    have hnil : p ++ t = [] := (Option.some.inj habove).symm
    exact absurd (List.append_eq_nil_iff.mp hnil).1 hp
  | some z =>
    rw [hparent] at habove
    exact ⟨row, z, hrow, hparent, hname, habove⟩

/-- What is on the way down to an instance is an instance. -/
theorem WellFormed.exists_pathOf?_of_prefix (h : f.WellFormed) (hp : p ≠ [])
    (hx : pathOf? x f = some (p ++ t)) : ∃ z, pathOf? z f = some p := by
  induction t using List.reverseRecOn generalizing x with
  | nil => exact ⟨x, by rw [hx, List.append_nil]⟩
  | append_singleton t n ih =>
    obtain ⟨_, _, _, _, _, hz⟩ := h.exists_parent hp hx
    exact ih hz

/-! ## Subtrees -/

/-- An instance and what is below it, as the lists of children lead down to it. -/
def Descends (f : Forest) : InstanceId → InstanceId → Prop :=
  Relation.ReflTransGen fun y x => x ∈ f.childIds (some y)

/-- The lists of children lead from an instance to what stands at its path and below it. -/
theorem WellFormed.descends_iff (h : f.WellFormed) (hy : pathOf? y f = some p)
    (hx : pathOf? x f = some r) : f.Descends y x ↔ ∃ t, r = p ++ t := by
  constructor
  · intro hdown
    induction hdown generalizing r with
    | refl => exact ⟨[], by rw [List.append_nil, Option.some.inj (hy.symm.trans hx)]⟩
    | tail _ hchild ih =>
      obtain ⟨row, hrow, hparent⟩ := Option.map_eq_some_iff.mp (h.mem_childIds_iff.mp hchild)
      obtain ⟨_, _, _, _, habove, _⟩ := h.exists_pathOf? hrow
      rw [hparent, parentPath?] at habove
      obtain ⟨t, ht⟩ := ih habove
      rw [h.pathOf?_child habove hrow hparent, ht] at hx
      exact ⟨t ++ [row.item.name], by rw [← Option.some.inj hx, Path.child, List.append_assoc]⟩
  · rintro ⟨t, rfl⟩
    induction t using List.reverseRecOn generalizing x with
    | nil =>
      rw [List.append_nil, h.pathOf?_eq_some_iff] at hx
      rw [h.pathOf?_eq_some_iff, hx] at hy
      exact Option.some.inj hy ▸ .refl
    | append_singleton t n ih =>
      obtain ⟨row, z, hrow, hparent, _, hz⟩ := h.exists_parent (ne_nil_of_pathOf? hy) hx
      refine (ih hz).tail (h.mem_childIds_iff.mpr ?_)
      rw [hrow, Option.map_some, hparent]

theorem not_prefix_of_off (h : ¬ (r = p ∨ r.isBelow p = true)) : ¬ p <+: r := by
  rintro ⟨t, rfl⟩
  exact h (Path.eq_or_isBelow_iff.mpr ⟨t, rfl⟩)

/-- An instance stands at a path, and what it leads down to stands there or below. -/
structure StandsAt (f : Forest) (id : InstanceId) (p : Path) : Prop where
  path : pathOf? id f = some p
  descends_iff : ∀ x r, pathOf? x f = some r → (f.Descends id x ↔ r = p ∨ r.isBelow p = true)

theorem WellFormed.standsAt (h : f.WellFormed) (hp : pathOf? x f = some p) : f.StandsAt x p where
  path := hp
  descends_iff _ _ hr := by rw [h.descends_iff hp hr, Path.eq_or_isBelow_iff]

/-- Following a path on from a node is following the rest of it among the children there. -/
theorem find?_append (h : f.find? p = some (item, children)) (n : String) (t : Path) :
    f.find? (p ++ n :: t) = children.find? (n :: t) := by
  induction f generalizing p with
  | nil => cases h
  | cons first below rest ihc ihr =>
    cases p with
    | nil => cases h
    | cons m p =>
      by_cases hm : first.name = m
      · cases p with
        | nil =>
          rw [find?_cons_single hm] at h
          cases h
          exact find?_cons_of_eq hm
        | cons k p =>
          rw [find?_cons_of_eq hm] at h
          exact (find?_cons_of_eq hm).trans (ihc h)
      · rw [find?_cons_of_ne hm] at h
        exact (find?_cons_of_ne hm).trans (ihr h)

/-- The instances of a node are those at its path and below. -/
theorem WellFormed.mem_node_iff (h : f.WellFormed) (hfind : f.find? p = some (item, children)) :
    x ∈ item.id :: children.ids ↔ ∃ t, pathOf? x f = some (p ++ t) := by
  have nodup := WellFormed.nodup_ids h
  constructor
  · intro hx
    rcases List.mem_cons.mp hx with rfl | hx
    · exact ⟨[], by rw [List.append_nil, pathOf?_of_find? nodup hfind]⟩
    · have hbelow : Sound (placements (some item.id) children) :=
        (Sound.perm h (table_remove hfind).symm).sublist
          ((List.sublist_append_left _ _).trans (List.sublist_cons_self _ _))
      obtain ⟨t, ht⟩ := Option.isSome_iff_exists.mp (isSome_pathOf?_iff.mpr hx)
      obtain ⟨other, below, hother, rfl⟩ :=
        exists_find?_of_pathOf? (namesDistinct_of_sound hbelow) ht
      cases t with
      | nil => exact absurd ht (pathOf?_ne_root _ _)
      | cons n t =>
        rw [← find?_append hfind] at hother
        exact ⟨n :: t, pathOf?_of_find? nodup hother⟩
  · rintro ⟨t, ht⟩
    obtain ⟨other, below, hother, rfl⟩ := exists_find?_of_pathOf? h.namesDistinct ht
    cases t with
    | nil =>
      rw [List.append_nil, hfind] at hother
      cases hother
      exact List.mem_cons_self
    | cons n t =>
      rw [find?_append hfind] at hother
      exact List.mem_cons_of_mem _ (mem_ids_of_find? hother)

/-! ## A subtree at another path -/

/-- An instance elsewhere takes along what is below it: the paths go on behind its own as before. -/
theorem WellFormed.pathOf?_rebased (hf : f.WellFormed) (hg : g.WellFormed)
    (hy : pathOf? y f = some p) (hy' : pathOf? y g = some q)
    (same : ∀ z, z ≠ y → g.placed? z = f.placed? z) (hx : pathOf? x f = some (p ++ t)) :
    pathOf? x g = some (q ++ t) := by
  induction t using List.reverseRecOn generalizing x with
  | nil =>
    rw [List.append_nil, hf.pathOf?_eq_some_iff] at hx
    rw [hf.pathOf?_eq_some_iff, hx] at hy
    rw [Option.some.inj hy, List.append_nil, hy']
  | append_singleton t n ih =>
    obtain ⟨row, z, hrow, hparent, rfl, hz⟩ := hf.exists_parent (ne_nil_of_pathOf? hy) hx
    have hne : x ≠ y := by
      rintro rfl
      have hlength := congrArg List.length (Option.some.inj (hy.symm.trans hx))
      simp at hlength
    rw [hg.pathOf?_child (ih hz) ((same x hne).trans hrow) hparent, Path.child, List.append_assoc]

/-- What is neither at a path nor below it stays where it is when rows change there alone. -/
theorem WellFormed.pathOf?_kept (hf : f.WellFormed) (hg : g.WellFormed)
    (same : ∀ z r, pathOf? z f = some r → ¬ p <+: r → g.placed? z = f.placed? z)
    (hx : pathOf? x f = some r) (hr : ¬ p <+: r) : pathOf? x g = some r := by
  refine hf.pathOf?_congr hg (hf.upClosed_prefix r) ?_ hx ⟨r, hx, List.prefix_refl r⟩
  rintro z ⟨s, hz, hs⟩
  rw [same z s hz fun hp => hr (hp.trans hs)]

/-- An instance goes to a place that was free, unless for what is below itself: another instance
there would stay, and then two would stand at one path. -/
theorem WellFormed.prefix_of_kept (hf : f.WellFormed) (hg : g.WellFormed)
    (hy : pathOf? y f = some p) (hy' : pathOf? y g = some q)
    (hkept : ∀ x r, pathOf? x f = some r → ¬ p <+: r → pathOf? x g = some r)
    (hx : pathOf? x f = some (q ++ t)) : p <+: q ++ t := by
  by_contra hoff
  have hoff' : ¬ p <+: q := fun hpre => hoff (hpre.trans (List.prefix_append q t))
  obtain ⟨z, hz⟩ := hf.exists_pathOf?_of_prefix (ne_nil_of_pathOf? hy') hx
  have hz' := hkept z q hz hoff'
  rw [hg.pathOf?_eq_some_iff] at hz' hy'
  obtain rfl := Option.some.inj (hz'.symm.trans hy')
  exact hoff' (Option.some.inj (hy.symm.trans hz) ▸ List.prefix_refl p)

/-- What the list of a parent `x` becomes when `id` goes from `old` to `new`. -/
def listAfterMove (id : InstanceId) (old new x : Option InstanceId) (ids : List InstanceId) :
    List InstanceId :=
  if old = new then ids
  else if x = old then ids.filter fun y => decide (y ≠ id)
  else if x = new then ids ++ [id]
  else ids

/-- A forest in which the instance at `p` and what is below it went under the parent at `q`, as
`name`. -/
structure Moves (f : Forest) (id : InstanceId) (p q : Path) (name : String) (g : Forest) :
    Prop where
  stands : f.StandsAt id p
  /-- Nothing comes or goes, -/
  ids : ∀ x, x ∈ g.ids ↔ x ∈ f.ids
  /-- the new place was free, unless for the instance itself, -/
  free : ∀ x r, pathOf? x f = some r → r = q.child name ∨ r.isBelow (q.child name) = true →
    r = p ∨ r.isBelow p = true
  /-- what belongs to the instance goes along, -/
  rebased : ∀ x r, pathOf? x f = some r → r = p ∨ r.isBelow p = true →
    ∃ t, r = p ++ t ∧ r.rebase? p (q.child name) = some (q.child name ++ t) ∧
      pathOf? x g = some (q.child name ++ t)
  /-- everything else stays where it is, -/
  kept : ∀ x r, pathOf? x f = some r → ¬ (r = p ∨ r.isBelow p = true) → pathOf? x g = some r
  /-- and nothing else is written than its name and its parent and the lists of two parents, -/
  records : ∀ x r, f.instance? x = some r → g.instance? x = some { r with
    name := if x = id then name else r.name
    parent := if x = id then f.idAt? q else r.parent
    children := listAfterMove id (f.idAt? p.parent) (f.idAt? q) (some x) r.children }
  /-- where the root is a parent as well. -/
  roots : g.topIds = listAfterMove id (f.idAt? p.parent) (f.idAt? q) none f.topIds

/-- The instance itself is a child of the new parent. -/
theorem Moves.path (h : f.Moves x p q name g) : pathOf? x g = some (q.child name) := by
  obtain ⟨t, ht, _, hpath⟩ := h.rebased x p h.stands.path (.inl rfl)
  obtain rfl := List.self_eq_append_right.mp ht
  rwa [List.append_nil] at hpath

/-- The path where there are children is that of one parent. -/
theorem WellFormed.idAt?_inj (h : f.WellFormed) (hp : (f.childrenAt? p).isSome)
    (hq : (f.childrenAt? q).isSome) : f.idAt? p = f.idAt? q ↔ p = q := by
  refine ⟨fun heq => ?_, fun heq => heq ▸ rfl⟩
  have hp' := h.parentPath?_eq_some_iff.mpr ⟨rfl, hp⟩
  rw [h.parentPath?_eq_some_iff.mpr ⟨heq.symm, hq⟩] at hp'
  exact (Option.some.inj hp').symm

/-- The lists of children after a node was put under a parent. -/
theorem WellFormed.childIds_relocate (h : f.WellFormed) (hg : (f.relocate p q name).WellFormed)
    (hfind : f.find? p = some (item, children)) (hq : (f.childrenAt? q).isSome) (hpq : ¬ p <+: q)
    (x : Option InstanceId) : (f.relocate p q name).childIds x =
      listAfterMove item.id (f.idAt? p.parent) (f.idAt? q) x (f.childIds x) := by
  obtain ⟨siblings, hsiblings, _⟩ := exists_childrenAt?_parent hfind
  have hinj := h.idAt?_inj (p := p.parent) (by rw [hsiblings]; rfl) hq
  rw [listAfterMove]
  by_cases hparent : p.parent = q
  · rw [if_pos (hinj.mpr hparent), h.childIds_relocate_of_eq hg hfind hparent]
  · have hne : f.idAt? p.parent ≠ f.idAt? q := fun heq => hparent (hinj.mp heq)
    rw [if_neg hne, h.childIds_relocate_of_ne hg hfind hq hpq hparent]
    by_cases hold : x = f.idAt? p.parent
    · rw [if_pos hold, if_neg (fun hx => hne (hold.symm.trans hx.symm)), List.append_nil]
    · rw [if_neg hold, h.filter_childIds hfind hold]
      by_cases hnew : x = f.idAt? q
      · rw [if_pos hnew, if_pos hnew.symm]
      · rw [if_neg hnew, if_neg (Ne.symm hnew), List.append_nil]

/-- The records after a node was put under a parent. -/
theorem WellFormed.instance?_relocate (h : f.WellFormed) (hg : (f.relocate p q name).WellFormed)
    (hfind : f.find? p = some (item, children)) (hq : (f.childrenAt? q).isSome) (hpq : ¬ p <+: q)
    {record : Instance} (hrecord : f.instance? x = some record) :
    (f.relocate p q name).instance? x = some { record with
      name := if x = item.id then name else record.name
      parent := if x = item.id then f.idAt? q else record.parent
      children := listAfterMove item.id (f.idAt? p.parent) (f.idAt? q) (some x)
        record.children } := by
  have hlist := h.childIds_relocate hg hfind hq hpq (some x)
  have hold : f.childIds (some x) = record.children := by rw [childIds, hrecord]
  rw [hold] at hlist
  obtain ⟨row, hrow, rfl⟩ := Option.map_eq_some_iff.mp ((h.instance?_eq x).symm.trans hrecord)
  rw [hg.instance?_eq, hlist, h.placed?_relocate hfind hq hpq hg]
  by_cases hx : x = item.id
  · rw [hx, h.placed?_of_find? hfind] at hrow
    obtain rfl := Option.some.inj hrow
    simp only [if_pos hx]
    rfl
  · simp only [if_neg hx]
    rw [hrow]
    rfl

/-- The node at a path, put under a parent that is not below it. -/
theorem WellFormed.moves_relocate (h : f.WellFormed) (hg : (f.relocate p q name).WellFormed)
    (hfind : f.find? p = some (item, children)) (hq : (f.childrenAt? q).isSome)
    (hpq : ¬ p <+: q) : f.Moves item.id p q name (f.relocate p q name) := by
  have hp := pathOf?_of_find? (WellFormed.nodup_ids h) hfind
  have hrows := h.placed?_relocate hfind hq hpq hg
  have same : ∀ z, z ≠ item.id → (f.relocate p q name).placed? z = f.placed? z :=
    fun z hz => (hrows z).trans (if_neg hz)
  have hkept : ∀ x r, pathOf? x f = some r → ¬ p <+: r →
      pathOf? x (f.relocate p q name) = some r := by
    refine fun x r => h.pathOf?_kept hg fun z s hz hs => same z ?_
    rintro rfl
    exact hs (Option.some.inj (hp.symm.trans hz) ▸ List.prefix_refl p)
  have hp' : pathOf? item.id (f.relocate p q name) = some (q.child name) :=
    hg.pathOf?_of_placed? ((hrows item.id).trans (if_pos rfl))
      (h.parentPath?_kept hq fun z hz => hkept z q hz hpq)
  refine ⟨h.standsAt hp, fun x => ?_, fun x r hr hat => ?_, fun x r hr hbelow => ?_,
    fun x r hr hoff => hkept x r hr (not_prefix_of_off hoff),
    fun x r hr => h.instance?_relocate hg hfind hq hpq hr,
    h.childIds_relocate hg hfind hq hpq none⟩
  · rw [← isSome_placed?_iff, ← isSome_placed?_iff, hrows]
    split
    · next hx => rw [hx, h.placed?_of_find? hfind]; rfl
    · rfl
  · obtain ⟨t, rfl⟩ := Path.eq_or_isBelow_iff.mp hat
    by_contra hoff
    exact not_prefix_of_off hoff (h.prefix_of_kept hg hp hp' hkept hr)
  · obtain ⟨t, rfl⟩ := Path.eq_or_isBelow_iff.mp hbelow
    exact ⟨t, rfl, Path.rebase?_append p t _, h.pathOf?_rebased hg hp hp' same hr⟩

/-! ## A subtree taken out -/

/-- A forest without the instance at `p` and what is below it. -/
structure Removes (f : Forest) (id : InstanceId) (p : Path) (g : Forest) : Prop where
  stands : f.StandsAt id p
  /-- What does not belong to the instance is left, -/
  ids : ∀ x, x ∈ g.ids ↔ ∃ r, pathOf? x f = some r ∧ ¬ (r = p ∨ r.isBelow p = true)
  /-- where it was, -/
  kept : ∀ x r, pathOf? x f = some r → ¬ (r = p ∨ r.isBelow p = true) → pathOf? x g = some r
  /-- and nothing else is written than the list of the parent, -/
  records : ∀ x r, f.instance? x = some r → x ∈ g.ids → g.instance? x = some { r with
    children := if some x = f.idAt? p.parent then r.children.filter fun y => decide (y ≠ id)
      else r.children }
  /-- which may be that of the root. -/
  roots : g.topIds = if none = f.idAt? p.parent then f.topIds.filter fun y => decide (y ≠ id)
    else f.topIds

theorem WellFormed.mem_ids_remove_iff (h : f.WellFormed)
    (hfind : f.find? p = some (item, children)) : x ∈ (f.remove p).ids ↔
      ∃ r, pathOf? x f = some r ∧ ¬ (r = p ∨ r.isBelow p = true) := by
  obtain ⟨_, _, hdisjoint⟩ := nodup_node (WellFormed.nodup_ids h) hfind
  have hmem := (ids_perm_remove hfind).mem_iff (a := x)
  constructor
  · intro hx
    obtain ⟨r, hr⟩ := Option.isSome_iff_exists.mp
      (isSome_pathOf?_iff.mpr (hmem.mpr (List.mem_append_right _ hx)))
    refine ⟨r, hr, fun hbelow => ?_⟩
    obtain ⟨t, rfl⟩ := Path.eq_or_isBelow_iff.mp hbelow
    exact hdisjoint x ((h.mem_node_iff hfind).mpr ⟨t, hr⟩) hx
  · rintro ⟨r, hr, hoff⟩
    rcases List.mem_append.mp (hmem.mp (isSome_pathOf?_iff.mp (by rw [hr]; rfl))) with hx | hx
    · obtain ⟨t, ht⟩ := (h.mem_node_iff hfind).mp hx
      exact absurd (Path.eq_or_isBelow_iff.mpr ⟨t, Option.some.inj (hr.symm.trans ht)⟩) hoff
    · exact hx

/-- What is left without a node. -/
theorem WellFormed.removes_remove (h : f.WellFormed) (hfind : f.find? p = some (item, children)) :
    f.Removes item.id p (f.remove p) := by
  have hg := h.remove hfind
  have hp := pathOf?_of_find? (WellFormed.nodup_ids h) hfind
  have hrest : ∀ x ∈ (f.remove p).ids, ∀ y ∈ item.id :: children.ids, x ≠ y := by
    rintro x hx y hy rfl
    exact (nodup_node (WellFormed.nodup_ids h) hfind).2.2 x hy hx
  have hlist : ∀ x, (∀ y ∈ item.id :: children.ids, x ≠ some y) → (f.remove p).childIds x =
      if x = f.idAt? p.parent then (f.childIds x).filter fun y => decide (y ≠ item.id)
      else f.childIds x := by
    intro x hx
    rw [h.childIds_remove hfind hx]
    split
    · rfl
    · next hparent => exact h.filter_childIds hfind hparent
  refine ⟨h.standsAt hp, fun x => h.mem_ids_remove_iff hfind, fun x r hr hoff => ?_,
    fun x r hr hx => ?_, hlist none fun _ _ heq => by cases heq⟩
  · exact h.pathOf?_kept hg (fun z s hz hs => h.placed?_remove hg hz hs) hr
      (not_prefix_of_off hoff)
  · have hchildren := hlist (some x) fun y hy heq => hrest x hx y hy (Option.some.inj heq)
    have hr' : f.childIds (some x) = r.children := by rw [childIds, hr]
    rw [hr'] at hchildren
    obtain ⟨s, hs, hoff⟩ := (h.mem_ids_remove_iff hfind).mp hx
    have hrow := h.placed?_remove hg hs (not_prefix_of_off hoff)
    obtain ⟨row, hrow', rfl⟩ := Option.map_eq_some_iff.mp ((h.instance?_eq x).symm.trans hr)
    rw [hg.instance?_eq, hchildren, hrow, hrow']
    rfl

end Forest

namespace Store

open Forest

variable {s s' : Store} {origin : Origin} {p q : Path} {change : Applied}

/-! ## Changes that are applied -/

theorem moves_of_rename (h : s.forest.WellFormed) {value : Value}
    (ha : s.update p nameKey value origin = .ok (.applied change, s')) :
    s.forest.Moves change.id p p.parent change.name s'.forest ∧
      change.path = p.parent.child change.name := by
  obtain ⟨item, children, hfind, ⟨_, desired, hrename⟩ | ⟨hkey, _⟩⟩ := update_eq_ok ha
  · have hg := (update_changed h ha).wellFormed
    obtain ⟨siblings, hsiblings, _⟩ := exists_childrenAt?_parent hfind
    obtain ⟨_, heq, rfl⟩ := rename_eq_ok hrename
    cases heq
    refine ⟨h.moves_relocate hg hfind ?_ (not_prefix_parent hfind), rfl⟩
    rw [hsiblings]
    rfl
  · cases hkey

theorem moves_of_reparent (h : s.forest.WellFormed) {name : Option String}
    (ha : s.reparent p q name origin = .ok (.applied change, s')) :
    s.forest.Moves change.id p q change.name s'.forest ∧ change.path = q.child change.name := by
  have hg := (reparent_changed h ha).wellFormed
  obtain ⟨item, children, hfind, hq, hpq, _, heq, rfl⟩ := reparent_eq_ok ha
  cases heq
  exact ⟨h.moves_relocate hg hfind hq hpq, rfl⟩

theorem removes_of_delete (h : s.forest.WellFormed)
    (ha : s.delete p origin = .ok (.applied change, s')) :
    s.forest.Removes change.id p s'.forest := by
  obtain ⟨item, children, hfind, heq, rfl⟩ := delete_eq_ok ha
  cases heq
  exact h.removes_remove hfind

/-- A rename or a move that is applied takes the instance and what is below it to the path that is
reported, and a delete takes them out. Nothing else changes but the lists of the parents. -/
theorem structural_change_touches_subtree (h : s.Reachable) (origin : Origin) :
    (∀ p value change s', s.apply (.update p nameKey value) origin = .ok (.applied change, s') →
      s.forest.Moves change.id p p.parent change.name s'.forest ∧
        change.path = p.parent.child change.name) ∧
    (∀ p q name change s', s.apply (.reparent p q name) origin = .ok (.applied change, s') →
      s.forest.Moves change.id p q change.name s'.forest ∧ change.path = q.child change.name) ∧
    (∀ p change s', s.apply (.delete p) origin = .ok (.applied change, s') →
      s.forest.Removes change.id p s'.forest) :=
  ⟨fun _ _ _ _ ha => moves_of_rename h.wellFormed ha,
    fun _ _ _ _ _ ha => moves_of_reparent h.wellFormed ha,
    fun _ _ _ ha => removes_of_delete h.wellFormed ha⟩

/-- A shelf with a box, in which there is a lid, and with a bin; and a room that has a box too. -/
def furnishedReports : List Report :=
  [⟨⟨"a"⟩, "Folder", "Shelf", none, .empty⟩, ⟨⟨"b"⟩, "Part", "Box", some ⟨"a"⟩, .empty⟩,
    ⟨⟨"c"⟩, "Part", "Lid", some ⟨"b"⟩, .empty⟩, ⟨⟨"d"⟩, "Part", "Bin", some ⟨"a"⟩, .empty⟩,
    ⟨⟨"e"⟩, "Folder", "Room", none, .empty⟩, ⟨⟨"f"⟩, "Part", "Box", some ⟨"e"⟩, .empty⟩]

def furnished : Store := ((empty (.stemmed "id")).replaceAll furnishedReports).2

end Store

end SharedScene
