import SharedScene.Proofs.Scene.Resync.Moves

/-!
# What does not survive is deleted

The second part of a plan deletes the topmost instances that do not survive, in the order in which
they stand. What is left is the forest with every such node taken out (`prune`). The paths are
those of the forest before the first delete, and each is still right when its turn comes: siblings
have distinct names, so a delete leaves alone what later ones are about (`follow?_deletions`).
Nothing that survives is lost as long as everything above it survives (`placements_prune`).
-/

namespace SharedScene

namespace Forest

/-- The forest without the nodes whose id is not kept and all below them. -/
def prune (kept : List InstanceId) : Forest → Forest
  | .nil => .nil
  | .cons item children rest =>
    if kept.contains item.id then .cons item (prune kept children) (prune kept rest)
    else prune kept rest

/-- The event that deletes an instance at its path. -/
def deletion (d : Path × InstanceId) : Event := .delete d.2 d.1

variable {f : Forest} {item : Item} {children rest : Forest} {kept : List InstanceId}
  {parent : Option InstanceId}

/-! ## What is left -/

theorem prune_cons_of_mem (h : item.id ∈ kept) :
    prune kept (.cons item children rest) = .cons item (prune kept children) (prune kept rest) :=
  if_pos (List.contains_iff_mem.mpr h)

theorem prune_cons_of_not_mem (h : item.id ∉ kept) :
    prune kept (.cons item children rest) = prune kept rest :=
  if_neg fun hkept => h (List.contains_iff_mem.mp hkept)

/-- Below what is not kept nothing is kept. -/
theorem not_mem_kept_of_mem {x : InstanceId} (hx : x ∉ kept)
    (up : ∀ row ∈ placements (some x) f, row.id ∈ kept → ∀ y, row.parent = some y → y ∈ kept) :
    ∀ row ∈ placements (some x) f, row.id ∉ kept := by
  induction f generalizing x with
  | nil => exact fun _ h => absurd h List.not_mem_nil
  | cons item children rest ihc ihr =>
    have hitem : item.id ∉ kept := fun h => hx (up ⟨some x, item⟩ List.mem_cons_self h x rfl)
    intro row hrow
    rcases List.mem_cons.mp hrow with rfl | hrow
    · exact hitem
    · rcases List.mem_append.mp hrow with hrow | hrow
      · exact ihc hitem (fun r hr =>
          up r (List.mem_cons_of_mem _ (List.mem_append_left _ hr))) row hrow
      · exact ihr hx (fun r hr =>
          up r (List.mem_cons_of_mem _ (List.mem_append_right _ hr))) row hrow

/-- When everything above what is kept is kept, exactly the rows of what is kept are left. -/
theorem placements_prune
    (up : ∀ row ∈ placements parent f, row.id ∈ kept → ∀ y, row.parent = some y → y ∈ kept) :
    placements parent (prune kept f) =
      (placements parent f).filter fun row => decide (row.item.id ∈ kept) := by
  induction f generalizing parent with
  | nil => rfl
  | cons item children rest ihc ihr =>
    have upc := fun row hrow => up row (List.mem_cons_of_mem _ (List.mem_append_left _ hrow))
    have upr := fun row hrow => up row (List.mem_cons_of_mem _ (List.mem_append_right _ hrow))
    rw [placements, List.filter_cons, List.filter_append]
    by_cases hitem : item.id ∈ kept
    · rw [prune_cons_of_mem hitem, if_pos (decide_eq_true hitem), placements, ihc upc, ihr upr]
    · have hnone : (placements (some item.id) children).filter
          (fun row => decide (row.item.id ∈ kept)) = [] := by
        refine List.filter_eq_nil_iff.mpr fun row hrow hkept => ?_
        exact not_mem_kept_of_mem hitem upc row hrow (of_decide_eq_true hkept)
      rw [prune_cons_of_not_mem hitem, if_neg (fun h => hitem (of_decide_eq_true h)), hnone,
        List.nil_append, ihr upr]

theorem WellFormed.prune (h : f.WellFormed) (up : f.UpClosed (· ∈ kept)) :
    (Forest.prune kept f).WellFormed := by
  unfold WellFormed table
  rw [placements_prune up]
  exact Sound.sublist h List.filter_sublist

theorem WellFormed.placed?_prune (h : f.WellFormed) (up : f.UpClosed (· ∈ kept))
    (id : InstanceId) :
    (Forest.prune kept f).placed? id = if id ∈ kept then f.placed? id else none := by
  refine Option.ext fun row => ?_
  rw [(h.prune up).placed?_eq_some_iff, table, placements_prune up, List.mem_filter,
    decide_eq_true_iff]
  split
  · next hid =>
    rw [h.placed?_eq_some_iff]
    refine ⟨fun hrow => ⟨hrow.1.1, hrow.2⟩, fun hrow => ⟨⟨hrow.1, ?_⟩, hrow.2⟩⟩
    rw [show row.item.id = id from hrow.2]
    exact hid
  · next hid =>
    refine ⟨fun hrow => absurd (hrow.2 ▸ hrow.1.2) hid, fun hrow => ?_⟩
    cases hrow

/-! ## Deletes one after the other -/

theorem follow?_cons (f : Forest) (e : Event) (events : List Event) :
    f.follow? (e :: events) = (f.replay? e).bind fun g => g.follow? events := rfl

theorem replay?_deletion (f : Forest) (path : Path) (id : InstanceId) :
    f.replay? (deletion (path, id)) =
      if f.idAt? path = some id then some (f.remove path) else none := rfl

/-- Deletes below a first node. -/
theorem follow?_deletions_below {ds : List (Path × InstanceId)} (h : ∀ d ∈ ds, d.1 ≠ []) :
    (cons item children rest).follow? (ds.map fun d => deletion (item.name :: d.1, d.2)) =
      (children.follow? (ds.map deletion)).map fun below => cons item below rest := by
  induction ds generalizing children with
  | nil => rfl
  | cons d ds ih =>
    obtain ⟨path, id⟩ := d
    cases path with
    | nil => exact absurd rfl (h _ List.mem_cons_self)
    | cons n path =>
      have hid : (cons item children rest).idAt? (item.name :: n :: path) =
          children.idAt? (n :: path) := congrArg (Option.map _) (find?_cons_of_eq rfl)
      rw [List.map_cons, List.map_cons, follow?_cons, follow?_cons, replay?_deletion,
        replay?_deletion, hid, remove_cons_of_eq rfl]
      by_cases hfits : children.idAt? (n :: path) = some id
      · rw [if_pos hfits, if_pos hfits]
        exact ih fun d hd => h d (List.mem_cons_of_mem _ hd)
      · rw [if_neg hfits, if_neg hfits]
        rfl

theorem follow?_deletions_after {ds : List (Path × InstanceId)}
    (h : ∀ d ∈ ds, ∃ n q, d.1 = n :: q ∧ item.name ≠ n) :
    (cons item children rest).follow? (ds.map deletion) =
      (rest.follow? (ds.map deletion)).map fun after => cons item children after := by
  induction ds generalizing rest with
  | nil => rfl
  | cons d ds ih =>
    obtain ⟨path, id⟩ := d
    obtain ⟨n, q, rfl, hn⟩ := h _ List.mem_cons_self
    have hid : (cons item children rest).idAt? (n :: q) = rest.idAt? (n :: q) :=
      congrArg (Option.map _) (find?_cons_of_ne hn)
    rw [List.map_cons, follow?_cons, follow?_cons, replay?_deletion, replay?_deletion, hid,
      remove_cons_of_ne hn]
    by_cases hfits : rest.idAt? (n :: q) = some id
    · rw [if_pos hfits, if_pos hfits]
      exact ih fun d hd => h d (List.mem_cons_of_mem _ hd)
    · rw [if_neg hfits, if_neg hfits]
      rfl

end Forest

namespace Resync.Plan

open Forest

variable {old f : Forest} {p : Plan} {surviving : List InstanceId}

/-- The doomed below a path, from the root. -/
theorem doomed_above (above : Path) (f : Forest) :
    doomed surviving above f = (doomed surviving [] f).map fun d => (above ++ d.1, d.2) := by
  induction f generalizing above with
  | nil => rfl
  | cons item children rest ihc ihr =>
    rw [doomed, doomed, ihr above, List.map_append]
    congr 1
    split
    · rw [ihc (above.child item.name), ihc (Path.child [] item.name), List.map_map]
      refine List.map_congr_left fun d _ => ?_
      simp [Path.child]
    · rfl

/-- A doomed path begins with a name of the topmost level. -/
theorem exists_cons_of_mem_doomed {d : Path × InstanceId} (h : d ∈ doomed surviving [] f) :
    ∃ n q, d.1 = n :: q ∧ n ∈ f.names := by
  induction f with
  | nil => cases h
  | cons item children rest _ ihr =>
    rcases List.mem_append.mp h with h | h
    · refine ⟨item.name, ?_⟩
      split at h
      · rw [doomed_above] at h
        obtain ⟨d', _, rfl⟩ := List.mem_map.mp h
        exact ⟨d'.1, rfl, List.mem_cons_self⟩
      · obtain rfl := List.mem_singleton.mp h
        exact ⟨[], rfl, List.mem_cons_self⟩
    · obtain ⟨n, q, heq, hn⟩ := ihr h
      exact ⟨n, q, heq, List.mem_cons_of_mem _ hn⟩

/-- An observer follows all deletes, and holds what is left. -/
theorem follow?_deletions (names : NamesDistinct f) :
    f.follow? ((doomed surviving [] f).map deletion) = some (prune surviving f) := by
  induction f with
  | nil => rfl
  | cons item children rest ihc ihr =>
    obtain ⟨hname, hchildren, hrest⟩ := names
    -- deletes after the first node go past it, its name is none of the later ones
    have hpast : ∀ d ∈ doomed surviving [] rest, ∃ n q, d.1 = n :: q ∧ item.name ≠ n := by
      intro d hd
      obtain ⟨n, q, heq, hn⟩ := exists_cons_of_mem_doomed hd
      exact ⟨n, q, heq, fun h => hname (h ▸ hn)⟩
    rw [doomed, List.map_append, follow?_append]
    by_cases hkept : item.id ∈ surviving
    · have hbelow : ∀ d ∈ doomed surviving [] children, d.1 ≠ [] := by
        intro d hd heq
        obtain ⟨n, q, hd, _⟩ := exists_cons_of_mem_doomed hd
        rw [heq] at hd
        cases hd
      rw [if_pos hkept, prune_cons_of_mem hkept, doomed_above, List.map_map]
      have hmap : deletion ∘ (fun d : Path × InstanceId => (Path.child [] item.name ++ d.1, d.2)) =
          fun d => deletion (item.name :: d.1, d.2) := rfl
      rw [hmap, follow?_deletions_below hbelow, ihc hchildren, Option.map_some, Option.bind_some,
        follow?_deletions_after hpast, ihr hrest, Option.map_some]
    · have hfirst : (cons item children rest).follow?
          [deletion (Path.child [] item.name, item.id)] = some rest := by
        have hid : (cons item children rest).idAt? [item.name] = some item.id :=
          congrArg (Option.map _) (find?_cons_single rfl)
        rw [follow?_single, replay?_deletion, Path.child, List.nil_append, if_pos hid,
          remove_cons_single rfl]
      rw [if_neg hkept, prune_cons_of_not_mem hkept, List.map_singleton, hfirst, Option.bind_some,
        ihr hrest]

/-- A plan deletes as an observer of its deletes would. -/
theorem foldl_deletions {ds : List (Path × InstanceId)} {g : Forest}
    (h : p.scene.follow? (ds.map deletion) = some g) :
    ds.foldl (fun p d => p.step (p.scene.remove d.1) (.delete d.2 d.1)) p =
      ⟨g, p.events ++ ds.map deletion⟩ := by
  induction ds generalizing p with
  | nil =>
    obtain rfl := Option.some.inj h
    rw [List.map_nil, List.append_nil]
    rfl
  | cons d ds ih =>
    rw [List.map_cons, follow?_cons, replay?_deletion] at h
    obtain ⟨f, hf, hrest⟩ := Option.bind_eq_some_iff.mp h
    split at hf
    · obtain rfl := Option.some.inj hf
      rw [List.foldl_cons, ih (p := p.step (p.scene.remove d.1) (.delete d.2 d.1)) hrest,
        step_events, List.append_assoc]
      rfl
    · cases hf

/-- The deletes of a plan leave what survives. -/
theorem deleteDoomed_eq (h : p.scene.WellFormed) : p.deleteDoomed surviving =
    ⟨prune surviving p.scene,
      p.events ++ (doomed surviving Path.root p.scene).map deletion⟩ :=
  foldl_deletions (follow?_deletions h.namesDistinct)

/-- An observer follows the deletes of a plan. -/
theorem Told.deleteDoomed (htold : p.Told old) (h : p.scene.WellFormed) :
    (p.deleteDoomed surviving).Told old := by
  rw [deleteDoomed_eq h]
  exact htold.append (follow?_deletions h.namesDistinct) (.refl _)

/-! ## Who is doomed -/

/-- Nobody is doomed twice. -/
theorem doomed_sublist (above : Path) (f : Forest) :
    ((doomed surviving above f).map Prod.snd).Sublist f.ids := by
  induction f generalizing above with
  | nil => exact .slnil
  | cons item children rest ihc ihr =>
    rw [doomed, List.map_append, ids_cons, ← List.cons_append]
    refine List.Sublist.append ?_ (ihr above)
    split
    · exact (ihc _).cons item.id
    · exact (List.nil_sublist _).cons_cons item.id

/-- Doomed are those that do not survive and stand at the top or below a survivor. -/
theorem mem_doomed_iff {parent : Option InstanceId} {above : Path} {id : InstanceId}
    (nodup : f.ids.Nodup) (outside : ∀ x ∈ f.ids, parent ≠ some x)
    (up : ∀ row ∈ placements parent f, row.id ∈ surviving →
      ∀ y, row.parent = some y → y ∈ surviving) :
    id ∈ (doomed surviving above f).map Prod.snd ↔ ∃ row ∈ placements parent f, row.id = id ∧
      id ∉ surviving ∧ (row.parent = parent ∨ ∃ x ∈ surviving, row.parent = some x) := by
  induction f generalizing parent above with
  | nil => simp [doomed, placements]
  | cons item children rest ihc ihr =>
    rw [ids_cons, List.nodup_cons, List.nodup_append] at nodup
    obtain ⟨hitem, nodupc, nodupr, _⟩ := nodup
    have upc := fun row hrow => up row (List.mem_cons_of_mem _ (List.mem_append_left _ hrow))
    have upr := fun row hrow => up row (List.mem_cons_of_mem _ (List.mem_append_right _ hrow))
    have hrest := @ihr parent above nodupr (fun x hx => outside x (by
      rw [ids_cons]
      exact List.mem_cons_of_mem _ (List.mem_append_right _ hx))) upr
    have hchildren := @ihc (some item.id) (above.child item.name) nodupc
      (fun x hx heq => hitem (List.mem_append_left _ (Option.some.inj heq ▸ hx))) upc
    have hbelow : ∀ row ∈ placements (some item.id) children, row.parent ≠ parent := by
      intro row hrow heq
      obtain ⟨x, hx, hparent⟩ := exists_parent_of_mem hrow
      refine outside x ?_ (heq.symm.trans hparent)
      rw [ids_cons, ← List.cons_append]
      exact List.mem_append_left _ hx
    rw [doomed, List.map_append, List.mem_append, hrest, placements]
    simp only [List.mem_cons, List.mem_append, or_and_right, exists_or, exists_eq_left]
    rw [← or_assoc]
    refine or_congr_left ?_
    by_cases hkept : item.id ∈ surviving
    · -- a surviving first node is not doomed, and those below it stand below a survivor
      rw [if_pos hkept, hchildren]
      constructor
      · rintro ⟨row, hrow, hid, hnot, heq | habove⟩
        · exact .inr ⟨row, hrow, hid, hnot, .inr ⟨item.id, hkept, heq⟩⟩
        · exact .inr ⟨row, hrow, hid, hnot, .inr habove⟩
      · rintro (⟨rfl, hnot, _⟩ | ⟨row, hrow, hid, hnot, heq | habove⟩)
        · exact absurd hkept hnot
        · exact absurd heq (hbelow row hrow)
        · exact ⟨row, hrow, hid, hnot, .inr habove⟩
    · rw [if_neg hkept, List.map_singleton, List.mem_singleton]
      constructor
      · rintro rfl
        exact .inl ⟨rfl, hkept, .inl trivial⟩
      · rintro (⟨rfl, _⟩ | ⟨row, hrow, hid, _, heq | ⟨x, hx, hparent⟩⟩)
        · rfl
        · exact absurd heq (hbelow row hrow)
        · -- nobody survives below who does not
          obtain ⟨y, hy, hparent'⟩ := exists_parent_of_mem hrow
          obtain rfl := Option.some.inj (hparent.symm.trans hparent')
          rcases List.mem_cons.mp hy with rfl | hy
          · exact absurd hx hkept
          · obtain ⟨above', habove', rfl⟩ := exists_mem_of_mem_ids (some item.id) hy
            exact absurd hx (not_mem_kept_of_mem hkept upc above' habove')

/-- Nothing is doomed where all survive. -/
theorem doomed_eq_nil {above : Path} (h : ∀ id ∈ f.ids, id ∈ surviving) :
    doomed surviving above f = [] := by
  induction f generalizing above with
  | nil => rfl
  | cons item children rest ihc ihr =>
    rw [ids_cons] at h
    rw [doomed, if_pos (h _ List.mem_cons_self),
      ihc fun id hid => h id (List.mem_cons_of_mem _ (List.mem_append_left _ hid)),
      ihr fun id hid => h id (List.mem_cons_of_mem _ (List.mem_append_right _ hid))]
    rfl

end Resync.Plan

end SharedScene
