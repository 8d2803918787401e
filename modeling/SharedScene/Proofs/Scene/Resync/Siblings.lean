import SharedScene.Proofs.Scene.Resync.Target

/-!
# How siblings get their names

The reports under one parent get their names one after the other, each beside those before it
(`itemsOf`). What grows below each of them does not matter for that, so a level is its items and the
forests below them (`level`), and the item of a report depends on the reports that come before it
under the same parent alone, its **elders** (`exists_elders_of_mem_grow`).
-/

namespace SharedScene

open Forest

namespace Forest

theorem append_nil (f : Forest) : f.append .nil = f := by
  induction f with
  | nil => rfl
  | cons item children rest _ ihr => exact congrArg (cons item children) ihr

theorem append_assoc (f g h : Forest) : (f.append g).append h = f.append (g.append h) := by
  induction f with
  | nil => rfl
  | cons item children rest _ ihr => exact congrArg (cons item children) ihr

end Forest

namespace Report

variable {reports rs : List Report} {r : Report} {below : Report → Forest} {names : List String}
  {parent : Option InstanceId} {row : Placed}

/-! ## One level -/

/-- The items of reports of one level, each named beside the given names and those before it. -/
def itemsOf (names : List String) : List Report → List Item
  | [] => []
  | r :: rest => r.toItem names :: itemsOf (names ++ [(r.toItem names).name]) rest

/-- The nodes of reports of one level, with what grows below each. -/
def level (below : Report → Forest) (names : List String) : List Report → Forest
  | [] => .nil
  | r :: rest =>
    .cons (r.toItem names) (below r) (level below (names ++ [(r.toItem names).name]) rest)

theorem items_level (below : Report → Forest) (names : List String) (rs : List Report) :
    (level below names rs).items = itemsOf names rs := by
  induction rs generalizing names with
  | nil => rfl
  | cons r rest ih => exact congrArg (r.toItem names :: ·) (ih _)

theorem map_id_itemsOf (names : List String) (rs : List Report) :
    (itemsOf names rs).map (·.id) = rs.map (·.id) := by
  induction rs generalizing names with
  | nil => rfl
  | cons r rest ih => exact congrArg (r.id :: ·) (ih _)

/-- Reports that come later do not change the items of those before them. -/
theorem itemsOf_mono {rs' : List Report} (names : List String) (h : rs <+: rs') :
    itemsOf names rs <+: itemsOf names rs' := by
  induction rs generalizing names rs' with
  | nil => exact List.nil_prefix
  | cons r rest ih =>
    obtain ⟨later, rfl⟩ := h
    exact (List.prefix_cons_inj _).mpr (ih _ (List.prefix_append rest later))

/-- Reports of one level add a level to the nodes that are there. -/
theorem foldl_eq_append_level (below : Report → Forest) (rs : List Report) (f : Forest) :
    rs.foldl (fun f r => f.append (.single (r.toItem f.names) (below r))) f =
      f.append (level below f.names rs) := by
  induction rs generalizing f with
  | nil => exact f.append_nil.symm
  | cons r rest ih =>
    rw [List.foldl_cons, ih, append_assoc, names_append]
    rfl

/-- What grows is a level. -/
theorem grow_succ (reports : List Report) (depth : Nat) (parent : Option InstanceId) :
    grow reports (depth + 1) parent = level (fun r => grow reports depth (some r.id)) []
      (reports.filter fun r => decide (r.parentId = parent)) := by
  rw [grow]
  exact foldl_eq_append_level _ _ .nil

/-- A row of a level: that of a report, named beside those before it, or a row below one. -/
theorem mem_placements_level (nodup : (rs.map (·.id)).Nodup)
    (h : row ∈ placements parent (level below names rs)) :
    ∃ r ∈ rs, row = ⟨parent, r.toItem (names ++ (itemsOf names
        (rs.takeWhile fun q => decide (q.id ≠ r.id))).map (·.name))⟩ ∨
      row ∈ placements (some r.id) (below r) := by
  induction rs generalizing names with
  | nil => cases h
  | cons first rest ih =>
    obtain ⟨hfirst, nodup⟩ := List.nodup_cons.mp nodup
    rcases List.mem_cons.mp h with rfl | h
    · refine ⟨first, List.mem_cons_self, .inl ?_⟩
      rw [List.takeWhile_cons_of_neg (by simp), itemsOf, List.map_nil, List.append_nil]
    · rcases List.mem_append.mp h with h | h
      · exact ⟨first, List.mem_cons_self, .inr h⟩
      · obtain ⟨r, hr, hrow⟩ := ih nodup h
        refine ⟨r, List.mem_cons_of_mem _ hr, hrow.imp_left fun heq => ?_⟩
        have hne : first.id ≠ r.id := fun hid => hfirst (List.mem_map.mpr ⟨r, hr, hid.symm⟩)
        rw [heq, List.takeWhile_cons_of_pos (by simpa using hne), itemsOf, List.map_cons,
          List.append_assoc, List.singleton_append]

/-- What stands below a report of a level stands in the level. -/
theorem mem_placements_level_of_below (hr : r ∈ rs)
    (h : row ∈ placements (some r.id) (below r)) :
    row ∈ placements parent (level below names rs) := by
  induction rs generalizing names with
  | nil => cases hr
  | cons first rest ih =>
    rcases List.mem_cons.mp hr with rfl | hr
    · exact List.mem_cons_of_mem _ (List.mem_append_left _ h)
    · exact List.mem_cons_of_mem _ (List.mem_append_right _ (ih hr))

/-! ## Elders -/

/-- The reports that come before a report under the same parent. -/
def elders (reports : List Report) (r : Report) : List Report :=
  (reports.filter fun q => decide (q.parentId = r.parentId)).takeWhile fun q => decide (q.id ≠ r.id)

/-- Each row that grows is that of a report, named beside its elders, and the rows of these are
there too. -/
theorem exists_elders_of_mem_grow (nodup : (reports.map (·.id)).Nodup) {depth : Nat}
    (h : row ∈ placements parent (grow reports depth parent)) :
    ∃ r ∈ reports, row.parent = r.parentId ∧
      row.item = r.toItem ((itemsOf [] (elders reports r)).map (·.name)) ∧
      ∀ item ∈ itemsOf [] (elders reports r),
        ⟨r.parentId, item⟩ ∈ placements parent (grow reports depth parent) := by
  induction depth generalizing parent with
  | zero => cases h
  | succ depth ih =>
    have nodup' : ((reports.filter fun r => decide (r.parentId = parent)).map (·.id)).Nodup :=
      nodup.sublist (List.filter_sublist.map _)
    rw [grow_succ] at h ⊢
    obtain ⟨r, hr, hrow⟩ := mem_placements_level nodup' h
    obtain ⟨hreport, hparent⟩ := List.mem_filter.mp hr
    have hparent : r.parentId = parent := of_decide_eq_true hparent
    rcases hrow with rfl | hrow
    · have helders : (reports.filter fun q => decide (q.parentId = parent)).takeWhile
          (fun q => decide (q.id ≠ r.id)) = elders reports r := by rw [elders, hparent]
      rw [helders, List.nil_append]
      refine ⟨r, hreport, hparent.symm, rfl, fun item hitem => ?_⟩
      rw [hparent]
      refine mem_placements_of_mem_items ?_
      rw [items_level]
      refine (itemsOf_mono [] ?_).subset hitem
      rw [← helders]
      exact List.takeWhile_prefix _
    · obtain ⟨r', hr', hparent', hitem', helders⟩ := ih hrow
      exact ⟨r', hr', hparent', hitem', fun item hitem =>
        mem_placements_level_of_below hr (helders item hitem)⟩

end Report

end SharedScene
