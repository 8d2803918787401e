import SharedScene.Proofs.Scene.Reachable
import SharedScene.Proofs.Scene.Resync.Stack

/-!
# What a resync builds

The scene after a resync, told by the reports alone (`Store.resync_builds_what_is_grounded`): which
ids are there, what their records say, and how many reports came to nothing. What was there before
does not matter, but for this: where a property was equal to the reported one already it keeps the
value that it has, so the sign of a zero may be the old one.
-/

namespace SharedScene

open Forest

namespace Report

variable {reports : List Report} {f : Forest}

/-- The names that a level gives to reports are those found under their ids. -/
theorem map_name_itemsOf {rs : List Report}
    (h : ∀ item ∈ itemsOf [] rs, (f.placed? item.id).map (·.item.name) = some item.name) :
    (itemsOf [] rs).map (·.name) = rs.filterMap fun q => (f.placed? q.id).map (·.item.name) := by
  have hids := map_id_itemsOf [] rs
  calc (itemsOf [] rs).map (·.name)
      = (itemsOf [] rs).filterMap fun item => (f.placed? item.id).map (·.item.name) := by
        rw [List.filterMap_congr h, List.filterMap_eq_map']
    _ = ((itemsOf [] rs).map (·.id)).filterMap fun id => (f.placed? id).map (·.item.name) := by
        rw [List.filterMap_map]
        rfl
    _ = rs.filterMap fun q => (f.placed? q.id).map (·.item.name) := by
        rw [hids, List.filterMap_map]
        rfl

/-- Whoever stands in a forest with the rows of the target has a first report, which says all of it
but the name; that is resolved among the names of those that were reported before it. -/
theorem exists_firstOf?_of_placed? {id : InstanceId} {row : Placed}
    (same : SameRows f (toForest reports)) (hrow : f.placed? id = some row) :
    ∃ r, firstOf? reports id = some r ∧ row.parent = r.parentId ∧
      row.item.className = r.className ∧
      Properties.Agree row.item.properties (SortedMap.withoutReserved r.properties) ∧
      row.item.name = Name.resolve (if Name.isValid r.name then r.name else r.className)
        ((elders (firsts [] reports) r).filterMap fun q =>
          (f.placed? q.id).map (·.item.name)) := by
  have ht := wellFormed_toForest reports
  have hid := same id
  rw [hrow] at hid
  generalize hwanted : (toForest reports).placed? id = a at hid
  cases hid with
  | @some _ w hagree =>
    obtain ⟨hw, rfl⟩ := ht.placed?_eq_some_iff.mp hwanted
    obtain ⟨r, hr, hparent, hitem, helders⟩ :=
      exists_elders_of_mem_grow (nodup_firsts [] reports).1 hw
    have hnames : ∀ item ∈ itemsOf [] (elders (firsts [] reports) r),
        (f.placed? item.id).map (·.item.name) = some item.name := by
      intro item hmem
      have hplaced : (toForest reports).placed? item.id = some ⟨r.parentId, item⟩ :=
        ht.placed?_eq_some_iff.mpr ⟨helders item hmem, rfl⟩
      have hsame := same item.id
      rw [hplaced] at hsame
      generalize f.placed? item.id = a at hsame
      cases hsame with
      | some hagree => exact congrArg some hagree.item.name
    refine ⟨r, firstOf?_eq_some_iff.mpr ⟨hr, ?_⟩, hagree.parent.trans hparent, ?_, ?_, ?_⟩
    · exact (congrArg Item.id hitem).symm
    · exact hagree.item.className.trans (congrArg Item.className hitem)
    · have hprops := hagree.item.properties
      rw [hitem] at hprops
      exact hprops
    · rw [← map_name_itemsOf hnames]
      exact hagree.item.name.trans (congrArg Item.name hitem)

end Report

namespace Store

open Report

/-- A resync builds what its reports describe. Growing it with a stack ends, after one step for each
instance. The ids are those whose chain of parents, each taken from the first report of its id, ends
at a report without one. Each instance has the class, the parent and the properties of its first
report, but for reserved keys, and the name that is asked for, or the class when that is no name,
resolved among the siblings that are reported before it. All other reports are dropped. -/
theorem resync_builds_what_is_grounded {s : Store} (h : s.Reachable) (reports : List Report) :
    let after := (s.replaceAll reports).2.forest
    let unique := firsts [] reports
    (∃ built, (Walk.start unique).after? unique after.size = some ⟨[], built⟩ ∧
      after.SameTree built) ∧
    (∀ id, id ∈ after.ids ↔ Grounded reports id) ∧
    (∀ id row, after.placed? id = some row → ∃ r, firstOf? reports id = some r ∧
      row.parent = r.parentId ∧ row.item.className = r.className ∧
      Properties.Agree row.item.properties (SortedMap.withoutReserved r.properties) ∧
      row.item.name = Name.resolve (if Name.isValid r.name then r.name else r.className)
        ((elders unique r).filterMap fun q => (after.placed? q.id).map (·.item.name))) ∧
    (s.replaceAll reports).1.droppedRecords + after.size = reports.length := by
  intro after unique
  have ht := wellFormed_toForest reports
  have hafter : after.WellFormed := wellFormed_replaceAll h.wellFormed reports
  have same : SameRows after (toForest reports) := sameRows_replaceAll h.wellFormed reports
  have hsize : after.size = (toForest reports).size := same.size_eq hafter ht
  refine ⟨⟨toForest reports, ?_, (hafter.sameTree_iff ht).mpr same⟩, fun id => ?_,
    fun id row hrow => exists_firstOf?_of_placed? same hrow, ?_⟩
  · rw [hsize]
    exact Walk.after?_start reports
  · rw [same.mem_ids_iff, mem_ids_toForest_iff]
  · rw [droppedRecords_replaceAll, hsize]
    exact Nat.sub_add_cancel (size_toForest_le reports)

/-- Children before their parent, an id that comes twice, an instance that is its own parent, one
below it, two of one name, and one whose name is none. -/
def crossedReports : List Report :=
  [⟨⟨"c"⟩, "Part", "Box", some ⟨"b"⟩, .empty⟩, ⟨⟨"f"⟩, "Lid", "", some ⟨"c"⟩, .empty⟩,
    ⟨⟨"b"⟩, "Folder", "Shelf", none, .empty⟩, ⟨⟨"d"⟩, "Part", "Box", some ⟨"b"⟩, .empty⟩,
    ⟨⟨"b"⟩, "Part", "Again", some ⟨"e"⟩, .empty⟩, ⟨⟨"e"⟩, "Part", "Loop", some ⟨"e"⟩, .empty⟩,
    ⟨⟨"g"⟩, "Part", "Stray", some ⟨"e"⟩, .empty⟩]

/-- The second box is named beside the first one, and three reports come to nothing. -/
theorem resync_builds_what_is_grounded_crossed :
    Grounded crossedReports ⟨"f"⟩ ∧ ¬ Grounded crossedReports ⟨"g"⟩ ∧
      (tangled.replaceAll crossedReports).1.droppedRecords = 3 ∧
      ∃ row, (tangled.replaceAll crossedReports).2.forest.placed? ⟨"d"⟩ = some row ∧
        row.item.name = "Box_2" := by
  have hreachable : tangled.Reachable := .replaceAll _ (.empty _)
  have hthere : ⟨"f"⟩ ∈ (tangled.replaceAll crossedReports).2.forest.ids ∧
      ⟨"g"⟩ ∉ (tangled.replaceAll crossedReports).2.forest.ids ∧
      (tangled.replaceAll crossedReports).2.forest.size = 4 := by decide +kernel
  have hsome : ((tangled.replaceAll crossedReports).2.forest.placed? ⟨"d"⟩).isSome = true := by
    decide +kernel
  have hfirst : firstOf? crossedReports ⟨"d"⟩ =
      some ⟨⟨"d"⟩, "Part", "Box", some ⟨"b"⟩, .empty⟩ := rfl
  have hnames : ((elders (firsts [] crossedReports)
      ⟨⟨"d"⟩, "Part", "Box", some ⟨"b"⟩, .empty⟩).filterMap
        fun q => ((tangled.replaceAll crossedReports).2.forest.placed? q.id).map (·.item.name)) =
        ["Box"] := by decide +kernel
  obtain ⟨_, hids, hrows, hdropped⟩ := resync_builds_what_is_grounded hreachable crossedReports
  obtain ⟨row, hrow⟩ := Option.isSome_iff_exists.mp hsome
  obtain ⟨r, hr, _, _, _, hname⟩ := hrows _ row hrow
  obtain rfl := Option.some.inj (hfirst.symm.trans hr)
  rw [hnames] at hname
  refine ⟨(hids _).mp hthere.1, fun hg => hthere.2.1 ((hids _).mpr hg), ?_, row, hrow, ?_⟩
  · have hlength : crossedReports.length = 7 := rfl
    omega
  · rw [hname]
    decide +kernel

end Store

end SharedScene
