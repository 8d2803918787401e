import SharedScene.Proofs.Scene.Reachable
import SharedScene.Proofs.Scene.Resync.Plain
import SharedScene.Proofs.Value.NotANumber

/-!
# A resync that has nothing to do

A resync compares rows and not the order of siblings, so it is **idle** when its reports describe
the rows that are there (`replaceAll_eq_self`): the store is left as it is, revision, events and
waiting changes included, and the summary says that nothing changed.

So it is when the engine reports the scene as it is, in whatever order (`resync_of_scene_is_idle`),
and when it says a second time what it said before, whatever that was (`resync_is_idempotent`): the
first resync may leave siblings in another order than its reports, but it leaves their rows. NaN
alone is told each time anew, since it differs from itself.
-/

namespace SharedScene

open Forest Report Resync

variable {s : Store} {reports : List Report}

/-- The values that reports ask for are among those reported. -/
theorem Report.value_of_mem_table {row : Placed} (h : row ∈ (toForest reports).table) {key : String}
    {v : Value} (hv : row.item.properties.get? key = some v) :
    ∃ r ∈ reports, (key, v) ∈ r.properties.entries := by
  obtain ⟨r, hr, _, siblings, hitem⟩ := exists_report_of_mem_table h
  rw [hitem] at hv
  exact ⟨r, hr, (List.mem_filter.mp (SortedMap.mem_of_find? hv)).1⟩

namespace Store

/-- Reports that describe the rows of the scene leave the store as it is. -/
theorem replaceAll_eq_self (h : s.forest.WellFormed) (same : SameRows s.forest (toForest reports))
    (hvalues : ∀ row ∈ (toForest reports).table, ∀ key v,
      row.item.properties.get? key = some v → (v == v) = true) :
    s.replaceAll reports =
      (⟨false, s.revision, 0, 0, 0, 0, reports.length - (toForest reports).size⟩, s) := by
  have hidle := (plan_events_eq_nil_iff h (wellFormed_toForest reports) hvalues).mpr same
  exact if_pos (List.isEmpty_iff.mpr hidle)

/-! ## The scene as it is -/

/-- Whoever reports every instance as it is, in whatever order, changes nothing and has no report
dropped: the store is the one of before. -/
theorem resync_of_scene_is_idle (h : s.Reachable)
    (names : ∀ item ∈ s.forest.preorder, Name.isValid item.name = true)
    (values : ∀ item ∈ s.forest.preorder, ∀ e ∈ item.properties.entries, (e.2 == e.2) = true)
    (hreports : reports.Perm (s.forest.indexed.map fun e => e.record.toReport)) :
    s.replaceAll reports = (⟨false, s.revision, 0, 0, 0, 0, 0⟩, s) := by
  have hrows : (reports.map toPlaced).Perm s.forest.table := by
    have hmap := hreports.map toPlaced
    rwa [List.map_map, show toPlaced ∘ _ = fun e : IndexedInstance => e.record.toReport.toPlaced
      from rfl, indexed, map_toPlaced_index] at hmap
  have htable := table_toForest_perm h.wellFormed names hrows
  have hsize : (toForest reports).size = reports.length := by
    rw [← size_eq_length hrows, ← length_table, ← length_table, htable.length_eq]
  rw [replaceAll_eq_self h.wellFormed (h.wellFormed.sameRows_of_perm htable), hsize, Nat.sub_self]
  intro row hrow key v hv
  refine values row.item ?_ (key, v) (SortedMap.mem_of_find? hv)
  rw [← map_item_placements none]
  exact List.mem_map_of_mem (htable.mem_iff.mp hrow)

/-- Two shelves with what lies in them, the second one reported after its box. -/
def shelvedReports : List Report :=
  [⟨⟨"a"⟩, "Folder", "Shelf", none, .empty⟩,
    ⟨⟨"c"⟩, "Part", "Box", some ⟨"b"⟩, .ofList [("Weight", .number 0.5)]⟩,
    ⟨⟨"b"⟩, "Folder", "Shelf", none, .empty⟩,
    ⟨⟨"d"⟩, "Part", "Lid", some ⟨"b"⟩, .ofList [("Open", .bool true)]⟩]

def shelved : Store := ((empty (.stemmed "id")).replaceAll shelvedReports).2

theorem reachable_shelved : shelved.Reachable := .replaceAll shelvedReports (.empty _)

/-- Reported from the last instance up to the first, what lies in a shelf before the shelf. -/
theorem resync_of_scene_is_idle_backwards :
    shelved.replaceAll (shelved.forest.indexed.map fun e => e.record.toReport).reverse =
      (⟨false, 1, 0, 0, 0, 0, 0⟩, shelved) ∧ shelved.size = 4 := by
  have names : ∀ item ∈ shelved.forest.preorder, Name.isValid item.name = true := by
    decide +kernel
  have values : ∀ item ∈ shelved.forest.preorder, ∀ e ∈ item.properties.entries,
      (e.2 == e.2) = true := by decide +kernel
  refine ⟨?_, by decide +kernel⟩
  exact resync_of_scene_is_idle reachable_shelved names values (List.reverse_perm _)

/-! ## The same reports again -/

/-- The same reports once more change nothing: the store is the one that the first resync left, and
as many reports are dropped. -/
theorem resync_is_idempotent (h : s.Reachable)
    (values : ∀ r ∈ reports, ∀ e ∈ r.properties.entries, e.2.hasNaN = false) :
    (s.replaceAll reports).2.replaceAll reports =
      (⟨false, (s.replaceAll reports).2.revision, 0, 0, 0, 0,
        (s.replaceAll reports).1.droppedRecords⟩, (s.replaceAll reports).2) := by
  rw [droppedRecords_replaceAll]
  refine replaceAll_eq_self (wellFormed_replaceAll h.wellFormed reports)
    (sameRows_replaceAll h.wellFormed reports) fun row hrow key v hv => ?_
  obtain ⟨r, hr, hentry⟩ := value_of_mem_table hrow hv
  exact v.beq_self_iff.mpr (values r hr _ hentry)

/-- A shelf goes below the box of the other one, names are exchanged, and of ten reports seven are
dropped; the second time these are dropped and nothing else happens. -/
theorem resync_is_idempotent_exchanged :
    let reports := exchangedReports ++ tangledReports
    (shelved.replaceAll reports).1.changed = true ∧
      ((shelved.replaceAll reports).2.replaceAll reports).1 = ⟨false, 2, 0, 0, 0, 0, 7⟩ := by
  intro reports
  have values : ∀ r ∈ reports, ∀ e ∈ r.properties.entries, e.2.hasNaN = false := by
    decide +kernel
  refine ⟨by decide +kernel, ?_⟩
  rw [resync_is_idempotent reachable_shelved values]
  decide +kernel

end Store

end SharedScene
