import SharedScene.Proofs.Scene.Resync.Growth
import SharedScene.Proofs.Scene.Resync.Idle
import SharedScene.View.Snapshot

/-!
# The snapshot view is a seed

The snapshot view finds the parent of an instance by its path, among the paths that it lists. In the
view of a scene this is the parent that the record names (`parentId_ofIndexed`), and the view lists
the instances as the scene has them, so it says everything that can be reported of them
(`map_toReport_instances`). An empty store that takes the instances of a view for reports therefore
grows the same scene again (`snapshot_is_seed`).
-/

namespace SharedScene

open Forest

variable {f : Forest} {e : IndexedInstance} {p : Path}

/-- What may be reported of an instance that the view lists. -/
def SnapshotInstance.toReport (i : SnapshotInstance) : Report :=
  ⟨i.id, i.className, i.name, i.parentId, i.properties⟩

namespace SnapshotView

/-- Under the paths that the view lists are the ids that stand there. -/
theorem get?_byPath (h : f.WellFormed) (p : Path) :
    (SortedMap.ofList (f.indexed.map fun e => (e.path, e.record.id))).get? p = f.idAt? p := by
  have hmem : ∀ q id, (q, id) ∈ f.indexed.map (fun e => (e.path, e.record.id)) ↔
      f.idAt? q = some id := by
    intro q id
    rw [h.mem_indexed_iff, h.pathOf?_eq_some_iff]
  refine Option.ext fun id => ?_
  rw [SortedMap.get?_ofList_eq_some_iff, hmem]
  intro a b ha hb
  exact Option.some.inj (((hmem p a).mp ha).symm.trans ((hmem p b).mp hb))

/-- The view finds the parent that the record names. -/
theorem parentId_ofIndexed (h : f.WellFormed) (he : e ∈ f.indexed) :
    (Path.parent? e.path).bind
      (SortedMap.ofList (f.indexed.map fun e => (e.path, e.record.id))).get? = e.record.parent := by
  obtain ⟨p, item, children, hpath, hfind, hrecord⟩ := exists_find?_of_mem_index h.namesDistinct he
  obtain rfl : p = e.path := hpath.symm
  have hne : e.path ≠ [] := by
    intro hnil
    rw [hnil, find?_root] at hfind
    cases hfind
  have hparent : Path.parent? e.path = some (Path.parent e.path) := by
    simp [Path.parent?, Path.parent, hne]
  rw [hparent, Option.bind_some, get?_byPath h, hrecord, idOr_none]
  rfl

/-- The view says of each instance what its record says. -/
theorem map_toReport_instances (h : f.WellFormed) (revision : Nat) (generatedAt : Instant) :
    (ofIndexed f.indexed revision generatedAt).instances.map SnapshotInstance.toReport =
      f.indexed.map fun e => e.record.toReport := by
  simp only [ofIndexed, List.map_map]
  refine List.map_congr_left fun e he => ?_
  simp only [Function.comp_apply, SnapshotInstance.toReport, Instance.toReport,
    parentId_ofIndexed h he]

end SnapshotView

namespace Store

/-- An empty store that takes the instances of the snapshot view for reports, in the order in which
they are listed, drops none of them and grows the same scene: ids, classes, names, parents,
properties and the order of siblings at every level. -/
theorem snapshot_is_seed {s blank : Store} (h : s.Reachable)
    (names : ∀ item ∈ s.forest.preorder, Name.isValid item.name = true)
    (hblank : blank.forest = .nil) (revision : Nat) (generatedAt : Instant) :
    let view := SnapshotView.ofIndexed s.forest.indexed revision generatedAt
    let grown := blank.replaceAll (view.instances.map SnapshotInstance.toReport)
    grown.1.droppedRecords = 0 ∧ grown.2.forest = s.forest := by
  intro view grown
  have hreports := SnapshotView.map_toReport_instances h.wellFormed revision generatedAt
  have hrows : (view.instances.map SnapshotInstance.toReport).map Report.toPlaced =
      s.forest.table := by
    rw [hreports, List.map_map]
    exact map_toPlaced_index s.forest none Path.root
  have htarget := Report.toForest_eq h.wellFormed names hrows
  refine ⟨?_, ?_⟩
  · rw [droppedRecords_replaceAll, htarget, Report.size_eq_length (.of_eq hrows), Nat.sub_self]
  · rw [forest_replaceAll_of_nil hblank, htarget]

/-- The two shelves and what lies in the second one, in another store. -/
theorem snapshot_is_seed_shelved :
    let view := SnapshotView.ofIndexed shelved.forest.indexed shelved.revision 0
    let grown := (empty (.stemmed "copy")).replaceAll (view.instances.map SnapshotInstance.toReport)
    (grown.1.droppedRecords = 0 ∧ grown.2.forest = shelved.forest) ∧ shelved.size = 4 := by
  have names : ∀ item ∈ shelved.forest.preorder, Name.isValid item.name = true := by
    decide +kernel
  have hblank : (empty (.stemmed "copy")).forest = .nil := rfl
  exact ⟨snapshot_is_seed reachable_shelved names hblank shelved.revision 0, by decide +kernel⟩

end Store

end SharedScene
