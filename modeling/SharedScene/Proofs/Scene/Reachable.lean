import SharedScene.Proofs.Scene.Applied
import SharedScene.Proofs.Scene.Resync.Plan

/-!
# Scenes that can come about

From the empty store, by messages, resyncs, deliveries and returns to snapshots, only well-formed
forests come about (`Store.Reachable.wellFormed`).

A step also **tells** what it does: the events that it adds lead an observer of the forest before to
the forest after (`Store.Tells`). A resync leads to the tree that its reports describe, whatever was
there before (`Store.resync_reaches_target`).
-/

namespace SharedScene.Store

open Forest Resync

/-- The stores that come about from an empty one. A message that is refused leaves the store as it
is; a snapshot may be one of any store that comes about. -/
inductive Reachable : Store → Prop where
  | empty (ids : IdSupply) : Reachable (empty ids)
  | apply {s s' : Store} {message : Message} {origin : Origin} {outcome : Outcome} :
    Reachable s → s.apply message origin = .ok (outcome, s') → Reachable s'
  | replaceAll {s : Store} (reports : List Report) :
    Reachable s → Reachable (s.replaceAll reports).2
  | takeEvents {s : Store} : Reachable s → Reachable s.takeEvents
  | takePending {s : Store} : Reachable s → Reachable s.takePending
  | restore {s t : Store} : Reachable s → Reachable t → Reachable (s.restore t.snapshot)

variable {s s' s'' : Store} {message : Message} {origin : Origin}

/-! ## A resync -/

/-- A resync without events leaves the store as it is; otherwise it tells those of its plan. -/
theorem replaceAll_cases (s : Store) (reports : List Report) :
    let p := plan s.forest (Report.toForest reports)
    (p.events = [] ∧ (s.replaceAll reports).2 = s ∧ (s.replaceAll reports).1.changed = false ∧
        (s.replaceAll reports).1.revision = s.revision) ∨
      (p.events ≠ [] ∧ (s.replaceAll reports).2 = { s with
          forest := p.scene, revision := s.revision + 1, outbox := s.outbox ++ p.events } ∧
        (s.replaceAll reports).1.changed = true ∧
        (s.replaceAll reports).1.revision = s.revision + 1) := by
  unfold replaceAll
  by_cases hevents : (plan s.forest (Report.toForest reports)).events.isEmpty = true
  · refine .inl ⟨List.isEmpty_iff.mp hevents, ?_⟩
    simp only [if_pos hevents, and_self]
  · refine .inr ⟨fun h => hevents (List.isEmpty_iff.mpr h), ?_⟩
    simp only [if_neg hevents, and_self]

/-- How many reports are dropped depends on them alone. -/
theorem droppedRecords_replaceAll (s : Store) (reports : List Report) :
    (s.replaceAll reports).1.droppedRecords = reports.length - (Report.toForest reports).size := by
  simp only [replaceAll]
  split <;> rfl

theorem wellFormed_replaceAll (h : s.forest.WellFormed) (reports : List Report) :
    (s.replaceAll reports).2.forest.WellFormed := by
  rcases replaceAll_cases s reports with ⟨_, heq, _⟩ | ⟨_, heq, _⟩
  · rw [heq]
    exact h
  · rw [heq]
    exact plan_wellFormed h (Report.wellFormed_toForest reports)

theorem sameRows_replaceAll (h : s.forest.WellFormed) (reports : List Report) :
    SameRows (s.replaceAll reports).2.forest (Report.toForest reports) := by
  have ht := Report.wellFormed_toForest reports
  have hrows := plan_sameRows h ht
  rcases replaceAll_cases s reports with ⟨hevents, heq, _⟩ | ⟨_, heq, _⟩
  · rw [heq]
    obtain ⟨g, hg, hagree⟩ := plan_told h ht
    rw [hevents] at hg
    obtain rfl := Option.some.inj hg
    exact hagree.sameRows.trans hrows
  · rw [heq]
    exact hrows

/-! ## Well-formed at every step -/

theorem Reachable.wellFormed (h : s.Reachable) : s.forest.WellFormed := by
  induction h with
  | empty ids => exact wellFormed_nil
  | apply _ ha ih =>
    rcases apply_cases ih ha with rfl | hchanged
    · exact ih
    · exact hchanged.wellFormed
  | replaceAll reports _ ih => exact wellFormed_replaceAll ih reports
  | takeEvents _ ih => exact ih
  | takePending _ ih => exact ih
  | restore _ _ _ iht => exact iht

/-- Reports with everything that can be wrong: two of one id, siblings of one name, a parent that
nobody reports, and two instances that are each other's parent. -/
def tangledReports : List Report :=
  [⟨⟨"a"⟩, "Folder", "Shelf", none, .empty⟩, ⟨⟨"b"⟩, "Folder", "Shelf", none, .empty⟩,
    ⟨⟨"a"⟩, "Part", "Again", some ⟨"b"⟩, .empty⟩, ⟨⟨"c"⟩, "Part", "Box", some ⟨"b"⟩, .empty⟩,
    ⟨⟨"d"⟩, "Part", "Head", some ⟨"e"⟩, .empty⟩, ⟨⟨"e"⟩, "Part", "Tail", some ⟨"d"⟩, .empty⟩,
    ⟨⟨"f"⟩, "Part", "Stray", some ⟨"nobody"⟩, .empty⟩]

/-- What comes about from them. -/
def tangled : Store := ((empty (.stemmed "id")).replaceAll tangledReports).2

/-! ## Where a resync leads -/

/-- A resync leads to the tree that its reports describe: the same ids, and for each the same class,
name, parent, properties and children, in whatever order. The revision rises by one when the summary
says that something changed, and not otherwise; and when no value that is asked for is unequal to
itself, something changes exactly when the tree was another one before. -/
theorem resync_reaches_target (h : s.Reachable) (reports : List Report) :
    (s.replaceAll reports).2.forest.SameTree (Report.toForest reports) ∧
    (s.replaceAll reports).2.revision =
      s.revision + (if (s.replaceAll reports).1.changed then 1 else 0) ∧
    (s.replaceAll reports).1.revision = (s.replaceAll reports).2.revision ∧
    ((∀ item ∈ (Report.toForest reports).preorder, ∀ e ∈ item.properties.entries,
        (e.2 == e.2) = true) →
      ((s.replaceAll reports).1.changed = false ↔
        s.forest.SameTree (Report.toForest reports))) := by
  have ht := Report.wellFormed_toForest reports
  have hwf := h.wellFormed
  refine ⟨?_, ?_, ?_, fun hvalues => ?_⟩
  · have hwf' := wellFormed_replaceAll hwf reports
    exact (hwf'.sameTree_iff ht).mpr (sameRows_replaceAll hwf reports)
  · rcases replaceAll_cases s reports with ⟨_, heq, hchanged, _⟩ | ⟨_, heq, hchanged, _⟩
    · rw [hchanged, heq]
      rfl
    · rw [hchanged, heq]
      rfl
  · rcases replaceAll_cases s reports with ⟨_, heq, _, hrevision⟩ | ⟨_, heq, _, hrevision⟩
    · rw [hrevision, heq]
    · rw [hrevision, heq]
  · have hself : ∀ row ∈ (Report.toForest reports).table, ∀ key v,
        row.item.properties.get? key = some v → (v == v) = true := by
      intro row hrow key v hv
      refine hvalues row.item ?_ (key, v) (SortedMap.mem_of_find? hv)
      rw [← map_item_placements none]
      exact List.mem_map_of_mem hrow
    rw [hwf.sameTree_iff ht, ← plan_events_eq_nil_iff hwf ht hself]
    rcases replaceAll_cases s reports with ⟨hevents, _, hchanged, _⟩ | ⟨hevents, _, hchanged, _⟩
    · exact ⟨fun _ => hevents, fun _ => hchanged⟩
    · rw [hchanged]
      exact ⟨fun h => absurd h Bool.false_ne_true.symm, fun h => absurd h hevents⟩

/-- The first shelf goes below the box that stands in the second one, and all three exchange their
names. -/
def exchangedReports : List Report :=
  [⟨⟨"b"⟩, "Folder", "Shelf", none, .empty⟩,
    ⟨⟨"c"⟩, "Part", "Shelf_2", some ⟨"b"⟩, .ofList [("Weight", .number 0.5)]⟩,
    ⟨⟨"a"⟩, "Folder", "Box", some ⟨"c"⟩, .empty⟩]

/-- Names are exchanged and one instance moves below another that stood beside it; the second time
nothing is left to do. -/
theorem resync_reaches_target_exchanged :
    (tangled.replaceAll exchangedReports).2.forest.SameTree (Report.toForest exchangedReports) ∧
      (tangled.replaceAll exchangedReports).2.revision = 2 ∧
      ¬ tangled.forest.SameTree (Report.toForest exchangedReports) ∧
      ((tangled.replaceAll exchangedReports).2.replaceAll exchangedReports).1.changed = false := by
  have hs : tangled.Reachable := .replaceAll _ (.empty _)
  have hvalues : ∀ item ∈ (Report.toForest exchangedReports).preorder,
      ∀ e ∈ item.properties.entries, (e.2 == e.2) = true := by decide +kernel
  have hrevision : (tangled.replaceAll exchangedReports).2.revision = 2 := by decide +kernel
  have hchanges : (tangled.replaceAll exchangedReports).1.changed = true := by decide +kernel
  obtain ⟨htarget, _, _, hchanged⟩ := resync_reaches_target hs exchangedReports
  obtain ⟨_, _, _, hagain⟩ :=
    resync_reaches_target (.replaceAll exchangedReports hs) exchangedReports
  refine ⟨htarget, hrevision, fun hsame => ?_, (hagain hvalues).mpr htarget⟩
  have hunchanged := (hchanged hvalues).mpr hsame
  rw [hchanges] at hunchanged
  cases hunchanged

/-! ## Telling -/

/-- The events that a store adds to those of another one lead an observer from its forest to that of
the store. -/
def Tells (s s' : Store) : Prop :=
  ∃ events g, s'.outbox = s.outbox ++ events ∧ s.forest.follow? events = some g ∧
    g.Agree s'.forest

namespace Tells

theorem refl (s : Store) : s.Tells s :=
  ⟨[], s.forest, (List.append_nil _).symm, rfl, .refl _⟩

theorem trans (h : s.Tells s') (k : s'.Tells s'') : s.Tells s'' := by
  obtain ⟨events, g, hout, hg, hagree⟩ := h
  obtain ⟨more, g', hout', hg', hagree'⟩ := k
  obtain ⟨g'', hg'', hagree''⟩ := follow?_agree hagree.symm hg'
  refine ⟨events ++ more, g'', ?_, ?_, hagree''.symm.trans hagree'⟩
  · rw [hout', hout, List.append_assoc]
  · rw [follow?_append, hg]
    exact hg''

end Tells

theorem Changed.tells (h : s.Changed message origin s') : s.Tells s' := by
  obtain ⟨event, hout, he, _⟩ := h.told
  exact ⟨[event], s'.forest, hout, (follow?_single _ _).trans he, .refl _⟩

theorem tells_replaceAll (h : s.forest.WellFormed) (reports : List Report) :
    s.Tells (s.replaceAll reports).2 := by
  rcases replaceAll_cases s reports with ⟨_, heq, _⟩ | ⟨_, heq, _⟩
  · rw [heq]
    exact .refl s
  · rw [heq]
    obtain ⟨g, hg, hagree⟩ := plan_told h (Report.wellFormed_toForest reports)
    exact ⟨_, g, rfl, hg, hagree⟩

/-- Back at a snapshot everything that was told since is taken back with what was done. -/
theorem Tells.restore (h : s.Tells s') : s'.restore s.snapshot = { s with ids := s'.ids } := by
  obtain ⟨events, _, hout, _⟩ := h
  unfold Store.restore Store.snapshot
  rw [hout, List.take_left]

/-! ## Growing -/

/-- The revision of a store is not below that of another one, and at the same revision the forest is
the same. -/
structure Grows (s s' : Store) : Prop where
  revision : s.revision ≤ s'.revision
  forest : s'.revision = s.revision → s'.forest = s.forest

namespace Grows

theorem refl (s : Store) : s.Grows s := ⟨Nat.le_refl _, fun _ => rfl⟩

theorem trans (h : s.Grows s') (k : s'.Grows s'') : s.Grows s'' := by
  refine ⟨h.revision.trans k.revision, fun heq => ?_⟩
  -- Equal ends leave no room for a higher revision between them.
  have hmiddle : s'.revision = s.revision :=
    Nat.le_antisymm (heq ▸ k.revision) h.revision
  rw [k.forest (heq.trans hmiddle.symm), h.forest hmiddle]

/-- A higher revision may have any forest. -/
theorem of_lt (h : s.revision < s'.revision) : s.Grows s' :=
  ⟨Nat.le_of_lt h, fun heq => absurd heq (Nat.ne_of_gt h)⟩

end Grows

theorem Changed.grows (h : s.Changed message origin s') : s.Grows s' :=
  .of_lt (h.revision ▸ Nat.lt_succ_self _)

/-- A resync that tells nothing leaves the forest; any other one raises the revision. -/
theorem grows_replaceAll (s : Store) (reports : List Report) :
    s.Grows (s.replaceAll reports).2 := by
  rcases replaceAll_cases s reports with ⟨_, heq, _⟩ | ⟨_, heq, _⟩
  · rw [heq]
    exact .refl s
  · rw [heq]
    exact .of_lt (Nat.lt_succ_self _)

/-! ## Where a step leads -/

/-- A well-formed store, with all told that led there from another one, and no revision used twice
on the way. -/
structure Leads (s s' : Store) : Prop where
  wellFormed : s'.forest.WellFormed
  tells : s.Tells s'
  grows : s.Grows s'

namespace Leads

theorem refl (h : s.forest.WellFormed) : s.Leads s := ⟨h, .refl s, .refl s⟩

theorem trans (h : s.Leads s') (k : s'.Leads s'') : s.Leads s'' :=
  ⟨k.wellFormed, h.tells.trans k.tells, h.grows.trans k.grows⟩

theorem apply (h : s.forest.WellFormed) {outcome : Outcome}
    (ha : s.apply message origin = .ok (outcome, s')) : s.Leads s' := by
  rcases apply_cases h ha with rfl | hchanged
  · exact .refl h
  · exact ⟨hchanged.wellFormed, hchanged.tells, hchanged.grows⟩

theorem replaceAll (h : s.forest.WellFormed) (reports : List Report) :
    s.Leads (s.replaceAll reports).2 :=
  ⟨wellFormed_replaceAll h reports, tells_replaceAll h reports, grows_replaceAll s reports⟩

/-- The way back to a snapshot leads nowhere. -/
theorem restore (h : s.forest.WellFormed) (k : s.Leads s') :
    s.Leads (s'.restore s.snapshot) := by
  rw [k.tells.restore]
  exact ⟨h, ⟨[], s.forest, (List.append_nil _).symm, rfl, .refl _⟩, Nat.le_refl _, fun _ => rfl⟩

end Leads

end SharedScene.Store
