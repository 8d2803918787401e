import SharedScene.Proofs.Scene.Arena.Build
import SharedScene.Proofs.Scene.Arena.Plan
import SharedScene.Proofs.Scene.Arena.Store
import SharedScene.Proofs.Scene.Reachable

/-!
# A resync on an arena

Brought to what reports describe, tables show the store that is brought there, and the summaries are
the same (`ArenaStore.replaceAll_shows`).

**Equal tables are not planned for.** When the tables of the target equal those of the scene, the
resync ends before there is a plan. That is no other answer: tables that are equal store the same
tree, no value in them differs from itself, and so a plan has nothing to do
(`Arena.plan_events_of_beq`).
-/

namespace SharedScene

open Forest Resync

/-! ## Equal tables -/

/-- Equal maps agree. -/
theorem Properties.Agree.of_beq {a b : Properties} (h : (a == b) = true) :
    Properties.Agree a b := fun key => by
  have hkey : (a.get? key == b.get? key) = true := SortedMap.find?_beq h key
  generalize a.get? key = x, b.get? key = y at hkey
  cases x with
  | none => cases y with
    | none => exact .none
    | some y => cases hkey
  | some x => cases y with
    | none => cases hkey
    | some y => exact .some (.inr hkey)

/-- A value that is equal to any other is equal to itself. -/
theorem Properties.value_beq_self {a b : Properties} (h : (a == b) = true) {key : String}
    {v : Value} (hv : a.get? key = some v) : (v == v) = true := by
  have hkey : (a.get? key == b.get? key) = true := SortedMap.find?_beq h key
  rw [hv] at hkey
  cases hb : b.get? key with
  | none =>
    rw [hb] at hkey
    cases hkey
  | some w =>
    rw [hb] at hkey
    have hvw : (v == w) = true := hkey
    exact BEq.trans hvw (PartialEquivBEq.symm hvw)

/-- Equal records agree, and hold equal properties. -/
theorem Instance.agree_of_beq {r s : Instance} (h : (r == s) = true) :
    r.Agree s ∧ (r.properties == s.properties) = true := by
  obtain ⟨rid, rclass, rname, rparent, rproperties, rchildren⟩ := r
  obtain ⟨sid, sclass, sname, sparent, sproperties, schildren⟩ := s
  change instBEqInstance.beq _ _ = true at h
  unfold instBEqInstance.beq at h
  simp only [Bool.and_eq_true, beq_iff_eq] at h
  obtain ⟨hid, hclass, hname, hparent, hproperties, _⟩ := h
  exact ⟨⟨hid, hclass, hname, hparent, .of_beq hproperties⟩, hproperties⟩

namespace Arena

variable {a b : Arena} {old target : Forest}

/-- Equal tables have equal records. -/
theorem nodes_beq (h : (b == a) = true) (id : InstanceId) :
    (b.nodes.get? id == a.nodes.get? id) = true := by
  obtain ⟨nodes, _, _, _⟩ := a
  obtain ⟨nodes', _, _, _⟩ := b
  change instBEqArena.beq _ _ = true at h
  unfold instBEqArena.beq at h
  simp only [Bool.and_eq_true] at h
  exact SortedMap.find?_beq h.1 id

/-- Equal tables store forests of the same rows. -/
theorem sameRows_of_beq (ha : a.Stores old) (hold : old.WellFormed) (hb : b.Stores target)
    (ht : target.WellFormed) (h : (b == a) = true) : SameRows old target := fun id => by
  have hid := nodes_beq h id
  rw [hb.node_eq ht, ha.node_eq hold] at hid
  generalize target.placed? id = x, old.placed? id = y at hid
  cases x with
  | none => cases y with
    | none => exact .none
    | some row => cases hid
  | some wanted => cases y with
    | none => cases hid
    | some row =>
      rw [Option.map_some, Option.map_some, Option.some_beq_some] at hid
      obtain ⟨hagree, _⟩ := Instance.agree_of_beq hid
      exact .some ⟨hagree.parent.symm, hagree.id.symm, hagree.className.symm, hagree.name.symm,
        Properties.Agree.symm hagree.properties⟩

/-- Between equal tables a plan has nothing to do. -/
theorem plan_events_of_beq (ha : a.Stores old) (hold : old.WellFormed) (hb : b.Stores target)
    (ht : target.WellFormed) (h : (b == a) = true) : (Resync.plan old target).events = [] := by
  have hvalues : ∀ row ∈ target.table, ∀ key v, row.item.properties.get? key = some v →
      (v == v) = true := fun row hrow key v hv => by
    have hnode := nodes_beq h row.id
    rw [hb.node_of_mem ht hrow] at hnode
    generalize a.nodes.get? row.id = x at hnode
    cases x with
    | none => cases hnode
    | some s =>
      rw [Option.some_beq_some] at hnode
      obtain ⟨_, hproperties⟩ := Instance.agree_of_beq hnode
      exact Properties.value_beq_self hproperties hv
  rw [plan_eq_self ht (sameRows_of_beq ha hold hb ht h) hvalues]

end Arena

/-! ## The resync -/

/-- A resync does to tables what it does to the forest that they store. -/
theorem ArenaStore.replaceAll_shows {s : Store} {t : ArenaStore} (h : t.Shows s)
    (hs : s.forest.WellFormed) (reports : List Report) :
    (t.replaceAll reports).1 = (s.replaceAll reports).1 ∧
      (t.replaceAll reports).2.Shows (s.replaceAll reports).2 := by
  obtain @⟨s, a, ha⟩ := h
  have hb := Arena.stores_ofReports reports
  have ht := Report.wellFormed_toForest reports
  have hplan := Arena.plan_mirrors ha hs hb ht
  have hsize := hb.size ht
  unfold ArenaStore.replaceAll Store.replaceAll
  simp only [show (s.onArena a).arena = a from rfl, hsize, hplan.events]
  by_cases hequal : (Arena.ofReports reports == a) = true
  · have hnone := Arena.plan_events_of_beq ha hs hb ht hequal
    simp only [if_pos hequal, hnone, List.isEmpty_nil, if_true]
    exact ⟨rfl, .onArena ha⟩
  · simp only [if_neg hequal]
    by_cases hnone : (Resync.plan s.forest (Report.toForest reports)).events.isEmpty = true
    · simp only [if_pos hnone]
      exact ⟨rfl, .onArena ha⟩
    · simp only [if_neg hnone]
      refine ⟨rfl, .onArena (s := { s with
        forest := (Resync.plan s.forest (Report.toForest reports)).scene
        revision := s.revision + 1
        outbox := s.outbox ++ (Resync.plan s.forest (Report.toForest reports)).events }) ?_⟩
      exact hplan.scratch

end SharedScene
