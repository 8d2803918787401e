import SharedScene.Proofs.Scene.Resync.Target
import SharedScene.Proofs.Scene.Resync.Updates
import SharedScene.Proofs.Scene.SameTree

/-!
# A plan reaches its target

Moves, deletes, creates and updates, one after the other (`plan_building`): the scene of a plan has
the rows of the target, and whoever follows the events from the old forest holds that scene. A plan
without events is one for which nothing had to be done (`plan_events_eq_nil_iff`). The one thing
that makes a plan repeat itself is a value that is not equal to itself.
-/

namespace SharedScene.Resync

open Forest

variable {old target : Forest}

/-! ## Stage by stage -/

/-- The rows of the survivors, as the target wants them. -/
def keptRows (old target : Forest) : List Placed :=
  target.table.filter fun w => (survivors old target).contains w.id

/-- The rows of all others. -/
def freshRows (old target : Forest) : List Placed :=
  target.table.filter fun w => !(survivors old target).contains w.id

/-- A plan after its moves. -/
def moved (old target : Forest) : Plan := (keptRows old target).foldl Plan.place ⟨old, []⟩

/-- A plan after its moves and deletes. -/
def cleared (old target : Forest) : Plan :=
  (moved old target).deleteDoomed (survivors old target)

/-- A plan before its updates. -/
def filled (old target : Forest) : Plan :=
  (freshRows old target).foldl Plan.create (cleared old target)

theorem keptRows_eq (old target : Forest) : keptRows old target =
    target.table.filter fun w => decide (w.item.id ∈ survivors old target) :=
  List.filter_congr fun _ _ => List.contains_eq_mem _ _

theorem freshRows_eq (old target : Forest) : freshRows old target =
    target.table.filter fun w => decide (w.item.id ∉ survivors old target) :=
  List.filter_congr fun _ _ => by
    rw [List.contains_eq_mem, decide_not]
    rfl

theorem plan_eq (old target : Forest) :
    plan old target = (keptRows old target).foldl Plan.updateProperties (filled old target) := by
  rw [filled, cleared, moved, keptRows_eq, freshRows_eq]
  rfl

section Stages

variable {w : Placed}

theorem mem_keptRows :
    w ∈ keptRows old target ↔ w ∈ target.table ∧ w.id ∈ survivors old target := by
  rw [keptRows, List.mem_filter, List.contains_iff_mem]

theorem mem_freshRows :
    w ∈ freshRows old target ↔ w ∈ target.table ∧ w.id ∉ survivors old target := by
  rw [freshRows, List.mem_filter, Bool.not_eq_true', ← Bool.not_eq_true, List.contains_iff_mem]

theorem nodup_freshRows (ht : target.WellFormed) :
    ((freshRows old target).map Placed.id).Nodup :=
  (Sound.sublist ht List.filter_sublist).nodup_ids

theorem mem_old_of_mem_keptRows (ht : target.WellFormed) (hw : w ∈ keptRows old target) :
    w.id ∈ old.ids := by
  obtain ⟨hmem, hs⟩ := mem_keptRows.mp hw
  obtain ⟨before, hbefore, _⟩ := keepsClass_of_mem_survivors (WellFormed.nodup_ids ht) hmem hs
  exact isSome_placed?_iff.mp (Option.isSome_iff_exists.mpr ⟨before, hbefore⟩)

/-- After the moves the survivors stand where the target wants them, and who is no survivor has
only been set aside. -/
theorem placing_moved (hold : old.WellFormed) (ht : target.WellFormed) :
    Placing old ((keptRows old target).reverse ++ []) (moved old target) ∧
      ∀ x, Aside (keptRows old target) ⟨old, []⟩ (moved old target) x := by
  have hsound : Sound (keptRows old target ++ []) := by
    rw [List.append_nil]
    exact Sound.sublist ht List.filter_sublist
  have hfirst : ParentsFirst [] (keptRows old target) :=
    keptRows_eq old target ▸ parentsFirst_kept (WellFormed.nodup_ids ht)
  exact (Placing.start hold).foldl (fun _ => mem_old_of_mem_keptRows ht) hfirst hsound.nodup_ids
    hsound.nodup_slots

theorem mem_reverse_keptRows :
    w ∈ (keptRows old target).reverse ++ [] ↔ w ∈ target.table ∧ w.id ∈ survivors old target := by
  rw [List.append_nil, List.mem_reverse]
  exact mem_keptRows

theorem parentsFirst_freshRows : ParentsFirst (survivors old target) (freshRows old target) :=
  freshRows_eq old target ▸ parentsFirst_fresh

/-- After the deletes only the survivors are there. -/
theorem building_cleared (hold : old.WellFormed) (ht : target.WellFormed) :
    Building old target (survivors old target) [] (cleared old target) :=
  (placing_moved hold ht).1.building (fun _ => mem_reverse_keptRows) ht

/-- After the creates all of the target is there. -/
theorem building_filled (hold : old.WellFormed) (ht : target.WellFormed) :
    Building old target (((freshRows old target).map Placed.id).reverse ++ survivors old target)
      (((freshRows old target).map Placed.id).reverse ++ []) (filled old target) :=
  (building_cleared hold ht).foldl_create ht (fun _ hw => (mem_freshRows.mp hw).1)
    parentsFirst_freshRows (fun _ hw => (mem_freshRows.mp hw).2) (nodup_freshRows ht)

end Stages

/-! ## The whole plan -/

/-- At the end of a plan every instance of the target is there and settled, and no other. -/
theorem plan_building (hold : old.WellFormed) (ht : target.WellFormed) :
    ∃ there settled, Building old target there settled (plan old target) ∧
      (∀ id, id ∈ there → id ∈ target.ids) ∧ ∀ id ∈ target.ids, id ∈ there ∧ id ∈ settled := by
  have hupdated := (building_filled hold ht).foldl_update ht
    fun _ (hw : _ ∈ keptRows old target) => (mem_keptRows.mp hw).1
  rw [← plan_eq] at hupdated
  refine ⟨_, _, hupdated, fun id hid => ?_, fun id hid => ?_⟩
  · rcases List.mem_append.mp hid with hid | hid
    · obtain ⟨w, hw, rfl⟩ := List.mem_map.mp (List.mem_reverse.mp hid)
      exact mem_ids_of_mem (mem_freshRows.mp hw).1
    · exact mem_ids_of_mem_survivors hid
  · obtain ⟨w, hw, rfl⟩ := exists_mem_of_mem_ids none hid
    by_cases hs : w.id ∈ survivors old target
    · refine ⟨List.mem_append_right _ hs, List.mem_append_left _ (List.mem_reverse.mpr ?_)⟩
      exact List.mem_map_of_mem (mem_keptRows.mpr ⟨hw, hs⟩)
    · have hmem : w.id ∈ ((freshRows old target).map Placed.id).reverse :=
        List.mem_reverse.mpr (List.mem_map_of_mem (mem_freshRows.mpr ⟨hw, hs⟩))
      exact ⟨List.mem_append_left _ hmem,
        List.mem_append_right _ (List.mem_append_left _ hmem)⟩

theorem plan_wellFormed (hold : old.WellFormed) (ht : target.WellFormed) :
    (plan old target).scene.WellFormed := by
  obtain ⟨_, _, h, _⟩ := plan_building hold ht
  exact h.wellFormed

/-- Who follows the events of a plan from the old forest holds its scene. -/
theorem plan_told (hold : old.WellFormed) (ht : target.WellFormed) :
    (plan old target).Told old := by
  obtain ⟨_, _, h, _⟩ := plan_building hold ht
  exact h.told

/-- The scene of a plan has the rows of the target. -/
theorem plan_sameRows (hold : old.WellFormed) (ht : target.WellFormed) :
    SameRows (plan old target).scene target := by
  obtain ⟨there, settled, h, hthere, htarget⟩ := plan_building hold ht
  intro id
  cases hrow : (plan old target).scene.placed? id with
  | none =>
    cases hwanted : target.placed? id with
    | none => exact .none
    | some w =>
      have hmem := (h.ids id).mpr (htarget id (isSome_placed?_iff.mp (by rw [hwanted]; rfl))).1
      rw [← isSome_placed?_iff, hrow] at hmem
      exact absurd hmem Bool.false_ne_true
  | some row =>
    obtain ⟨hmem, hid⟩ := h.wellFormed.placed?_eq_some_iff.mp hrow
    obtain ⟨w, hw, hstands, hagree⟩ := h.rows row hmem
    have hwid : w.id = id := hstands.id.symm.trans hid
    obtain ⟨hparent, hname⟩ := Prod.ext_iff.mp hstands.slot
    rw [ht.placed?_eq_some_iff.mpr ⟨hw, hwid⟩]
    refine .some ⟨hparent, ⟨hstands.id, hstands.className, hname, hagree ?_⟩⟩
    rw [hid, ← hwid]
    exact (htarget w.id (mem_ids_of_mem hw)).2

/-! ## Nothing to do -/

section Nothing

variable {before w : Placed}

/-- A survivor that stands where the target wants it is left alone. -/
theorem place_eq_self (hbefore : old.placed? w.item.id = some before) (hagree : before.Agree w) :
    Plan.place ⟨old, []⟩ w = ⟨old, []⟩ := by
  refine Plan.place_of_slot ?_
  rw [show old.placed? w.id = some before from hbefore, Option.map_some]
  exact congrArg some (Prod.ext hagree.parent hagree.item.name)

/-- Maps that agree do not differ, unless a value of the second differs from itself. -/
theorem differences_eq_nil {a b : Properties} (hagree : Properties.Agree a b)
    (hvalues : ∀ key v, b.get? key = some v → (v == v) = true) : Plan.differences a b = [] := by
  refine List.eq_nil_iff_forall_not_mem.mpr fun c hc => ?_
  have hne := (Plan.mem_differences.mp hc).2
  have hkey := hagree c.1
  have hself := hvalues c.1
  generalize a.get? c.1 = x, b.get? c.1 = y at hne hkey hself
  cases hkey with
  | none => cases hne
  | some hsame =>
    rw [bne, show (some _ == some _) = true from hsame.beq (hself _ rfl)] at hne
    cases hne

/-- A survivor with the properties that the target wants is left alone. -/
theorem updateProperties_eq_self (hbefore : old.placed? w.item.id = some before)
    (hagree : before.Agree w)
    (hvalues : ∀ key v, w.item.properties.get? key = some v → (v == v) = true) :
    Plan.updateProperties ⟨old, []⟩ w = ⟨old, []⟩ := by
  have hnone := differences_eq_nil hagree.item.properties hvalues
  simp only [Plan.updateProperties, hbefore]
  split
  · next hcurrent _ =>
    obtain rfl := Option.some.inj hcurrent
    rw [hnone]
  · rfl

theorem deleteDoomed_eq_self {surviving : List InstanceId} (h : ∀ id ∈ old.ids, id ∈ surviving) :
    Plan.deleteDoomed ⟨old, []⟩ surviving = ⟨old, []⟩ := by
  unfold Plan.deleteDoomed
  rw [Plan.doomed_eq_nil h]
  rfl

theorem foldl_eq_self {step : Plan → Placed → Plan} {p : Plan} {rows : List Placed}
    (h : ∀ w ∈ rows, step p w = p) : rows.foldl step p = p := by
  induction rows with
  | nil => rfl
  | cons w rows ih =>
    rw [List.foldl_cons, h w List.mem_cons_self]
    exact ih fun r hr => h r (List.mem_cons_of_mem _ hr)

end Nothing

/-- Between forests of the same rows nothing has to be done, unless a wanted value differs from
itself. -/
theorem plan_eq_self (ht : target.WellFormed) (same : SameRows old target)
    (hvalues : ∀ row ∈ target.table, ∀ key v, row.item.properties.get? key = some v →
      (v == v) = true) : plan old target = ⟨old, []⟩ := by
  have hrow : ∀ w ∈ target.table, ∃ before, old.placed? w.item.id = some before ∧
      before.Agree w := by
    intro w hw
    have hid := same w.id
    rw [ht.placed?_eq_some_iff.mpr ⟨hw, rfl⟩] at hid
    generalize hbefore : old.placed? w.id = a at hid
    cases hid with
    | @some before _ hagree => exact ⟨before, hbefore, hagree⟩
  have hall : survivors old target = target.ids := by
    refine survivors_eq_ids fun item hitem => ?_
    rw [← map_item_placements none] at hitem
    obtain ⟨w, hw, rfl⟩ := List.mem_map.mp hitem
    obtain ⟨before, hbefore, hagree⟩ := hrow w hw
    exact ⟨before, hbefore, hagree.item.className⟩
  have hgone : ∀ id ∈ old.ids, id ∈ target.ids := fun id => (same.mem_ids_iff id).mp
  have hfresh : target.table.filter (fun w => decide (w.item.id ∉ target.ids)) = [] :=
    List.filter_eq_nil_iff.mpr fun w hw h => of_decide_eq_true h (mem_ids_of_mem hw)
  have hkept : target.table.filter (fun w => decide (w.item.id ∈ target.ids)) = target.table :=
    List.filter_eq_self.mpr fun w hw => decide_eq_true (mem_ids_of_mem hw)
  have hplaced : target.table.foldl Plan.place ⟨old, []⟩ = ⟨old, []⟩ := by
    refine foldl_eq_self fun w hw => ?_
    obtain ⟨before, hbefore, hagree⟩ := hrow w hw
    exact place_eq_self hbefore hagree
  have hupdated : target.table.foldl Plan.updateProperties ⟨old, []⟩ = ⟨old, []⟩ := by
    refine foldl_eq_self fun w hw => ?_
    obtain ⟨before, hbefore, hagree⟩ := hrow w hw
    exact updateProperties_eq_self hbefore hagree (hvalues w hw)
  unfold plan
  simp only [hall, hfresh, hkept, hplaced, deleteDoomed_eq_self hgone, List.foldl_nil, hupdated]

/-- A plan has no events exactly when the target has the rows of the old forest, unless a wanted
value differs from itself. -/
theorem plan_events_eq_nil_iff (hold : old.WellFormed) (ht : target.WellFormed)
    (hvalues : ∀ row ∈ target.table, ∀ key v, row.item.properties.get? key = some v →
      (v == v) = true) : (plan old target).events = [] ↔ SameRows old target := by
  constructor
  · intro hevents
    obtain ⟨g, hg, hagree⟩ := plan_told hold ht
    rw [hevents] at hg
    obtain rfl := Option.some.inj hg
    exact hagree.sameRows.trans (plan_sameRows hold ht)
  · intro same
    rw [plan_eq_self ht same hvalues]

end SharedScene.Resync
