import SharedScene.Proofs.Scene.Resync.Deletes

/-!
# What is new is created

The third part of a plan. From the deletes on, every row of the scene stands as the target wants it,
but for its properties, and the invariant `Building` says of which instances these are right as
well. A new instance comes after its parent and takes the slot of its row in the target, where no
two rows have one slot.
-/

namespace SharedScene.Resync

open Forest

variable {old target : Forest} {there settled : List InstanceId} {p : Plan} {w row : Placed}
  {done rows : List Placed}

/-- A row that stands as the target wants it, but for its properties. -/
structure Stands (w row : Placed) : Prop where
  id : row.id = w.id
  slot : row.slot = w.slot
  className : row.className = w.className

/-- What holds while instances are created and updated: every row of the scene stands as the target
wants it, and those that are settled have its properties. -/
structure Building (old target : Forest) (there settled : List InstanceId) (p : Plan) : Prop where
  wellFormed : p.scene.WellFormed
  told : p.Told old
  ids : ∀ id, id ∈ p.scene.ids ↔ id ∈ there
  rows : ∀ row ∈ p.scene.table, ∃ w ∈ target.table, Stands w row ∧
    (row.id ∈ settled → Properties.Agree row.item.properties w.item.properties)

/-- A survivor that is done has the class of before, which is the one that the target wants. -/
theorem Placing.stands (h : Placing old done p) (ht : target.WellFormed) (hw : w ∈ done)
    (hwt : w ∈ target.table) (hws : w.id ∈ survivors old target)
    (hrow : p.scene.placed? row.id = some row) (hid : w.id = row.id) : Stands w row := by
  refine ⟨hid.symm, ?_, ?_⟩
  · have hslot := h.placed w hw
    rw [hid, hrow] at hslot
    exact Option.some.inj hslot
  · obtain ⟨before, hbefore, hclass⟩ :=
      keepsClass_of_mem_survivors (WellFormed.nodup_ids ht) hwt hws
    have hkept := h.className row.id
    rw [hrow, ← hid, show old.placed? w.id = some before from hbefore] at hkept
    exact (Option.some.inj hkept).trans hclass

section Survivors

variable (hdone : ∀ w, w ∈ done ↔ w ∈ target.table ∧ w.id ∈ survivors old target)

include hdone

/-- When the rows of all survivors are done, those that are done are the survivors. -/
theorem mem_survivors_iff_done (x : InstanceId) :
    x ∈ done.map Placed.id ↔ x ∈ survivors old target := by
  rw [List.mem_map]
  constructor
  · rintro ⟨w, hw, rfl⟩
    exact ((hdone w).mp hw).2
  · intro hx
    obtain ⟨w, hw, rfl⟩ := exists_mem_of_mem_ids none (mem_ids_of_mem_survivors hx)
    exact ⟨w, (hdone w).mpr ⟨hw, hx⟩, rfl⟩

/-- After the moves only survivors stand above survivors. -/
theorem Placing.upClosed_survivors (h : Placing old done p) :
    p.scene.UpClosed (· ∈ survivors old target) := by
  have hmem := mem_survivors_iff_done hdone
  intro row hrow hid x hx
  exact (hmem x).mp (h.upClosed row hrow ((hmem row.id).mpr hid) x hx)

/-- After the moves and the deletes the survivors are there. -/
theorem Placing.building (h : Placing old done p) (ht : target.WellFormed) :
    Building old target (survivors old target) [] (p.deleteDoomed (survivors old target)) := by
  have hmem := mem_survivors_iff_done hdone
  have up := h.upClosed_survivors hdone
  have hscene : (p.deleteDoomed (survivors old target)).scene =
      prune (survivors old target) p.scene := by rw [Plan.deleteDoomed_eq h.wellFormed]
  have hwf : (prune (survivors old target) p.scene).WellFormed := h.wellFormed.prune up
  refine ⟨hscene ▸ hwf, h.told.deleteDoomed h.wellFormed, fun id => ?_, fun row hrow => ?_⟩
  · rw [hscene, ← isSome_placed?_iff, h.wellFormed.placed?_prune up]
    split
    · next hid =>
      rw [isSome_placed?_iff]
      exact ⟨fun _ => hid, fun _ => h.mem_ids ((hmem id).mpr hid)⟩
    · next hid => exact ⟨fun hsome => absurd hsome Bool.false_ne_true, fun hmem => absurd hmem hid⟩
  · rw [hscene] at hrow
    have hplaced := hwf.placed?_eq_some_iff.mpr ⟨hrow, rfl⟩
    rw [h.wellFormed.placed?_prune up] at hplaced
    split at hplaced
    · next hid =>
      obtain ⟨w, hw, heq⟩ := List.mem_map.mp ((hmem row.id).mpr hid)
      obtain ⟨hwt, hws⟩ := (hdone w).mp hw
      exact ⟨w, hwt, h.stands ht hw hwt hws hplaced heq,
        fun hmem => absurd hmem List.not_mem_nil⟩
    · cases hplaced

end Survivors

namespace Building

/-- A settled row of the target. -/
theorem settle (h : Building old target there settled p) (ht : target.WellFormed)
    (hw : w ∈ target.table)
    (hprops : ∀ row ∈ p.scene.table, row.id = w.id →
      Properties.Agree row.item.properties w.item.properties) :
    Building old target there (w.id :: settled) p where
  wellFormed := h.wellFormed
  told := h.told
  ids := h.ids
  rows := fun row hrow => by
    obtain ⟨w', hw', hstands, hagree⟩ := h.rows row hrow
    refine ⟨w', hw', hstands, fun hmem => ?_⟩
    rcases List.mem_cons.mp hmem with heq | hmem
    · have hsame : w' = w := ht.eq_of_id_eq hw' hw (hstands.id.symm.trans heq)
      exact hsame ▸ hprops row hrow heq
    · exact hagree hmem

/-- A row of the scene in the slot of a row of the target has its id. -/
theorem id_of_slot (h : Building old target there settled p) (ht : target.WellFormed)
    (hw : w ∈ target.table) (hrow : row ∈ p.scene.table) (hslot : row.slot = w.slot) :
    row.id = w.id := by
  obtain ⟨w', hw', hstands, _⟩ := h.rows row hrow
  rw [hstands.id, ht.eq_of_slot_eq hw' hw (hstands.slot.symm.trans hslot)]

/-- A create puts a new instance where the target wants it. -/
theorem create (h : Building old target there settled p) (ht : target.WellFormed)
    (hw : w ∈ target.table) (hparent : ∀ x, w.parent = some x → x ∈ there)
    (hnew : w.id ∉ there) :
    Building old target (w.id :: there) (w.id :: settled) (p.create w) := by
  obtain ⟨q, hq⟩ := exists_parentPath? fun x hx => (h.ids x).mpr (hparent x hx)
  obtain ⟨hid, hchildren⟩ := h.wellFormed.parentPath?_eq_some_iff.mp hq
  have hfresh : w.item.id ∉ p.scene.ids := fun hmem => hnew ((h.ids w.id).mp hmem)
  have hslot : ∀ row ∈ p.scene.table, row.slot ≠ (p.scene.idAt? q, w.item.name) := by
    intro row hrow heq
    rw [hid] at heq
    refine hfresh ?_
    rw [← show row.id = w.item.id from h.id_of_slot ht hw hrow heq]
    exact mem_ids_of_mem hrow
  have hwf := h.wellFormed.graft hchildren hfresh hslot (ht.unreserved w hw)
  have hfits : p.scene.isFree q w.item.name w.item.id = true :=
    h.wellFormed.isFree_iff.mpr ⟨hchildren, fun row hrow heq => absurd heq (hslot row hrow)⟩
  have htable := table_graft w.item hchildren
  rw [hid] at htable
  simp only [Plan.create, hq]
  refine ⟨hwf, h.told.step (replay?_create hid hfresh hfits), fun id => ?_, fun row hrow => ?_⟩
  · rw [Plan.step_scene, ← map_id_placements none, (htable.map Placed.id).mem_iff, List.map_cons,
      List.mem_cons, List.mem_cons, map_id_placements, h.ids]
  · rcases List.mem_cons.mp (htable.mem_iff.mp hrow) with rfl | hrow
    · exact ⟨w, hw, ⟨rfl, rfl, rfl⟩, fun _ => .refl _⟩
    · obtain ⟨w', hw', hstands, hagree⟩ := h.rows row hrow
      refine ⟨w', hw', hstands, fun hmem => ?_⟩
      rcases List.mem_cons.mp hmem with heq | hmem
      · refine absurd ?_ hfresh
        rw [← show row.id = w.item.id from heq]
        exact mem_ids_of_mem hrow
      · exact hagree hmem

/-- A create tells one event, and leaves alone whoever is there already. -/
theorem create_tells (h : Building old target there settled p) (ht : target.WellFormed)
    (hw : w ∈ target.table) (hparent : ∀ x, w.parent = some x → x ∈ there)
    (hnew : w.id ∉ there) :
    (∃ path record, (p.create w).events = p.events ++ [.create w.id path record]) ∧
      ∀ x ∈ there, p.Spares (p.create w) x := by
  have hwf := (h.create ht hw hparent hnew).wellFormed
  obtain ⟨q, hq⟩ := exists_parentPath? fun x hx => (h.ids x).mpr (hparent x hx)
  obtain ⟨_, hchildren⟩ := h.wellFormed.parentPath?_eq_some_iff.mp hq
  simp only [Plan.create, hq] at hwf ⊢
  refine ⟨⟨q.child w.item.name, _, rfl⟩, fun x hx => .step ?_ ?_⟩
  · exact h.wellFormed.placed?_graft hwf hchildren ((h.ids x).mpr hx)
  · rintro rfl
    exact hnew hx

/-- What was new before a create is new after it, but for what was created. -/
theorem new_after_create (hnew : ∀ r ∈ w :: rows, r.id ∉ there)
    (nodup : ((w :: rows).map Placed.id).Nodup) : ∀ r ∈ rows, r.id ∉ w.id :: there := by
  intro r hr hmem
  rcases List.mem_cons.mp hmem with heq | hmem
  · exact (List.nodup_cons.mp nodup).1 (heq ▸ List.mem_map_of_mem hr)
  · exact hnew r (List.mem_cons_of_mem _ hr) hmem

/-- Creates one after the other, parents first. -/
theorem foldl_create (h : Building old target there settled p) (ht : target.WellFormed)
    (hrows : ∀ w ∈ rows, w ∈ target.table) (hfirst : ParentsFirst there rows)
    (hnew : ∀ w ∈ rows, w.id ∉ there) (nodup : (rows.map Placed.id).Nodup) :
    Building old target ((rows.map Placed.id).reverse ++ there)
      ((rows.map Placed.id).reverse ++ settled) (rows.foldl Plan.create p) := by
  induction rows generalizing there settled p with
  | nil => exact h
  | cons w rows ih =>
    have hcreated := h.create ht (hrows w List.mem_cons_self) hfirst.1 (hnew w List.mem_cons_self)
    rw [List.map_cons, List.reverse_cons, List.append_assoc, List.append_assoc]
    exact ih hcreated (fun r hr => hrows r (List.mem_cons_of_mem _ hr)) hfirst.2
      (new_after_create hnew nodup) (List.nodup_cons.mp nodup).2

/-- Creates one after the other tell one event each, and leave alone whoever is there already. -/
theorem foldl_create_tells (h : Building old target there settled p) (ht : target.WellFormed)
    (hrows : ∀ w ∈ rows, w ∈ target.table) (hfirst : ParentsFirst there rows)
    (hnew : ∀ w ∈ rows, w.id ∉ there) (nodup : (rows.map Placed.id).Nodup) :
    (∃ creates, (rows.foldl Plan.create p).events = p.events ++ creates ∧
        creates.map Event.id = rows.map Placed.id ∧ ∀ e ∈ creates, isCreate e = true) ∧
      ∀ x ∈ there, p.Spares (rows.foldl Plan.create p) x := by
  induction rows generalizing there settled p with
  | nil => exact ⟨⟨[], (List.append_nil _).symm, rfl, fun _ he => absurd he List.not_mem_nil⟩,
      fun x _ => .refl p x⟩
  | cons w rows ih =>
    have hw := hrows w List.mem_cons_self
    have hfresh := hnew w List.mem_cons_self
    obtain ⟨⟨path, record, hevent⟩, hspares⟩ := h.create_tells ht hw hfirst.1 hfresh
    obtain ⟨⟨creates, hevents, hids, hkind⟩, hlater⟩ := ih (h.create ht hw hfirst.1 hfresh)
      (fun r hr => hrows r (List.mem_cons_of_mem _ hr)) hfirst.2 (new_after_create hnew nodup)
      (List.nodup_cons.mp nodup).2
    refine ⟨⟨.create w.id path record :: creates, ?_, congrArg (w.id :: ·) hids, ?_⟩, fun x hx =>
      (hspares x hx).trans (hlater x (List.mem_cons_of_mem _ hx))⟩
    · rw [List.foldl_cons, hevents, hevent, List.append_assoc, List.singleton_append]
    · exact List.forall_mem_cons.mpr ⟨rfl, hkind⟩

end Building

end SharedScene.Resync
