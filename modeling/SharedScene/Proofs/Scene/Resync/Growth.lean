import SharedScene.Proofs.Scene.Reachable
import SharedScene.Proofs.Scene.Rows

/-!
# A scene that grows from nothing

A resync of an empty scene finds no survivor, so its plan is one of creates alone
(`plan_nil`). Each create adds the next row of the target at the end of those under its parent, and
in the end every parent has the rows of the target in the target's order. So here, where nothing is
kept, the target is reached with its order of siblings (`scene_plan_nil`).
-/

namespace SharedScene

open Forest

namespace Resync

variable {old target : Forest} {there settled : List InstanceId} {p : Plan} {w : Placed}
  {rows : List Placed}

/-! ## Creates keep the order -/

/-- A create puts its row at the end of those under its parent. -/
theorem Building.rowsUnder_create (h : Building old target there settled p)
    (hparent : ∀ x, w.parent = some x → x ∈ there) (x : Option InstanceId) :
    rowsUnder (p.create w).scene.table x = rowsUnder p.scene.table x ++ rowsUnder [w] x := by
  obtain ⟨q, hq⟩ := exists_parentPath? fun y hy => (h.ids y).mpr (hparent y hy)
  obtain ⟨hid, hchildren⟩ := h.wellFormed.parentPath?_eq_some_iff.mp hq
  simp only [Plan.create, hq]
  rw [Plan.step_scene, rowsUnder_graft (WellFormed.nodup_ids h.wellFormed) hchildren, hid]

/-- Creates one after the other, parents first, put their rows there in their order. -/
theorem Building.rowsUnder_foldl_create (h : Building old target there settled p)
    (ht : target.WellFormed) (hrows : ∀ w ∈ rows, w ∈ target.table)
    (hfirst : ParentsFirst there rows) (hnew : ∀ w ∈ rows, w.id ∉ there)
    (nodup : (rows.map Placed.id).Nodup) (x : Option InstanceId) :
    rowsUnder (rows.foldl Plan.create p).scene.table x =
      rowsUnder p.scene.table x ++ rowsUnder rows x := by
  induction rows generalizing there settled p with
  | nil => exact (List.append_nil _).symm
  | cons w rows ih =>
    have hcreated := h.create ht (hrows w List.mem_cons_self) hfirst.1 (hnew w List.mem_cons_self)
    have hlater := ih hcreated (fun r hr => hrows r (List.mem_cons_of_mem _ hr)) hfirst.2
      (new_after_create hnew nodup) (List.nodup_cons.mp nodup).2
    rw [List.foldl_cons, hlater, h.rowsUnder_create hfirst.1, List.append_assoc, ← rowsUnder_append,
      List.singleton_append]

/-! ## The plan -/

theorem survivors_nil (target : Forest) : survivors .nil target = [] := by
  induction target with
  | nil => rfl
  | cons item children rest _ ihr => exact ihr

/-- From nothing everything is created, in the order of the target. -/
theorem plan_nil (target : Forest) :
    plan .nil target = target.table.foldl Plan.create ⟨.nil, []⟩ := by
  simp [plan, survivors_nil, Plan.deleteDoomed, Plan.doomed]

theorem building_nil (target : Forest) : Building .nil target [] [] ⟨.nil, []⟩ where
  wellFormed := wellFormed_nil
  told := ⟨.nil, rfl, .nil⟩
  ids _ := .rfl
  rows _ h := absurd h List.not_mem_nil

/-- From nothing the target is reached as it is, order of siblings included. -/
theorem scene_plan_nil (ht : target.WellFormed) : (plan .nil target).scene = target := by
  have hscene := plan_wellFormed wellFormed_nil ht
  refine eq_of_rowsUnder_eq (WellFormed.nodup_ids hscene) (WellFormed.nodup_ids ht) fun x => ?_
  rw [plan_nil, (building_nil target).rowsUnder_foldl_create ht (fun _ hw => hw)
    (parentsFirst_table target) (fun _ _ => List.not_mem_nil) (Sound.nodup_ids ht)]
  rfl

end Resync

/-- A resync of an empty scene makes it what the reports describe, order of siblings included. -/
theorem Store.forest_replaceAll_of_nil {s : Store} (h : s.forest = .nil) (reports : List Report) :
    (s.replaceAll reports).2.forest = Report.toForest reports := by
  have ht := Report.wellFormed_toForest reports
  have hscene := Resync.scene_plan_nil ht
  rcases replaceAll_cases s reports with ⟨hevents, heq, _⟩ | ⟨_, heq, _⟩
  · -- no event leads from nothing to the target, so the target is empty too
    obtain ⟨g, hg, hagree⟩ := Resync.plan_told wellFormed_nil ht
    rw [h] at hevents
    rw [hevents] at hg
    obtain rfl := Option.some.inj hg
    rw [hscene] at hagree
    rw [heq, h]
    generalize Report.toForest reports = target at hagree
    cases hagree
    rfl
  · rw [heq, h, hscene]

end SharedScene
