import SharedScene.Proofs.Scene.Arena.Edit
import SharedScene.Proofs.Scene.Resync.Stack
import SharedScene.Scene.Arena.Resync

/-!
# The target in an arena

An arena that is built from reports stores the forest that the reports describe
(`Arena.stores_ofReports`). Both are built with the same stack, so it is enough to follow one step
(`Report.Walk.Ready.step`). A report on the stack is **ready** when its parent stands at the path
that is noted beside it. It is never there already: whatever is built stays to the end, and in the
end no id is there twice.
-/

namespace SharedScene

namespace Forest

/-- A graft takes nothing away. -/
theorem ids_sublist_graft (new f : Forest) (q : Path) : f.ids.Sublist (graft new f q).ids := by
  induction f generalizing q with
  | nil => exact List.nil_sublist _
  | cons item children rest ihc ihr =>
    cases q with
    | nil =>
      rw [graft, ids_append]
      exact List.sublist_append_left _ _
    | cons n q =>
      by_cases hn : item.name = n
      · rw [graft_cons_of_eq _ hn, ids_cons, ids_cons]
        exact ((ihc q).append_right _).cons_cons _
      · rw [graft_cons_of_ne _ hn, ids_cons, ids_cons]
        exact ((ihr _).append_left _).cons_cons _

/-- A new instance has an id that was free, when afterwards no id is there twice. -/
theorem not_mem_ids_of_nodup_graft {f : Forest} {q : Path} {item : Item}
    (hq : (f.childrenAt? q).isSome) (nodup : (graft (single item .nil) f q).ids.Nodup) :
    item.id ∉ f.ids := by
  have hperm := (table_graft item hq).map Placed.id
  rw [map_id_placements, List.map_cons, map_id_placements] at hperm
  exact (List.nodup_cons.mp (hperm.nodup_iff.mp nodup)).1

end Forest

namespace Report

open Forest

namespace Walk

variable {reports : List Report} {w w' : Walk} {target : Forest} {n : Nat}

/-- What was built stays. -/
theorem ids_sublist_of_after? (h : w.after? reports n = some w') :
    w.scene.ids.Sublist w'.scene.ids := by
  induction n generalizing w with
  | zero =>
    obtain rfl := Option.some.inj h
    exact .refl _
  | succ n ih =>
    obtain ⟨next, hnext, h⟩ := Option.bind_eq_some_iff.mp h
    refine List.Sublist.trans ?_ (ih h)
    unfold step? at hnext
    split at hnext
    · cases hnext
    · obtain rfl := Option.some.inj hnext
      exact ids_sublist_graft _ _ _

/-- What is built is well-formed, and the reports on the stack are to go where their parents
stand. -/
structure Ready (reports : List Report) (w : Walk) : Prop where
  wellFormed : w.scene.WellFormed
  reported : ∀ e ∈ w.stack, e.1 ∈ reports
  parent : ∀ e ∈ w.stack, w.scene.parentPath? e.1.parentId = some e.2

theorem ready_start (reports : List Report) : (start reports).Ready reports where
  wellFormed := wellFormed_nil
  reported e he := by
    obtain ⟨r, hr, rfl⟩ := List.mem_map.mp he
    exact List.mem_of_mem_filter hr
  parent e he := by
    obtain ⟨r, hr, rfl⟩ := List.mem_map.mp he
    rw [of_decide_eq_true (List.mem_filter.mp hr).2]
    rfl

/-- A report is built in a free place, and its children become ready. -/
theorem Ready.step {r : Report} {q : Path} {rest : List (Report × Path)} {scene siblings : Forest}
    (h : Ready reports ⟨(r, q) :: rest, scene⟩) (hq : scene.childrenAt? q = some siblings)
    (hid : r.id ∉ scene.ids) : Ready reports
      ⟨pushed reports (some r.id) (q.child (r.toItem siblings.names).name) ++ rest,
        graft (single (r.toItem siblings.names) .nil) scene q⟩ := by
  have hf : scene.WellFormed := h.wellFormed
  have hchildren : (scene.childrenAt? q).isSome := by rw [hq]; rfl
  have hg : (graft (single (r.toItem siblings.names) .nil) scene q).WellFormed :=
    hf.graft hchildren hid (hf.slot_free_of_not_mem_names hq (Name.resolve_not_mem _ _))
      (unreserved_toItem r siblings.names)
  have hpath := hf.pathOf?_graft hg hchildren
  refine ⟨hg, fun e he => ?_, fun e he => ?_⟩
  · rcases List.mem_append.mp he with he | he
    · obtain ⟨r', hr', rfl⟩ := List.mem_map.mp he
      exact List.mem_of_mem_filter hr'
    · exact h.reported e (List.mem_cons_of_mem _ he)
  · rcases List.mem_append.mp he with he | he
    · obtain ⟨r', hr', rfl⟩ := List.mem_map.mp he
      rw [of_decide_eq_true (List.mem_filter.mp hr').2]
      exact (hpath r.id).trans (if_pos rfl)
    · have hparent := h.parent e (List.mem_cons_of_mem _ he)
      cases hid' : e.1.parentId with
      | none =>
        rw [hid'] at hparent
        exact hparent
      | some x =>
        rw [hid'] at hparent
        refine (hpath x).trans ((if_neg ?_).trans hparent)
        rintro rfl
        exact hid (isSome_pathOf?_iff.mp (Option.isSome_of_eq_some hparent))

end Walk

end Report

namespace Arena

open Forest Report

variable {reports : List Report} {a : Arena} {w : Walk} {target : Forest}

/-- Under a parent that is reported, or at the root, are no orphans. -/
theorem awaiting_eq {parent : Option InstanceId} (path : Path)
    (h : ∀ id, parent = some id → ∃ r ∈ reports, r.id = id) :
    awaiting reports parent path = pushed reports parent path := by
  unfold awaiting childReports pushed
  rw [List.filter_filter]
  refine congrArg (List.map _) (List.filter_congr fun r _ => ?_)
  cases hparent : decide (r.parentId = parent) with
  | false => rfl
  | true =>
    rw [of_decide_eq_true hparent]
    cases parent with
    | none => rfl
    | some id =>
      obtain ⟨q, hq, hid⟩ := h id rfl
      exact List.any_eq_true.mpr ⟨q, hq, decide_eq_true hid⟩

/-- Building a report that is ready does to the tables what it does to the forest. -/
theorem Stores.build {r : Report} {q : Path} {rest : List (Report × Path)}
    {scene siblings : Forest} (h : a.Stores scene)
    (hready : Walk.Ready reports ⟨(r, q) :: rest, scene⟩) (hq : scene.childrenAt? q = some siblings)
    (hparent : scene.idAt? q = r.parentId)
    (hg : (graft (single (r.toItem siblings.names) .nil) scene q).WellFormed) :
    ∃ b, build reports a (r, q) =
        (b, pushed reports (some r.id) (q.child (r.toItem siblings.names).name)) ∧
      b.Stores (graft (single (r.toItem siblings.names) .nil) scene q) := by
  have hinsert := (h.insert hready.wellFormed hg (by rw [hq]; rfl)).2
  have hnames := h.siblingNames_none hready.wellFormed hq
  rw [hparent] at hinsert hnames
  refine ⟨_, ?_, hinsert⟩
  rw [← awaiting_eq _ fun id hid => ⟨r, hready.reported _ List.mem_cons_self, Option.some.inj hid⟩]
  unfold Arena.build
  dsimp only
  rw [hnames]
  rfl

/-- A walk that ends builds in an arena what it builds in a forest. -/
theorem stores_unstack (nodup : target.ids.Nodup) {n budget : Nat} (hbudget : n ≤ budget)
    (h : a.Stores w.scene) (hready : w.Ready reports)
    (hend : w.after? reports n = some ⟨[], target⟩) :
    (unstack (build reports) budget a w.stack).Stores target := by
  induction n generalizing a w budget with
  | zero =>
    obtain rfl := Option.some.inj hend
    rwa [unstack_nil]
  | succ n ih =>
    obtain ⟨more, rfl⟩ := Nat.exists_eq_add_of_le hbudget
    obtain ⟨stack, scene⟩ := w
    cases stack with
    | nil => cases hend
    | cons e rest =>
      obtain ⟨r, q⟩ := e
      obtain ⟨hparent, hchildren⟩ := hready.wellFormed.parentPath?_eq_some_iff.mp
        (hready.parent (r, q) List.mem_cons_self)
      obtain ⟨siblings, hq⟩ := Option.isSome_iff_exists.mp hchildren
      rw [Walk.after?, Walk.step?_cons hq, Option.bind_some] at hend
      have hid : (r.toItem siblings.names).id ∉ scene.ids :=
        not_mem_ids_of_nodup_graft hchildren (nodup.sublist (Walk.ids_sublist_of_after? hend))
      have hnext := hready.step hq hid
      obtain ⟨b, hbuild, hb⟩ := h.build hready hq hparent hnext.wellFormed
      have hrun := ih (Nat.le_add_right n more) hb hnext hend
      rw [Nat.succ_add]
      show (unstack (build reports) (n + more + 1) a ((r, q) :: rest)).Stores target
      rw [unstack, hbuild]
      exact hrun

/-- An arena that is built from reports stores what they describe. -/
theorem stores_ofReports (reports : List Report) :
    (ofReports reports).Stores (toForest reports) := by
  have hstart : awaiting (firsts [] reports) none Path.root =
      (Walk.start (firsts [] reports)).stack := awaiting_eq _ nofun
  unfold ofReports
  dsimp only
  rw [hstart]
  exact stores_unstack (WellFormed.nodup_ids (wellFormed_toForest reports))
    (size_toForest_le_firsts reports) stores_empty (Walk.ready_start _) (Walk.after?_start reports)

end Arena

end SharedScene
