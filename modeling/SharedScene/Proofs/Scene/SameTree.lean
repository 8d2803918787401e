import SharedScene.Proofs.Scene.Observer
import SharedScene.Proofs.Scene.Records

/-!
# The same tree

Two scenes are the **same tree** when they have the same ids and for each id the same class, name,
parent and properties and the same children, in whatever order (`SameTree`). For well-formed forests
this is a matter of rows alone: each id has rows that agree in both, or in neither
(`WellFormed.sameTree_iff`), since a parent lists those children whose rows name it.
-/

namespace SharedScene

/-- Records that agree in all but the order of children. -/
structure Instance.Agree (a b : Instance) : Prop where
  id : a.id = b.id
  className : a.className = b.className
  name : a.name = b.name
  parent : a.parent = b.parent
  properties : Properties.Agree a.properties b.properties

namespace Forest

variable {f g h : Forest}

/-- The same instances, and under each parent the same children in whatever order. -/
structure SameTree (f g : Forest) : Prop where
  records : ∀ id, Option.Rel Instance.Agree (f.instance? id) (g.instance? id)
  children : ∀ parent, (f.childIds parent).Perm (g.childIds parent)

/-- The same parent, and items that agree. -/
structure Placed.Agree (a b : Placed) : Prop where
  parent : a.parent = b.parent
  item : a.item.Agree b.item

/-- Each id has rows that agree, or none. -/
def SameRows (f g : Forest) : Prop :=
  ∀ id, Option.Rel Placed.Agree (f.placed? id) (g.placed? id)

namespace SameRows

theorem trans (hfg : SameRows f g) (hgh : SameRows g h) : SameRows f h := by
  intro id
  have h₁ := hfg id
  have h₂ := hgh id
  generalize f.placed? id = a, g.placed? id = b, h.placed? id = c at h₁ h₂
  cases h₁ with
  | none => exact h₂
  | some hab => cases h₂ with
    | some hbc => exact .some ⟨hab.parent.trans hbc.parent, hab.item.trans hbc.item⟩

theorem map_parent (hfg : SameRows f g) (id : InstanceId) :
    (f.placed? id).map (·.parent) = (g.placed? id).map (·.parent) := by
  have hid := hfg id
  generalize f.placed? id = a, g.placed? id = b at hid
  cases hid with
  | none => rfl
  | some hab => exact congrArg some hab.parent

theorem mem_ids_iff (hfg : SameRows f g) (id : InstanceId) : id ∈ f.ids ↔ id ∈ g.ids := by
  rw [← isSome_placed?_iff, ← isSome_placed?_iff, ← Option.isSome_map, hfg.map_parent,
    Option.isSome_map]

theorem size_eq (hfg : SameRows f g) (hf : f.WellFormed) (hg : g.WellFormed) :
    f.size = g.size := by
  have hperm := (List.perm_ext_iff_of_nodup (WellFormed.nodup_ids hf)
    (WellFormed.nodup_ids hg)).mpr hfg.mem_ids_iff
  rw [← length_ids, ← length_ids, hperm.length_eq]

end SameRows

/-- Forests that agree have rows that agree, one after the other. -/
theorem Agree.placements (hfg : f.Agree g) (parent : Option InstanceId) :
    List.Forall₂ Placed.Agree (placements parent f) (placements parent g) := by
  induction hfg generalizing parent with
  | nil => exact .nil
  | cons hitem _ _ ihc ihr =>
    refine .cons ⟨rfl, hitem⟩ (List.rel_append ?_ (ihr parent))
    rw [hitem.id]
    exact ihc _

theorem Agree.sameRows (hfg : f.Agree g) : SameRows f g := by
  intro id
  have hrows := hfg.placements none
  unfold Forest.placed?
  generalize Forest.placements none f = rows, Forest.placements none g = rows' at hrows
  induction hrows with
  | nil => exact .none
  | @cons a b _ _ hrow _ ih =>
    rw [List.find?_cons, List.find?_cons, hrow.item.id]
    by_cases hb : b.item.id = id
    · simp only [hb, decide_true]
      exact .some hrow
    · simp only [hb, decide_false]
      exact ih

/-- Rows in another order are the same rows. -/
theorem WellFormed.sameRows_of_perm (hf : f.WellFormed) (hperm : g.table.Perm f.table) :
    SameRows f g := by
  have hg : g.WellFormed := Sound.perm hf hperm
  intro id
  have heq : g.placed? id = f.placed? id := by
    refine Option.ext fun row => ?_
    rw [hg.placed?_eq_some_iff, hf.placed?_eq_some_iff, hperm.mem_iff]
  rw [heq]
  cases f.placed? id with
  | none => exact .none
  | some row => exact .some ⟨rfl, .refl _⟩

/-- Well-formed forests are the same tree exactly when they have the same rows. -/
theorem WellFormed.sameTree_iff (hf : f.WellFormed) (hg : g.WellFormed) :
    SameTree f g ↔ SameRows f g := by
  have records : (∀ id, Option.Rel Instance.Agree (f.instance? id) (g.instance? id)) ↔
      SameRows f g := by
    refine forall_congr' fun id => ?_
    rw [hf.instance?_eq, hg.instance?_eq]
    cases f.placed? id with
    | none => cases g.placed? id with
      | none => exact ⟨fun _ => .none, fun _ => .none⟩
      | some b => exact ⟨fun hid => (by cases hid), fun hid => (by cases hid)⟩
    | some a => cases g.placed? id with
      | none => exact ⟨fun hid => (by cases hid), fun hid => (by cases hid)⟩
      | some b =>
        constructor
        · intro hid
          cases hid with
          | some hab =>
            exact .some ⟨hab.parent, ⟨hab.id, hab.className, hab.name, hab.properties⟩⟩
        · intro hid
          cases hid with
          | some hab => exact .some ⟨hab.item.id, hab.item.className, hab.item.name,
              hab.parent, hab.item.properties⟩
  refine ⟨fun hfg => records.mp hfg.records, fun hfg => ⟨records.mpr hfg, fun parent => ?_⟩⟩
  refine (List.perm_ext_iff_of_nodup (hf.nodup_childIds parent)
    (hg.nodup_childIds parent)).mpr fun id => ?_
  rw [hf.mem_childIds_iff, hg.mem_childIds_iff, hfg.map_parent]

end Forest

end SharedScene
