import Mathlib.Logic.Relation
import SharedScene.Proofs.Scene.SameTree
import SharedScene.Proofs.Scene.Resync.Survival

/-!
# Who survives, seen from outside

A resync finds its survivors by a walk of the target. What it finds can be said without the walk
(`mem_survivors_iff`): an instance survives when it and everything above it in the new forest was in
the old one, each with its class. That depends on rows alone, so it is the same whether one looks
at the target or at the scene that a resync leaves (`survives_iff_of_sameRows`).
-/

namespace SharedScene

/-- Whether an instance is the parent of another one. -/
def Forest.IsParent (f : Forest) (x id : InstanceId) : Prop :=
  (f.placed? id).map (·.parent) = some (some x)

namespace Resync

open Forest

variable {old new new' : Forest} {row : Placed} {id x : InstanceId}

/-- Whether an instance is in both forests, and of the same class. -/
def SameClass (old new : Forest) (id : InstanceId) : Prop :=
  ∃ before after, old.placed? id = some before ∧ new.placed? id = some after ∧
    before.item.className = after.item.className

/-- Whether an instance survives when one forest becomes another: it and all that stands above it
in the new forest was in the old one with the same class. -/
def Survives (old new : Forest) (id : InstanceId) : Prop :=
  ∀ x, Relation.ReflTransGen new.IsParent x id → SameClass old new x

/-- An instance survives when its parent does and it keeps its class. -/
theorem survives_iff (hrow : new.placed? id = some row) : Survives old new id ↔
    SameClass old new id ∧ ∀ x, row.parent = some x → Survives old new x := by
  have hparent : ∀ x, new.IsParent x id ↔ row.parent = some x := by
    intro x
    rw [IsParent, hrow, Option.map_some, Option.some_inj]
  constructor
  · exact fun h => ⟨h id .refl, fun x hx y hy => h y (hy.tail ((hparent x).mpr hx))⟩
  · rintro ⟨hclass, habove⟩ y hy
    cases hy with
    | refl => exact hclass
    | tail hy hx => exact habove _ ((hparent _).mp hx) y hy

theorem Survives.mem_ids (h : Survives old new id) : id ∈ new.ids := by
  obtain ⟨_, after, _, hafter, _⟩ := h id .refl
  exact isSome_placed?_iff.mp (by rw [hafter]; rfl)

/-- The walk of a resync finds exactly those that survive. -/
theorem mem_survivors_iff (h : new.WellFormed) (id : InstanceId) :
    id ∈ survivors old new ↔ Survives old new id := by
  have nodup := WellFormed.nodup_ids h
  have hall : ∀ row ∈ new.table, row.id ∈ survivors old new ↔ Survives old new row.id := by
    -- parents come before their children in the table
    refine (parentsFirst_table new).forall_mem (P := fun id => id ∈ survivors old new ↔ _)
      (fun _ hx => absurd hx List.not_mem_nil) fun row hrow hparent => ?_
    have hplaced : new.placed? row.id = some row := h.placed?_eq_some_iff.mpr ⟨hrow, rfl⟩
    rw [survives_iff hplaced]
    constructor
    · intro hs
      obtain ⟨before, hbefore, hclass⟩ := keepsClass_of_mem_survivors nodup hrow hs
      refine ⟨⟨before, row, hbefore, hplaced, hclass⟩, fun x hx => (hparent x hx).mp ?_⟩
      rcases survivors_upward nodup hrow hs with heq | ⟨above, habove, heq⟩
      · cases heq.symm.trans hx
      · exact Option.some.inj (heq.symm.trans hx) ▸ habove
    · rintro ⟨⟨before, after, hbefore, hafter, hclass⟩, habove⟩
      obtain rfl := Option.some.inj (hplaced.symm.trans hafter)
      refine mem_survivors_of_keepsClass nodup (fun _ _ heq => by cases heq) hrow
        ⟨before, hbefore, hclass⟩ ?_
      cases hrp : row.parent with
      | none => exact .inl rfl
      | some x => exact .inr ⟨x, (hparent x hrp).mpr (habove x hrp), rfl⟩
  constructor
  · intro hs
    obtain ⟨row, hrow, rfl⟩ := exists_mem_of_mem_ids none (mem_ids_of_mem_survivors hs)
    exact (hall row hrow).mp hs
  · intro hs
    obtain ⟨row, hrow, rfl⟩ := exists_mem_of_mem_ids none hs.mem_ids
    exact (hall row hrow).mpr hs

/-- Forests with the same rows have the same survivors. -/
theorem survives_iff_of_sameRows (same : SameRows new new') (id : InstanceId) :
    Survives old new id ↔ Survives old new' id := by
  have hparent : new.IsParent = new'.IsParent := by
    funext x id
    rw [IsParent, IsParent, same.map_parent]
  have hclass : ∀ x, SameClass old new x ↔ SameClass old new' x := by
    intro x
    have hx := same x
    unfold SameClass
    generalize new.placed? x = a, new'.placed? x = b at hx
    cases hx with
    | none => simp
    | some hab => simp [hab.item.className]
  unfold Survives
  rw [hparent]
  exact forall_congr' fun x => imp_congr_right fun _ => hclass x

end Resync

end SharedScene
