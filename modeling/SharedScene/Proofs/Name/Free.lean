import Mathlib
import SharedScene.Name

/-!
# A resolved name is free

The search for a free number tries one number more than there are siblings. Different numbers make
different names, so by the pigeonhole one of them is free: `resolve_not_mem`.
-/

namespace SharedScene.Name

theorem numbered_injective (base : String) : Function.Injective (numbered base) := by
  intro m n h
  have hrepr : Nat.repr m = Nat.repr n := (String.append_right_inj _).mp h
  exact Nat.repr_injective hrepr

/-- When the search ends at a name that is taken, every number that it tried is. -/
theorem forall_mem_of_firstFree_mem {base : String} {taken : List String} {tries k : Nat}
    (h : firstFree base taken tries k ∈ taken) : ∀ i ≤ tries, numbered base (k + i) ∈ taken := by
  induction tries generalizing k with
  | zero =>
    intro i hi
    obtain rfl := Nat.le_zero.mp hi
    exact h
  | succ tries ih =>
    intro i hi
    by_cases hk : numbered base k ∈ taken
    · rw [firstFree, if_pos hk] at h
      cases i with
      | zero => exact hk
      | succ i =>
        have := ih h i (Nat.le_of_succ_le_succ hi)
        rwa [Nat.add_right_comm] at this
    · rw [firstFree, if_neg hk] at h
      exact absurd h hk

/-- With as many tries as there are siblings the search ends at a free name. -/
theorem firstFree_not_mem (base : String) (taken : List String) (k : Nat) :
    firstFree base taken taken.length k ∉ taken := by
  intro h
  let tried := (List.range (taken.length + 1)).map fun i => numbered base (k + i)
  have hnodup : tried.Nodup := by
    refine List.Nodup.map (fun i j hij => ?_) List.nodup_range
    exact Nat.add_left_cancel (numbered_injective base hij)
  have hsubset : tried ⊆ taken := by
    intro name hname
    obtain ⟨i, hi, rfl⟩ := List.mem_map.mp hname
    exact forall_mem_of_firstFree_mem h i (Nat.le_of_lt_succ (List.mem_range.mp hi))
  have hle := hnodup.length_le_of_subset hsubset
  rw [List.length_map, List.length_range] at hle
  exact absurd hle (Nat.not_succ_le_self _)

/-- No sibling has the resolved name. -/
theorem resolve_not_mem (desired : String) (siblings : List String) :
    resolve desired siblings ∉ siblings := by
  unfold resolve
  split
  · exact firstFree_not_mem _ siblings 2
  · next h => exact h

end SharedScene.Name
