import Mathlib.Data.List.DropRight

/-!
# The last elements of a list

What is kept of a list that grows at its end and has a limit: the last elements (`List.rtake`). It
makes no difference whether the first ones go at every step or in the end (`rtake_concat_rtake`),
nor whether they go before or after a filter, when the filter lets everything pass from some point
on (`filter_rtake`) or stops one element at most (`rtake_filter_rtake`).
-/

namespace SharedScene

variable {α : Type*} {p : α → Bool} {l : List α}

theorem rtake_sublist (l : List α) (n : Nat) : (l.rtake n).Sublist l := List.drop_sublist _ l

theorem length_rtake_le (l : List α) (n : Nat) : (l.rtake n).length ≤ n := by
  unfold List.rtake
  rw [List.length_drop]
  omega

theorem rtake_rtake (l : List α) (m n : Nat) : (l.rtake m).rtake n = l.rtake (min n m) := by
  simp only [List.rtake_eq_reverse_take_reverse, List.reverse_reverse, List.take_take]

/-- When a list grows by one, its last elements are found among those it had last. -/
theorem rtake_concat_rtake (l : List α) (n : Nat) (a : α) :
    (l.rtake n ++ [a]).rtake n = (l ++ [a]).rtake n := by
  cases n with
  | zero => rw [List.rtake_zero, List.rtake_zero]
  | succ n =>
    rw [List.rtake_concat_succ, List.rtake_concat_succ, rtake_rtake,
      Nat.min_eq_left (Nat.le_succ n)]

/-- The last elements that pass are those of the last elements that pass, when everything behind one
that passes does too. -/
theorem filter_rtake (h : l.Pairwise fun a b => p a = true → p b = true) (n : Nat) :
    (l.rtake n).filter p = (l.filter p).rtake n := by
  induction l using List.reverseRecOn generalizing n with
  | nil => rw [List.rtake_nil, List.filter_nil, List.rtake_nil]
  | append_singleton l a ih =>
    obtain ⟨hl, -, hlast⟩ := List.pairwise_append.mp h
    by_cases ha : p a = true
    · cases n with
      | zero => rw [List.rtake_zero, List.rtake_zero, List.filter_nil]
      | succ n =>
        rw [List.rtake_concat_succ, List.filter_append, List.filter_append, ih hl,
          List.filter_singleton, ha, cond_true, List.rtake_concat_succ]
    · have hnone : ∀ x ∈ l ++ [a], ¬ p x = true := by
        intro x hx
        rcases List.mem_append.mp hx with hx | hx
        · exact fun hpasses => ha (hlast x hx a (List.mem_singleton_self a) hpasses)
        · rwa [List.mem_singleton.mp hx]
      rw [List.filter_eq_nil_iff.mpr hnone, List.rtake_nil]
      exact List.filter_eq_nil_iff.mpr fun x hx => hnone x ((rtake_sublist _ n).subset hx)

/-- Whoever leaves out one element finds the last ones among one more than are wanted. -/
theorem rtake_filter_rtake (h : l.Pairwise fun a b => p a = true ∨ p b = true) (n : Nat) :
    ((l.rtake (n + 1)).filter p).rtake n = (l.filter p).rtake n := by
  induction l using List.reverseRecOn generalizing n with
  | nil => rw [List.rtake_nil]
  | append_singleton l a ih =>
    obtain ⟨hl, -, hlast⟩ := List.pairwise_append.mp h
    rw [List.rtake_concat_succ, List.filter_append, List.filter_append, List.filter_singleton]
    by_cases ha : p a = true
    · cases n with
      | zero => rw [List.rtake_zero, List.rtake_zero]
      | succ n => rw [ha, cond_true, List.rtake_concat_succ, List.rtake_concat_succ, ih hl]
    · have hall : ∀ x ∈ l, p x = true := fun x hx =>
        (hlast x hx a (List.mem_singleton_self a)).resolve_right ha
      rw [Bool.not_eq_true] at ha
      rw [ha, cond_false, List.append_nil, List.append_nil, List.filter_eq_self.mpr hall,
        List.filter_eq_self.mpr fun x hx => hall x ((rtake_sublist l n).subset hx), rtake_rtake,
        Nat.min_self]

end SharedScene
