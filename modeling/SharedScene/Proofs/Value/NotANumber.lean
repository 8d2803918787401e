import SharedScene.Proofs.Value.Agreement

/-!
# Which values differ from themselves

Equality of values is reflexive but for one thing: NaN, as a number or in a field of a struct. A
value equals itself exactly when there is no NaN in it (`Value.beq_self_iff`).
-/

namespace SharedScene

/-- A number equals itself unless it is NaN. -/
theorem float_beq_self_iff (x : Float) : (x == x) = true ↔ x.isNaN = false := by
  rw [float_beq_iff, Float.isNaN, Float.Model.isNaN]
  -- NaN alone has no place among the numbers
  cases x.toModel.unpack with
  | notANumber => exact iff_of_false (fun ⟨_, h, _⟩ => by cases h) nofun
  | infinity sign => cases sign <;> exact iff_of_true ⟨_, rfl, rfl⟩ rfl
  | zero sign => exact iff_of_true ⟨_, rfl, rfl⟩ rfl
  | finite sign mantissa exponent _ => cases sign <;> exact iff_of_true ⟨_, rfl, rfl⟩ rfl

theorem list_beq_self_iff {α : Type} [BEq α] (l : List α) :
    (l == l) = true ↔ ∀ a ∈ l, (a == a) = true := by
  induction l with
  | nil => simp
  | cons a l ih => rw [List.cons_beq_cons, Bool.and_eq_true_iff, ih, List.forall_mem_cons]

namespace Value

/-- Whether a value holds NaN. -/
def hasNaN : Value → Bool
  | .number x => x.isNaN
  | .struct _ fields => fields.values.any Float.isNaN
  | _ => false

/-- A value equals itself unless it holds NaN. -/
theorem beq_self_iff (v : Value) : (v == v) = true ↔ v.hasNaN = false := by
  cases v with
  | bool b => exact iff_of_true (beq_self_eq_true b) rfl
  | number x => exact float_beq_self_iff x
  | string s => exact iff_of_true (beq_self_eq_true s) rfl
  | enum t item => exact iff_of_true (beq_self_eq_true (t, item)) rfl
  | struct t fields =>
    have hfields : (fields.entries == fields.entries) = true ↔
        ∀ e ∈ fields.entries, e.2.isNaN = false := by
      rw [list_beq_self_iff]
      refine forall₂_congr fun e _ => ?_
      rw [← float_beq_self_iff]
      show (e.1 == e.1 && e.2 == e.2) = true ↔ _
      rw [beq_self_eq_true, Bool.true_and]
    show (t == t && fields.entries == fields.entries) = true ↔ _
    rw [beq_self_eq_true, Bool.true_and, hfields]
    simp [hasNaN, SortedMap.values]
  | unsupported t => exact iff_of_true (beq_self_eq_true t) rfl

end Value

end SharedScene
