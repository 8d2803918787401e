import SharedScene.Value.Basic
import SharedScene.Proofs.SortedMap

/-!
# When two values are the same

Equality of values compares numbers as doubles do: the two zeros are equal, and NaN is equal to
nothing. It is symmetric and transitive (`Value` is a `PartialEquivBEq`) but not reflexive, so what
a resync leaves alone because it is equal need not be identical, and what it replaces need not have
changed.

Two values are the **same** when they are identical or equal. Maps of properties **agree** when
they have the same keys and the same value under each. Both are what somebody can tell who reads a
scene: values that are the same differ in nothing but the sign of a zero.
-/

namespace SharedScene

open Float.Model (UnpackedFloat)

/-! ## Numbers -/

/-- The place of a number among all numbers, as sign, exponent and mantissa; NaN has none. The two
zeros share theirs. -/
def magnitude? : UnpackedFloat → Option (Int × Int × Nat)
  | .notANumber => none
  | .infinity .negative => some (-2, 0, 0)
  | .infinity .positive => some (2, 0, 0)
  | .zero _ => some (0, 0, 0)
  | .finite .negative mantissa exponent _ => some (-1, exponent, mantissa)
  | .finite .positive mantissa exponent _ => some (1, exponent, mantissa)

theorem compare_sign_self (s : UnpackedFloat.Sign) : compare s s = .eq := by cases s <;> rfl

/-- Two unpacked numbers are equal exactly when they have one place. -/
theorem compare_eq_iff (x y : UnpackedFloat) :
    x.compare y = some .eq ↔ ∃ m, magnitude? x = some m ∧ magnitude? y = some m := by
  rcases x with (_ | _) | _ | _ | ⟨(_ | _), m, e, _⟩ <;>
    rcases y with (_ | _) | _ | _ | ⟨(_ | _), n, f, _⟩ <;>
    dsimp only [UnpackedFloat.compare, magnitude?] <;>
    simp [compare_sign_self] <;>
    exact and_congr eq_comm eq_comm

theorem float_beq_iff (x y : Float) :
    (x == y) = true ↔
      ∃ m, magnitude? x.toModel.unpack = some m ∧ magnitude? y.toModel.unpack = some m := by
  rw [← compare_eq_iff]
  show (x.toModel.unpack.compare y.toModel.unpack == some .eq) = true ↔ _
  exact beq_iff_eq

/-- Equality of numbers is symmetric and transitive. -/
instance instPartialEquivBEqFloat : PartialEquivBEq Float where
  symm {x y} h := by
    obtain ⟨m, hx, hy⟩ := (float_beq_iff x y).mp h
    exact (float_beq_iff y x).mpr ⟨m, hy, hx⟩
  trans {x y z} hxy hyz := by
    obtain ⟨m, hx, hy⟩ := (float_beq_iff x y).mp hxy
    obtain ⟨n, hy', hz⟩ := (float_beq_iff y z).mp hyz
    cases hy.symm.trans hy'
    exact (float_beq_iff x z).mpr ⟨m, hx, hz⟩

/-! ## Values -/

section Containers

universe u v

variable {α : Type u} {β : Type v} [BEq α] [PartialEquivBEq α] [BEq β] [PartialEquivBEq β]

instance instPartialEquivBEqProd : PartialEquivBEq (α × β) where
  symm {a b} h := by
    obtain ⟨h₁, h₂⟩ := Bool.and_eq_true_iff.mp h
    exact Bool.and_eq_true_iff.mpr ⟨PartialEquivBEq.symm h₁, PartialEquivBEq.symm h₂⟩
  trans {a b c} h k := by
    obtain ⟨h₁, h₂⟩ := Bool.and_eq_true_iff.mp h
    obtain ⟨k₁, k₂⟩ := Bool.and_eq_true_iff.mp k
    exact Bool.and_eq_true_iff.mpr ⟨BEq.trans h₁ k₁, BEq.trans h₂ k₂⟩

instance instPartialEquivBEqList : PartialEquivBEq (List α) where
  symm {l m} h := by
    induction l generalizing m with
    | nil => cases m with
      | nil => rfl
      | cons b m => cases h
    | cons a l ih => cases m with
      | nil => cases h
      | cons b m =>
        rw [List.cons_beq_cons, Bool.and_eq_true_iff] at h ⊢
        exact ⟨PartialEquivBEq.symm h.1, ih h.2⟩
  trans {l m n} h k := by
    induction l generalizing m n with
    | nil => cases m with
      | nil => exact k
      | cons b m => cases h
    | cons a l ih => cases m with
      | nil => cases h
      | cons b m => cases n with
        | nil => cases k
        | cons c n =>
          rw [List.cons_beq_cons, Bool.and_eq_true_iff] at h k ⊢
          exact ⟨BEq.trans h.1 k.1, ih h.2 k.2⟩

instance [LT α] : PartialEquivBEq (SortedMap α β) where
  symm h := PartialEquivBEq.symm (α := List (α × β)) h
  trans h k := BEq.trans (α := List (α × β)) h k

end Containers

namespace Value

/-- Equal values have one constructor, so equality of values is symmetric and transitive as far as
it is on what they hold. -/
instance : PartialEquivBEq Value where
  symm {a b} h := by
    cases a with
    | bool x => cases b with
      | bool y => exact PartialEquivBEq.symm (a := x) h
      | _ => cases h
    | number x => cases b with
      | number y => exact PartialEquivBEq.symm (a := x) h
      | _ => cases h
    | string x => cases b with
      | string y => exact PartialEquivBEq.symm (a := x) h
      | _ => cases h
    | enum t x => cases b with
      | enum u y => exact PartialEquivBEq.symm (a := (t, x)) (b := (u, y)) h
      | _ => cases h
    | struct t x => cases b with
      | struct u y => exact PartialEquivBEq.symm (a := (t, x)) (b := (u, y)) h
      | _ => cases h
    | unsupported x => cases b with
      | unsupported y => exact PartialEquivBEq.symm (a := x) h
      | _ => cases h
  trans {a b c} h k := by
    cases b with
    | bool y => cases a with
      | bool x => cases c with
        | bool z => exact BEq.trans (b := y) h k
        | _ => cases k
      | _ => cases h
    | number y => cases a with
      | number x => cases c with
        | number z => exact BEq.trans (b := y) h k
        | _ => cases k
      | _ => cases h
    | string y => cases a with
      | string x => cases c with
        | string z => exact BEq.trans (b := y) h k
        | _ => cases k
      | _ => cases h
    | enum u y => cases a with
      | enum t x => cases c with
        | enum w z => exact BEq.trans (a := (t, x)) (b := (u, y)) (c := (w, z)) h k
        | _ => cases k
      | _ => cases h
    | struct u y => cases a with
      | struct t x => cases c with
        | struct w z => exact BEq.trans (a := (t, x)) (b := (u, y)) (c := (w, z)) h k
        | _ => cases k
      | _ => cases h
    | unsupported y => cases a with
      | unsupported x => cases c with
        | unsupported z => exact BEq.trans (b := y) h k
        | _ => cases k
      | _ => cases h

/-- Identical, or equal as values. -/
def Same (a b : Value) : Prop := a = b ∨ (a == b) = true

/-- Every value is the same as itself, even one with NaN in it. -/
theorem Same.refl (a : Value) : a.Same a := .inl rfl

theorem Same.symm {a b : Value} (h : a.Same b) : b.Same a :=
  h.imp Eq.symm PartialEquivBEq.symm

/-- Values that are the same as a third one are the same. -/
theorem Same.trans {a b c : Value} (hab : a.Same b) (hbc : b.Same c) : a.Same c := by
  rcases hab with rfl | hab
  · exact hbc
  · rcases hbc with rfl | hbc
    · exact .inr hab
    · exact .inr (BEq.trans hab hbc)

/-- What is the same as a value that equals itself is equal to it. -/
theorem Same.beq {a b : Value} (h : a.Same b) (self : (b == b) = true) : (a == b) = true := by
  rcases h with rfl | h
  · exact self
  · exact h

end Value

/-! ## Maps of properties -/

/-- The same keys, and the same value under each. -/
def Properties.Agree (p q : Properties) : Prop :=
  ∀ key, Option.Rel Value.Same (p.get? key) (q.get? key)

namespace Properties.Agree

theorem refl (p : Properties) : Agree p p := by
  intro key
  cases p.get? key with
  | none => exact .none
  | some a => exact .some (.refl a)

theorem symm {p q : Properties} (h : Agree p q) : Agree q p := by
  intro key
  have hkey := h key
  generalize p.get? key = a, q.get? key = b at hkey
  cases hkey with
  | none => exact .none
  | some hab => exact .some hab.symm

theorem trans {p q r : Properties} (hpq : Agree p q) (hqr : Agree q r) : Agree p r := by
  intro key
  have h₁ := hpq key
  have h₂ := hqr key
  generalize p.get? key = a, q.get? key = b, r.get? key = c at h₁ h₂
  cases h₁ with
  | none => cases h₂; exact .none
  | some hab => cases h₂ with
    | some hbc => exact .some (hab.trans hbc)

theorem insert {p q : Properties} (h : Agree p q) (key : String) (value : Value) :
    Agree (SortedMap.insert p key value) (SortedMap.insert q key value) := by
  intro k
  rw [SortedMap.get?_insert, SortedMap.get?_insert]
  split
  · exact .some (.refl value)
  · exact h k

theorem erase {p q : Properties} (h : Agree p q) (key : String) :
    Agree (SortedMap.erase p key) (SortedMap.erase q key) := by
  intro k
  rw [SortedMap.get?_erase, SortedMap.get?_erase]
  split
  · exact .none
  · exact h k

end Properties.Agree

end SharedScene
