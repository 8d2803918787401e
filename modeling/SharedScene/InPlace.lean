/-!
# Changes where the state stands

An operation that answers with a new state leaves the old one alone when it refuses. One that
changes the state where it stands does not: what it has written stays, even if it refuses later.
Such an operation is a program of **checks**, which read, and writes. As long as the checks come
first it comes to the same as the operation that answers (`run_check_bind` takes one check at a
time), and then a refusal has written nothing (`outcome`).
-/

namespace SharedScene.InPlace

variable {ε σ α β : Type}

/-- What is read from the state, or the refusal. -/
def check (read : σ → Except ε α) : EStateM ε σ α := do
  match read (← get) with
  | .ok a => return a
  | .error e => throw e

/-- An answer as the outcome of a change in place, where a refusal leaves the state alone. -/
def outcome (s : σ) : Except ε (β × σ) → EStateM.Result ε σ β
  | .ok (b, s') => .ok b s'
  | .error e => .error e s

/-- Nothing is written by a check, so what follows it decides. -/
theorem run_check_bind {s : σ} {read : σ → Except ε α} {f : α → EStateM ε σ β}
    {g : α → Except ε (β × σ)} (h : ∀ a, read s = .ok a → (f a).run s = outcome s (g a)) :
    (check read >>= f).run s = outcome s (read s >>= g) := by
  cases hread : read s with
  | error e => simp only [check, EStateM.run_bind, EStateM.run_get, hread]; rfl
  | ok a => simp only [check, EStateM.run_bind, EStateM.run_get, hread]; exact h a hread

/-- A refusal has written nothing. -/
theorem outcome_eq_error {s s' : σ} {answer : Except ε (β × σ)} {e : ε} :
    outcome s answer = .error e s' ↔ answer = .error e ∧ s' = s := by
  cases answer with
  | ok done => exact ⟨fun h => (by cases h), fun h => (by cases h.1)⟩
  | error e' =>
    refine ⟨fun h => (by cases h; exact ⟨rfl, rfl⟩), ?_⟩
    rintro ⟨h, rfl⟩
    cases h
    rfl

end SharedScene.InPlace
