import SharedScene.Proofs.Command.Turn
import SharedScene.Proofs.Engine.Revision

/-!
# The turns of an engine

What commands an engine carries out, and when: the turns of whatever happens to it (`Act.turns`). A
reply holds the outcomes of the turns in their order (`outcomes_answer`), each turn runs under an
owner that its request takes (`exists_owner_of_mem_turns`), and what the turns and the releases of
these owners keep holds of every scene that a command finds and of the engine's scene afterwards
(`answer_keeps`).
-/

namespace SharedScene

/-- What became of the commands of a request. -/
def Answer.outcomes : Answer → List (Except Conflict CommandOutput)
  | .command reply => [reply.outcome]
  | .batch reply => reply.verdict.outcomes

namespace Engine

open LeasedScene

variable {e : Engine} {route : CommandRoute} {request : Json} {key : Option String}

/-- The turns of a request that is carried out. -/
def turns (e : Engine) (route : CommandRoute) (request : Json) : List Turn :=
  match route with
  | .command =>
    match CommandRequest.ofJson request with
    | .ok request => e.scene.commandTurns request (e.ownerAt 0)
    | .error _ => []
  | .commands =>
    match BatchRequest.ofJson request with
    | .ok request => e.scene.batchTurns request e.ownerAt e.now
    | .error _ => []

/-- The turns of what happens to an engine. A request that is answered with a reply of before has
none. -/
def Act.turns (act : Act) (e : Engine) : List Turn :=
  match act with
  | .answer route request key =>
    match (e.replies.get (route.scopedKey key) e.now).1 with
    | some _ => []
    | none => e.turns route request
  | _ => []

/-- A request that cannot be read does nothing; any other is one for a command, or for several. -/
theorem runRoute_cases (e : Engine) (route : CommandRoute) (request : Json) :
    (e.turns route request = [] ∧ (e.runRoute route request).2 = e) ∨
      (∃ r : CommandRequest, let done := e.scene.command r (e.ownerAt 0) e.now
        e.turns route request = e.scene.commandTurns r (e.ownerAt 0) ∧
          e.runRoute route request =
            (.command done.1, { e with scene := done.2, owners := e.owners + 1 })) ∨
      ∃ r : BatchRequest, let done := e.scene.batch r e.ownerAt e.now
        e.turns route request = e.scene.batchTurns r e.ownerAt e.now ∧
          e.runRoute route request = (.batch done.1, { e with
            scene := done.2, owners := e.owners + ownersTaken r.mode done.1.verdict }) := by
  cases route with
  | command =>
    cases hread : CommandRequest.ofJson request with
    | error err => exact .inl (by simp only [turns, runRoute, runCommand, hread, and_self])
    | ok r => exact .inr (.inl ⟨r, by simp only [turns, runRoute, runCommand, hread, and_self]⟩)
  | commands =>
    cases hread : BatchRequest.ofJson request with
    | error err => exact .inl (by simp only [turns, runRoute, runBatch, hread, and_self])
    | ok r => exact .inr (.inr ⟨r, by simp only [turns, runRoute, runBatch, hread, and_self]⟩)

/-- A request is answered with a reply of before, and nothing happens to the scene; or it is carried
out. -/
theorem answer_cases (e : Engine) (route : CommandRoute) (request : Json) (key : Option String) :
    ((Act.answer route request key).turns e = [] ∧
        (e.answer route request key).2.scene = e.scene ∧
        (e.answer route request key).2.owners = e.owners) ∨
      ∃ replies, let done := Engine.runRoute { e with replies } route request
        (Act.answer route request key).turns e = Engine.turns { e with replies } route request ∧
          (e.answer route request key).1 = done.1 ∧
          (e.answer route request key).2.scene = done.2.publish.scene ∧
          (e.answer route request key).2.owners = done.2.owners := by
  rcases hget : e.replies.get (route.scopedKey key) e.now with ⟨kept | kept, replies⟩
  · refine .inr ⟨replies, ?_, ?_⟩
    · simp only [Act.turns, hget]
      rfl
    · rw [answer_of_executed request hget]
      exact ⟨rfl, rfl, rfl⟩
  · refine .inl ⟨?_, ?_⟩
    · simp only [Act.turns, hget]
    · rw [answer_of_kept request hget]
      exact ⟨rfl, rfl⟩

/-! ## Outcomes -/

theorem outcomes_runRoute {j : Nat} {turn : Turn} (h : (e.turns route request)[j]? = some turn) :
    (e.runRoute route request).1.outcomes[j]? = some (turn.outcome e.now) := by
  rcases runRoute_cases e route request with ⟨hturns, _⟩ | ⟨r, hturns, hrun⟩ | ⟨r, hturns, hrun⟩
  · rw [hturns] at h
    cases h
  · rw [hturns] at h
    rw [hrun]
    -- there is one turn at most, so it is the first
    have hlength : (e.scene.commandTurns r (e.ownerAt 0)).length ≤ 1 := by
      unfold commandTurns
      split <;> simp
    obtain ⟨hj, _⟩ := List.getElem?_eq_some_iff.mp h
    obtain rfl : j = 0 := by omega
    exact congrArg some (outcome_command (List.mem_of_getElem? h))
  · rw [hturns] at h
    rw [hrun]
    show ((e.scene.batch r e.ownerAt e.now).1.verdict.outcomes)[j]? = _
    rw [outcomes_batch, List.getElem?_map, h]
    rfl

/-- The reply to a request holds the outcomes of its turns, in their order. -/
theorem outcomes_answer {j : Nat} {turn : Turn}
    (h : ((Act.answer route request key).turns e)[j]? = some turn) :
    (e.answer route request key).1.outcomes[j]? = some (turn.outcome e.now) := by
  rcases answer_cases e route request key with ⟨hnone, _⟩ | ⟨replies, hturns, hanswer, _⟩
  · rw [hnone] at h
    cases h
  · rw [hturns] at h
    rw [hanswer]
    exact outcomes_runRoute h

/-! ## Owners -/

/-- The turns of a request run under owners that it takes. -/
theorem exists_owner_of_mem_runRoute {turn : Turn} (h : turn ∈ e.turns route request) :
    ∃ n, e.owners < n ∧ n ≤ (e.runRoute route request).2.owners ∧
      turn.owner = Identifier.ofRequest n := by
  rcases runRoute_cases e route request with ⟨hturns, _⟩ | ⟨r, hturns, hrun⟩ | ⟨r, hturns, hrun⟩
  · rw [hturns] at h
    cases h
  · rw [hturns] at h
    rw [hrun]
    refine ⟨e.owners + 1, Nat.lt_succ_self _, Nat.le_refl _, ?_⟩
    unfold commandTurns at h
    split at h
    · cases h
    · rw [List.mem_singleton.mp h]
      rfl
  · rw [hturns] at h
    rw [hrun]
    obtain ⟨i, hi, howner⟩ := exists_owner_of_mem_batchTurns h
    exact ⟨e.owners + i + 1, by omega, Nat.add_le_add_left hi e.owners, howner⟩

/-- The turns of an answer run under owners that are taken for it. -/
theorem exists_owner_of_mem_turns {turn : Turn}
    (h : turn ∈ (Act.answer route request key).turns e) :
    ∃ n, e.owners < n ∧ n ≤ (e.answer route request key).2.owners ∧
      turn.owner = Identifier.ofRequest n := by
  rcases answer_cases e route request key with ⟨hnone, _⟩ | ⟨replies, hturns, _, _, howners⟩
  · rw [hnone] at h
    cases h
  · rw [hturns] at h
    rw [howners]
    exact exists_owner_of_mem_runRoute h

/-- An owner that is not taken for an answer is that of none of its turns. -/
theorem ne_owner_of_mem_turns {owner : Owner} {turn : Turn}
    (h : ∀ n, e.owners < n → n ≤ (e.answer route request key).2.owners →
      owner ≠ Identifier.ofRequest n)
    (hturn : turn ∈ (Act.answer route request key).turns e) : owner ≠ turn.owner := by
  obtain ⟨n, hlow, hhigh, howner⟩ := exists_owner_of_mem_turns hturn
  exact howner ▸ h n hlow hhigh

/-- Owners are taken and never given back. -/
theorem owners_le_runRoute (e : Engine) (route : CommandRoute) (request : Json) :
    e.owners ≤ (e.runRoute route request).2.owners := by
  rcases runRoute_cases e route request with ⟨_, hrun⟩ | ⟨r, _, hrun⟩ | ⟨r, _, hrun⟩
  · rw [hrun]
  · rw [hrun]
    exact Nat.le_succ _
  · rw [hrun]
    exact Nat.le_add_right _ _

theorem owners_le_perform (e : Engine) (act : Act) : e.owners ≤ (e.perform act).owners := by
  cases act with
  | answer route request key =>
    show e.owners ≤ (e.answer route request key).2.owners
    rcases answer_cases e route request key with ⟨_, _, howners⟩ | ⟨replies, _, _, _, howners⟩
    · exact howners.ge
    · rw [howners]
      exact owners_le_runRoute { e with replies } route request
  | change message origin =>
    rcases perform_change e message origin with heq | ⟨outcome, store, _, heq⟩
    · exact (congrArg owners heq).ge
    · exact (congrArg owners heq).ge
  | resync | takePending | acquire | release | readLeases | advance | setClock | setRuns =>
    exact Nat.le_refl _

theorem owners_le_run (e : Engine) (acts : List Act) : e.owners ≤ (e.run acts).owners := by
  induction acts generalizing e with
  | nil => exact Nat.le_refl _
  | cons act acts ih => exact (owners_le_perform e act).trans (ih (e.perform act))

theorem owners_le_before (e : Engine) (acts : List Act) (i : Nat) :
    e.owners ≤ (e.before acts i).owners :=
  owners_le_run e (acts.take i)

theorem owners_before_le_run (e : Engine) (acts : List Act) (i : Nat) :
    (e.before acts i).owners ≤ (e.run acts).owners := by
  have hsplit : e.run acts = (e.before acts i).run (acts.drop i) := by
    unfold before Engine.run
    rw [← List.foldl_append, List.take_append_drop]
  rw [hsplit]
  exact owners_le_run _ _

/-! ## What requests keep -/

section Keeps

variable {P : LeasedScene → Prop}

theorem runRoute_preserves
    (hturn : ∀ turn ∈ e.turns route request, P turn.scene → P (turn.left e.now))
    (hrelease : ∀ n, e.owners < n → n ≤ (e.runRoute route request).2.owners →
      ∀ s, P s → P (s.release (Identifier.ofRequest n)))
    (hrestore : ∀ s : LeasedScene, P s →
      P { s with store := s.store.restore e.scene.store.snapshot }) (h : P e.scene) :
    (∀ turn ∈ e.turns route request, P turn.scene) ∧ P (e.runRoute route request).2.scene := by
  rcases runRoute_cases e route request with ⟨hturns, hrun⟩ | ⟨r, hturns, hrun⟩ | ⟨r, hturns, hrun⟩
  · rw [hturns, hrun]
    exact ⟨fun _ hmem => absurd hmem List.not_mem_nil, h⟩
  · rw [hturns] at hturn ⊢
    rw [hrun] at hrelease ⊢
    exact command_keeps hturn (hrelease _ (Nat.lt_succ_self _) (Nat.le_refl _)) h
  · rw [hturns] at hturn ⊢
    rw [hrun] at hrelease ⊢
    refine batch_keeps hturn (fun i hi => ?_) hrestore h
    exact hrelease (e.owners + i + 1) (by omega) (Nat.add_le_add_left hi e.owners)

/-- What the turns of a request keep, the releases of the owners that it takes, the taking back of
what was done and publishing, holds of every scene that a command of it finds, and of the one
afterwards. -/
theorem answer_keeps
    (hturn : ∀ turn ∈ (Act.answer route request key).turns e, P turn.scene → P (turn.left e.now))
    (hrelease : ∀ n, e.owners < n → n ≤ (e.answer route request key).2.owners →
      ∀ s, P s → P (s.release (Identifier.ofRequest n)))
    (hrestore : ∀ s : LeasedScene, P s →
      P { s with store := s.store.restore e.scene.store.snapshot })
    (hpublish : ∀ s : LeasedScene, P s → P { s with store := s.store.takeEvents })
    (h : P e.scene) :
    (∀ turn ∈ (Act.answer route request key).turns e, P turn.scene) ∧
      P (e.answer route request key).2.scene := by
  rcases answer_cases e route request key with
    ⟨hnone, hscene, _⟩ | ⟨replies, hturns, _, hscene, howners⟩
  · rw [hnone, hscene]
    exact ⟨fun _ hmem => absurd hmem List.not_mem_nil, h⟩
  · rw [hturns] at hturn ⊢
    rw [howners] at hrelease
    rw [hscene]
    obtain ⟨hall, hlast⟩ :=
      runRoute_preserves (e := { e with replies }) hturn hrelease hrestore h
    exact ⟨hall, hpublish _ hlast⟩

end Keeps

end Engine

end SharedScene
