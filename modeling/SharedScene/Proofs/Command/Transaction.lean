import SharedScene.Proofs.Command.Pipeline
import SharedScene.Proofs.Lease

/-!
# Transactions

A transaction runs its commands in order, each in the scene that those before it left, up to the
first that fails (`runEach_run`). If none does, what they did stays. If one does, the scene is what
it was before the first; the status says whether a lease of somebody else was in the way
(`run_error_locked_iff`), and the owner of the transaction keeps no lease either way.
-/

namespace SharedScene

open Store Success

/-! ## Why a command fails -/

/-- No change that the scene refuses is a matter of leases. -/
theorem Conflict.ofSceneError_reason (expected : Json) (e : SceneError) (revision : Nat) :
    (Conflict.ofSceneError expected e revision).reason ≠ .locked := by
  unfold ofSceneError
  split
  · exact fun h => by cases h
  · exact fun h => by cases h

namespace Command

variable {c : Command} {s : Store} {e : Conflict}

/-- A target that leads nowhere is not a matter of leases. -/
theorem resolveTarget_reason {t : Target} (h : c.resolveTarget t s = .error e) :
    e.reason ≠ .locked := by
  unfold resolveTarget at h
  split at h
  · cases h
  · cases h
    exact fun h => by cases h
  · cases h
    exact fun h => by cases h

/-- Nor is what only fails where its target leads nowhere. -/
theorem resolveTarget_bind_reason {α : Type} {t : Target} {f : Path → Except Conflict α}
    (hf : ∀ path, ∃ a, f path = .ok a) (h : (c.resolveTarget t s >>= f) = .error e) :
    e.reason ≠ .locked := by
  rcases bind_eq_error.mp h with h | ⟨path, _, h⟩
  · exact resolveTarget_reason h
  · obtain ⟨a, ha⟩ := hf path
    rw [ha] at h
    cases h

theorem footprint_reason (h : c.footprint s = .error e) : e.reason ≠ .locked := by
  cases c with
  | create => cases h
  | update target _ _ => exact resolveTarget_bind_reason (fun _ => ⟨_, rfl⟩) h
  | rename target _ => exact resolveTarget_bind_reason (fun _ => ⟨_, rfl⟩) h
  | delete target => exact resolveTarget_bind_reason (fun _ => ⟨_, rfl⟩) h
  | reparent target _ => exact resolveTarget_bind_reason (fun _ => ⟨_, rfl⟩) h

theorem message_reason (h : c.message s = .error e) : e.reason ≠ .locked := by
  cases c with
  | create parentPath _ _ _ =>
    rw [message] at h
    split at h
    · cases h
    · cases h
      exact fun h => by cases h
  | update target _ _ => exact resolveTarget_bind_reason (fun _ => ⟨_, rfl⟩) h
  | rename target _ => exact resolveTarget_bind_reason (fun _ => ⟨_, rfl⟩) h
  | delete target => exact resolveTarget_bind_reason (fun _ => ⟨_, rfl⟩) h
  | reparent target _ => exact resolveTarget_bind_reason (fun _ => ⟨_, rfl⟩) h

/-- Carrying a command out fails for the scene's reasons. -/
theorem execute_reason (h : c.execute s = .error e) : e.reason ≠ .locked := by
  unfold execute at h
  rcases bind_eq_error.mp h with h | ⟨message, _, h⟩
  · exact message_reason h
  · split at h
    · cases h
    · cases h
      exact fun h => by cases h
    · cases h
      exact Conflict.ofSceneError_reason _ _ _

end Command

namespace LeasedScene

variable {s : LeasedScene} {raw : Json} {owner : Owner} {now : Instant} {c : Conflict}

/-- Whether a lease of somebody else is in the way of a command. -/
def isBlocked (s : LeasedScene) (raw : Json) (owner : Owner) (now : Instant) : Bool :=
  match s.prepare raw with
  | .ok (_, paths) => (s.leases.conflict? owner now paths).isSome
  | .error _ => false

/-- A command that cannot be read, checked or resolved is not a matter of leases. -/
theorem prepare_reason (h : s.prepare raw = .error c) : c.reason ≠ .locked := by
  unfold prepare at h
  split at h
  · cases h
    exact fun h => by cases h
  · rcases bind_eq_error.mp h with h | ⟨_, _, h⟩
    · unfold Except.mapError at h
      split at h
      · cases h
        exact Conflict.ofSceneError_reason _ _ _
      · cases h
    · rcases bind_eq_error.mp h with h | ⟨_, _, h⟩
      · exact Command.footprint_reason h
      · cases h

/-- A command fails for a lease exactly when one of somebody else is in its way. -/
theorem run_error_locked_iff (h : (s.run raw owner now).1 = .error c) :
    c.reason = .locked ↔ s.isBlocked raw owner now = true := by
  unfold run at h
  unfold isBlocked
  split at h
  · next hprepare =>
    cases h
    rw [hprepare]
    exact ⟨fun hc => absurd hc (prepare_reason hprepare), fun hc => by cases hc⟩
  · next command paths hprepare =>
    rw [hprepare]
    dsimp only at h ⊢
    unfold LeaseTable.acquire at h
    split at h
    · next hacquire =>
      split at hacquire
      · next hconflict =>
        cases h
        rw [hconflict]
        exact ⟨fun _ => rfl, fun _ => rfl⟩
      · cases hacquire
    · next hacquire =>
      split at hacquire
      · cases hacquire
      · next hconflict =>
        rw [hconflict]
        split at h
        · cases h
        · next hexecute =>
          cases h
          exact ⟨fun hc => absurd hc (Command.execute_reason hexecute), fun hc => by cases hc⟩

/-! ## In turn -/

/-- What becomes of each command, in the scene that those before it left. -/
def outcomes (owner : Owner) (now : Instant) :
    LeasedScene → List Json → List (Except Conflict CommandOutput)
  | _, [] => []
  | s, raw :: rest => (s.run raw owner now).1 :: outcomes owner now (s.run raw owner now).2 rest

/-- The scene that commands leave when they run one after the other. -/
def afterRunning (s : LeasedScene) (owner : Owner) (now : Instant) (commands : List Json) :
    LeasedScene :=
  commands.foldl (fun s raw => (s.run raw owner now).2) s

/-- Outcomes as the items of a reply, numbered from `index` on. -/
def numbered (index : Nat) (outcomes : List (Except Conflict CommandOutput)) : List BatchItem :=
  (outcomes.zipIdx index).map fun o => ⟨o.2, o.1⟩

/-- Whether an outcome is a failure. -/
def failed (outcome : Except Conflict CommandOutput) : Bool := !outcome.isOk

variable {commands : List Json} {i : Nat}

/-- The outcome of the `i`-th command is that of running it in its turn. -/
theorem getElem?_outcomes (s : LeasedScene) (owner : Owner) (now : Instant) (commands : List Json)
    (i : Nat) : (outcomes owner now s commands)[i]? =
      commands[i]?.map fun raw =>
        ((s.afterRunning owner now (commands.take i)).run raw owner now).1 := by
  induction commands generalizing s i with
  | nil => rfl
  | cons raw rest ih =>
    cases i with
    | zero => rfl
    | succ i =>
      rw [outcomes, List.getElem?_cons_succ, List.getElem?_cons_succ, ih]
      rfl

/-- Commands run up to the first that fails. -/
theorem runEach_run (s : LeasedScene) (owner : Owner) (now : Instant) (index : Nat)
    (commands : List Json) :
    runEach false (fun s _ raw => s.run raw owner now) s index commands =
      match (outcomes owner now s commands).findIdx? failed with
      | none => (numbered index (outcomes owner now s commands), s.afterRunning owner now commands)
      | some i => (numbered index ((outcomes owner now s commands).take (i + 1)),
          s.afterRunning owner now (commands.take (i + 1))) := by
  induction commands generalizing s index with
  | nil => rfl
  | cons raw rest ih =>
    rw [runEach_cons, outcomes, List.findIdx?_cons]
    dsimp only
    -- a failure ends the run, and only what did not fail hands its scene on
    cases hfirst : failed (s.run raw owner now).1 with
    | true =>
      have hnot : ((s.run raw owner now).1.isOk || false) = false := by
        rw [Bool.or_false]
        exact Bool.not_eq_true' _ ▸ hfirst
      rw [hnot]
      rfl
    | false =>
      have hok : ((s.run raw owner now).1.isOk || false) = true := by
        rw [Bool.or_false]
        exact Bool.not_eq_false' _ ▸ hfirst
      rw [hok, if_pos rfl, ih]
      cases (outcomes owner now (s.run raw owner now).2 rest).findIdx? failed with
      | none => rfl
      | some i => rfl

theorem reasons_numbered (index : Nat) (os : List (Except Conflict CommandOutput)) :
    reasons (numbered index os) = os.filterMap CommandOutput.reasonOf? := by
  induction os generalizing index with
  | nil => rfl
  | cons o os ih =>
    rw [numbered, List.zipIdx_cons, List.map_cons, reasons, List.filterMap_cons,
      List.filterMap_cons, ← ih (index + 1)]
    rfl

theorem filterMap_reasonOf?_eq_nil {os : List (Except Conflict CommandOutput)}
    (h : ∀ o ∈ os, failed o = false) : os.filterMap CommandOutput.reasonOf? = [] := by
  refine List.filterMap_eq_nil_iff.mpr fun o ho => ?_
  cases o with
  | ok output => rfl
  | error c => cases h _ ho

/-- Up to the first failure there is one reason, that of the failure. -/
theorem filterMap_reasonOf?_take {os : List (Except Conflict CommandOutput)}
    (h : os.findIdx? failed = some i) :
    ∃ c, os[i]? = some (.error c) ∧
      (os.take (i + 1)).filterMap CommandOutput.reasonOf? = [c.reason] := by
  obtain ⟨hi, hfails, hbefore⟩ := List.findIdx?_eq_some_iff_getElem.mp h
  have hnone : (os.take i).filterMap CommandOutput.reasonOf? = [] := by
    refine filterMap_reasonOf?_eq_nil fun o ho => ?_
    obtain ⟨j, hj, rfl⟩ := List.getElem_of_mem ho
    rw [List.getElem_take]
    rw [List.length_take] at hj
    exact Bool.not_eq_true _ ▸ hbefore j (by omega)
  rw [List.take_succ_eq_append_getElem hi, List.filterMap_append, hnone, List.nil_append]
  rw [List.getElem?_eq_getElem hi]
  generalize os[i] = o at hfails
  cases o with
  | ok output => cases hfails
  | error c => exact ⟨c, rfl, rfl⟩

/-! ## All or nothing -/

/-- No lease of an owner is left after its release. -/
theorem owner_ne_of_get?_release {path : Path} {lease : Lease}
    (h : (s.release owner).leases.leases.get? path = some lease) : lease.owner ≠ owner :=
  (LeaseTable.get?_of_release h).2

/-- A transaction in which no command fails keeps what they did. -/
theorem runTransactional_of_none (h : (outcomes owner now s commands).findIdx? failed = none) :
    s.runTransactional commands owner now =
      (.finished statusOk false (numbered 0 (outcomes owner now s commands)),
        (s.afterRunning owner now commands).release owner) := by
  have hreasons : reasons (numbered 0 (outcomes owner now s commands)) = [] := by
    rw [reasons_numbered]
    exact filterMap_reasonOf?_eq_nil fun o ho =>
      Bool.not_eq_true _ ▸ List.findIdx?_eq_none_iff.mp h o ho
  unfold runTransactional
  rw [runEach_run, h]
  dsimp only
  rw [hreasons]
  rfl

/-- A transaction in which a command fails is taken back: the scene is that of before, the supply of
ids apart, and the status says whether a lease of somebody else was in the way. -/
theorem runTransactional_of_some (hwf : s.store.forest.WellFormed)
    (h : (outcomes owner now s commands).findIdx? failed = some i) :
    ∃ raw, commands[i]? = some raw ∧
      (s.runTransactional commands owner now).1 = .finished
        (if (s.afterRunning owner now (commands.take i)).isBlocked raw owner now then 423 else 409)
        true (numbered 0 ((outcomes owner now s commands).take (i + 1))) ∧
      ∃ ids leases, (s.runTransactional commands owner now).2 =
        release ⟨{ s.store with ids }, leases⟩ owner := by
  obtain ⟨c, hc, hreasons⟩ := filterMap_reasonOf?_take h
  have hturn := (getElem?_outcomes s owner now commands i).symm.trans hc
  obtain ⟨raw, hraw, hrun⟩ := Option.map_eq_some_iff.mp hturn
  have hlocked := run_error_locked_iff hrun
  have hleads := runEach_leads (fun s _ raw => s.run raw owner now)
    (fun s _ raw hs => run_leads hs raw owner now) false hwf 0 commands
  have hrestore := hleads.tells.restore
  refine ⟨raw, hraw, ?_, ?_⟩
  · unfold runTransactional
    rw [runEach_run, h]
    dsimp only
    rw [reasons_numbered, hreasons]
    dsimp only [List.head?_cons, rollbackStatus]
    by_cases hreason : c.reason = .locked
    · rw [if_pos hreason, if_pos (hlocked.mp hreason)]
      rfl
    · rw [if_neg hreason, if_neg fun hblocked => hreason (hlocked.mpr hblocked)]
      rfl
  · unfold runTransactional
    rw [runEach_run, h] at hrestore ⊢
    dsimp only at hrestore ⊢
    rw [reasons_numbered, hreasons]
    dsimp only [List.head?_cons]
    rw [hrestore]
    exact ⟨_, _, rfl⟩

end LeasedScene

end SharedScene
