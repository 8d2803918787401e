import SharedScene.Proofs.Command.Transaction
import SharedScene.Proofs.Lease

/-!
# Commands in their turns

A request runs its commands one after the other, and each of them finds the scene that those before
it left. A **turn** is one of these runs: the scene that is found, the command, and the owner under
which it runs. Whatever the mode, the results of a request are the outcomes of its turns, and the
scene after it is what the last turn left (`runEach_turns`), unless a transaction is taken back. So
what every turn keeps, and every release, holds of every scene that a command finds and of the scene
after the request (`command_keeps`, `batch_keeps`). A turn leaves the live leases of other owners as
they are, and it is refused where it needs what one of them covers (`Turn.holds_left`,
`Turn.locked_of_holds`).
-/

namespace SharedScene

/-- A command in its turn: the scene that it finds, the command, and its owner. -/
structure Turn where
  scene : LeasedScene
  raw : Json
  owner : Owner

namespace Turn

/-- What becomes of the command. -/
def outcome (t : Turn) (now : Instant) : Except Conflict CommandOutput :=
  (t.scene.run t.raw t.owner now).1

/-- The scene that the command leaves, with the leases that it took. -/
def left (t : Turn) (now : Instant) : LeasedScene := (t.scene.run t.raw t.owner now).2

/-- The scene that the command leaves when its owner releases. -/
def leftAlone (t : Turn) (now : Instant) : LeasedScene := (t.left now).release t.owner

end Turn

/-- What became of the commands of a request that were run. -/
def BatchVerdict.outcomes : BatchVerdict → List (Except Conflict CommandOutput)
  | .rejected _ => []
  | .finished _ _ results => results.map (·.outcome)

namespace LeasedScene

variable {s : LeasedScene} {now : Instant}

/-! ## One turn -/

/-- A command fails and leaves the store as it is, or it was read and checked, nothing stood in its
way, and it was carried out. -/
theorem run_cases (s : LeasedScene) (raw : Json) (owner : Owner) (now : Instant) :
    (∃ c, (s.run raw owner now).1 = .error c ∧ (s.run raw owner now).2.store = s.store) ∨
      ∃ command paths output, s.prepare raw = .ok (command, paths) ∧
        s.leases.conflict? owner now paths = none ∧
        command.execute s.store = .ok (output, (s.run raw owner now).2.store) := by
  unfold run
  cases hprepare : s.prepare raw with
  | error c => exact .inl ⟨c, rfl, rfl⟩
  | ok prepared =>
    obtain ⟨command, paths⟩ := prepared
    dsimp only
    cases hconflict : s.leases.conflict? owner now paths with
    | some c =>
      rw [LeaseTable.acquire_of_some hconflict]
      exact .inl ⟨_, rfl, rfl⟩
    | none =>
      rw [LeaseTable.acquire_of_none hconflict]
      dsimp only
      cases hexecute : command.execute s.store with
      | error c => exact .inl ⟨c, rfl, rfl⟩
      | ok done =>
        obtain ⟨output, store⟩ := done
        exact .inr ⟨command, paths, output, rfl, hconflict, hexecute⟩

/-- The leases after a command are those before it, or those after its paths were asked for. -/
theorem leases_run (s : LeasedScene) (raw : Json) (owner : Owner) (now : Instant) :
    (s.run raw owner now).2.leases = s.leases ∨
      ∃ paths, (s.run raw owner now).2.leases = (s.leases.acquire owner paths now).2 := by
  unfold run
  cases s.prepare raw with
  | error c => exact .inl rfl
  | ok prepared =>
    obtain ⟨command, paths⟩ := prepared
    refine .inr ⟨paths, ?_⟩
    dsimp only
    rcases s.leases.acquire owner paths now with ⟨_ | _, leases⟩
    · rfl
    · dsimp only
      cases command.execute s.store with
      | error c => rfl
      | ok done => rfl

/-- What stands in the way of a command's owner stands there still after the command. -/
theorem standing?_run (s : LeasedScene) (raw : Json) (owner : Owner) (now : Instant) (p : Path) :
    (s.run raw owner now).2.leases.standing? owner now p = s.leases.standing? owner now p := by
  rcases leases_run s raw owner now with heq | ⟨paths, heq⟩
  · rw [heq]
  · rw [heq, LeaseTable.standing?_acquire]

/-- A command that needs a path with somebody else's lease on it or above it is refused as
locked. -/
theorem run_of_standing {raw : Json} {owner : Owner} {command : Command} {paths : List Path}
    {p : Path} {lease : Lease} (hprepare : s.prepare raw = .ok (command, paths)) (hp : p ≠ [])
    (h : s.leases.standing? owner now p = some lease) (hbelow : ∃ q ∈ paths, p <+: q) :
    ∃ c, (s.run raw owner now).1 = .error c ∧ c.reason = .locked := by
  obtain ⟨c, hc, _⟩ := LeaseTable.acquire_of_standing hp h hbelow
  unfold run
  rw [hprepare]
  dsimp only
  rcases hacquire : s.leases.acquire owner paths now with ⟨_ | _, leases⟩
  · exact ⟨_, rfl, rfl⟩
  · rw [hacquire] at hc
    cases hc

/-! ## The turns of a request -/

/-- The turns of commands that run one after the other under numbered owners; `next` is what a turn
leaves for the one after it. Unless they go on, the first that fails is the last. -/
def turnsEach (goesOn : Bool) (now : Instant) (next : Turn → LeasedScene) (owners : Nat → Owner) :
    LeasedScene → Nat → List Json → List Turn
  | _, _, [] => []
  | s, index, raw :: rest =>
    let turn : Turn := ⟨s, raw, owners index⟩
    turn :: if (turn.outcome now).isOk || goesOn then
      turnsEach goesOn now next owners (next turn) (index + 1) rest else []

/-- The scene that turns leave: the one that the last of them does. -/
def leftBy (next : Turn → LeasedScene) (s : LeasedScene) (turns : List Turn) : LeasedScene :=
  turns.foldl (fun _ turn => next turn) s

/-- The turns of a request for one command. -/
def commandTurns (s : LeasedScene) (request : CommandRequest) (owner : Owner) : List Turn :=
  match s.staleConflict? request.baseRevision with
  | some _ => []
  | none => [⟨s, request.command, owner⟩]

/-- The turns of a request for several commands. -/
def batchTurns (s : LeasedScene) (request : BatchRequest) (owners : Nat → Owner) (now : Instant) :
    List Turn :=
  match s.staleConflict? request.baseRevision with
  | some _ => []
  | none => match request.mode with
    | .transactional => turnsEach false now (·.left now) (fun _ => owners 0) s 0 request.commands
    | .continueOnError => turnsEach true now (·.leftAlone now) owners s 0 request.commands
    | .stopOnError => turnsEach false now (·.leftAlone now) owners s 0 request.commands

section Each

variable {goesOn : Bool} {next : Turn → LeasedScene} {owners : Nat → Owner} {index : Nat}
  {commands : List Json}

/-- Commands that run one after the other have the outcomes of their turns, and leave what the last
turn does. -/
theorem runEach_turns (goesOn : Bool) (next : Turn → LeasedScene) (owners : Nat → Owner)
    (s : LeasedScene) (index : Nat) (commands : List Json) :
    runEach goesOn (fun s i raw =>
        ((Turn.mk s raw (owners i)).outcome now, next ⟨s, raw, owners i⟩)) s index commands =
      (numbered index ((turnsEach goesOn now next owners s index commands).map (·.outcome now)),
        leftBy next s (turnsEach goesOn now next owners s index commands)) := by
  induction commands generalizing s index with
  | nil => rfl
  | cons raw rest ih =>
    rw [runEach_cons, turnsEach]
    dsimp only
    split
    · rw [ih]
      rfl
    · rfl

/-- What each turn keeps holds of every scene that a command finds, and of the one that the turns
leave. -/
theorem turnsEach_keeps {P : LeasedScene → Prop}
    (hnext : ∀ turn ∈ turnsEach goesOn now next owners s index commands,
      P turn.scene → P (next turn)) (h : P s) :
    (∀ turn ∈ turnsEach goesOn now next owners s index commands, P turn.scene) ∧
      P (leftBy next s (turnsEach goesOn now next owners s index commands)) := by
  induction commands generalizing s index with
  | nil => exact ⟨fun _ hturn => absurd hturn List.not_mem_nil, h⟩
  | cons raw rest ih =>
    rw [turnsEach] at hnext ⊢
    have hfirst := hnext ⟨s, raw, owners index⟩ List.mem_cons_self h
    split at hnext
    · next hgoes =>
      rw [if_pos hgoes]
      obtain ⟨hall, hlast⟩ :=
        ih (fun turn hturn => hnext turn (List.mem_cons_of_mem _ hturn)) hfirst
      exact ⟨List.forall_mem_cons.mpr ⟨h, hall⟩, hlast⟩
    · next hstops =>
      rw [if_neg hstops]
      exact ⟨List.forall_mem_singleton.mpr h, hfirst⟩

/-- The owners of the turns are the numbered ones. -/
theorem exists_owner_of_mem_turnsEach {turn : Turn}
    (h : turn ∈ turnsEach goesOn now next owners s index commands) :
    ∃ j < (turnsEach goesOn now next owners s index commands).length,
      turn.owner = owners (index + j) := by
  induction commands generalizing s index with
  | nil => exact absurd h List.not_mem_nil
  | cons raw rest ih =>
    rw [turnsEach] at h ⊢
    rcases List.mem_cons.mp h with rfl | h
    · exact ⟨0, Nat.succ_pos _, rfl⟩
    · split at h
      · next hgoes =>
        obtain ⟨j, hj, howner⟩ := ih h
        rw [if_pos hgoes]
        exact ⟨j + 1, Nat.succ_lt_succ hj, by rw [howner, Nat.add_assoc, Nat.add_comm 1 j]⟩
      · exact absurd h List.not_mem_nil

end Each

theorem map_outcome_numbered (index : Nat) (os : List (Except Conflict CommandOutput)) :
    (numbered index os).map (·.outcome) = os := by
  unfold numbered
  rw [List.map_map]
  exact List.zipIdx_map_fst index os

theorem length_numbered (index : Nat) (os : List (Except Conflict CommandOutput)) :
    (numbered index os).length = os.length := by
  unfold numbered
  rw [List.length_map, List.length_zipIdx]

/-! ## What a request keeps -/

section Requests

variable {P : LeasedScene → Prop} {owner : Owner} {owners : Nat → Owner} {commands : List Json}

/-- The turns of a transaction. -/
theorem runEach_left (s : LeasedScene) (owner : Owner) (now : Instant) (commands : List Json) :
    let turns := turnsEach false now (·.left now) (fun _ => owner) s 0 commands
    runEach false (fun s _ raw => s.run raw owner now) s 0 commands =
      (numbered 0 (turns.map (·.outcome now)), leftBy (·.left now) s turns) :=
  runEach_turns false (·.left now) (fun _ => owner) s 0 commands

/-- The turns of a sequential batch. -/
theorem runEach_leftAlone (s : LeasedScene) (goesOn : Bool) (owners : Nat → Owner) (now : Instant)
    (commands : List Json) :
    let turns := turnsEach goesOn now (·.leftAlone now) owners s 0 commands
    runEach goesOn (fun s i raw => s.runAlone raw (owners i) now) s 0 commands =
      (numbered 0 (turns.map (·.outcome now)), leftBy (·.leftAlone now) s turns) :=
  runEach_turns goesOn (·.leftAlone now) owners s 0 commands

/-- What its turns and the release of its owner keep, a transaction keeps, if it also holds where
the transaction is taken back to. -/
theorem runTransactional_keeps
    (hturn : ∀ turn ∈ turnsEach false now (·.left now) (fun _ => owner) s 0 commands,
      P turn.scene → P (turn.left now))
    (hrelease : ∀ s', P s' → P (s'.release owner))
    (hrestore : ∀ s' : LeasedScene, P s' →
      P { s' with store := s'.store.restore s.store.snapshot }) (h : P s) :
    (∀ turn ∈ turnsEach false now (·.left now) (fun _ => owner) s 0 commands, P turn.scene) ∧
      P (s.runTransactional commands owner now).2 := by
  obtain ⟨hall, hlast⟩ := turnsEach_keeps hturn h
  refine ⟨hall, ?_⟩
  unfold runTransactional
  rw [runEach_left]
  dsimp only
  split
  · exact hrelease _ hlast
  · exact hrelease _ (hrestore _ hlast)

/-- What its turns and the releases of their owners keep, a sequential batch keeps. -/
theorem runSequential_keeps {goesOn : Bool}
    (hturn : ∀ turn ∈ turnsEach goesOn now (·.leftAlone now) owners s 0 commands,
      P turn.scene → P (turn.left now))
    (hrelease : ∀ i < (turnsEach goesOn now (·.leftAlone now) owners s 0 commands).length,
      ∀ s', P s' → P (s'.release (owners i))) (h : P s) :
    (∀ turn ∈ turnsEach goesOn now (·.leftAlone now) owners s 0 commands, P turn.scene) ∧
      P (s.runSequential goesOn commands owners now).2 := by
  have hnext : ∀ turn ∈ turnsEach goesOn now (·.leftAlone now) owners s 0 commands,
      P turn.scene → P (turn.leftAlone now) := by
    intro turn hmem hscene
    obtain ⟨j, hj, howner⟩ := exists_owner_of_mem_turnsEach hmem
    rw [Nat.zero_add] at howner
    have hreleased := hrelease j hj _ (hturn turn hmem hscene)
    rwa [← howner] at hreleased
  unfold runSequential
  rw [runEach_leftAlone]
  exact turnsEach_keeps hnext h

/-- How many owners a sequential batch takes: one for each of its turns. -/
theorem ownersTaken_runSequential {mode : BatchMode} (hmode : mode ≠ .transactional)
    (goesOn : Bool) : ownersTaken mode (s.runSequential goesOn commands owners now).1 =
      (turnsEach goesOn now (·.leftAlone now) owners s 0 commands).length := by
  unfold runSequential
  rw [runEach_leftAlone]
  dsimp only [ownersTaken]
  rw [if_neg hmode, length_numbered, List.length_map]

theorem ownersTaken_runTransactional :
    ownersTaken .transactional (s.runTransactional commands owner now).1 = 1 := by
  unfold runTransactional
  dsimp only
  split <;> rfl

/-- What its turns keep, and the releases of the owners that it takes, a request for several
commands keeps. -/
theorem batch_keeps {request : BatchRequest}
    (hturn : ∀ turn ∈ s.batchTurns request owners now, P turn.scene → P (turn.left now))
    (hrelease : ∀ i < ownersTaken request.mode (s.batch request owners now).1.verdict,
      ∀ s', P s' → P (s'.release (owners i)))
    (hrestore : ∀ s' : LeasedScene, P s' →
      P { s' with store := s'.store.restore s.store.snapshot }) (h : P s) :
    (∀ turn ∈ s.batchTurns request owners now, P turn.scene) ∧
      P (s.batch request owners now).2 := by
  unfold batchTurns batch at *
  cases hstale : s.staleConflict? request.baseRevision with
  | some c => exact ⟨fun _ hmem => absurd hmem List.not_mem_nil, h⟩
  | none =>
    rw [hstale] at hturn hrelease
    cases hmode : request.mode with
    | transactional =>
      rw [hmode] at hturn hrelease
      refine runTransactional_keeps hturn (hrelease 0 ?_) hrestore h
      exact ownersTaken_runTransactional.symm ▸ Nat.one_pos
    | continueOnError =>
      rw [hmode] at hturn hrelease
      have hmany : BatchMode.continueOnError ≠ .transactional := by decide
      refine runSequential_keeps hturn (fun i hi => hrelease i ?_) h
      exact (ownersTaken_runSequential hmany true).symm ▸ hi
    | stopOnError =>
      rw [hmode] at hturn hrelease
      have hmany : BatchMode.stopOnError ≠ .transactional := by decide
      refine runSequential_keeps hturn (fun i hi => hrelease i ?_) h
      exact (ownersTaken_runSequential hmany false).symm ▸ hi

/-- The owners of the turns are among those that the request takes. -/
theorem exists_owner_of_mem_batchTurns {request : BatchRequest} {turn : Turn}
    (h : turn ∈ s.batchTurns request owners now) :
    ∃ i < ownersTaken request.mode (s.batch request owners now).1.verdict,
      turn.owner = owners i := by
  unfold batchTurns at h
  unfold batch
  cases hstale : s.staleConflict? request.baseRevision with
  | some c =>
    rw [hstale] at h
    exact absurd h List.not_mem_nil
  | none =>
    rw [hstale] at h
    cases hmode : request.mode with
    | transactional =>
      rw [hmode] at h
      obtain ⟨_, _, howner⟩ := exists_owner_of_mem_turnsEach h
      exact ⟨0, ownersTaken_runTransactional.symm ▸ Nat.one_pos, howner⟩
    | continueOnError =>
      rw [hmode] at h
      have hmany : BatchMode.continueOnError ≠ .transactional := by decide
      obtain ⟨j, hj, howner⟩ := exists_owner_of_mem_turnsEach h
      rw [Nat.zero_add] at howner
      exact ⟨j, (ownersTaken_runSequential hmany true).symm ▸ hj, howner⟩
    | stopOnError =>
      rw [hmode] at h
      have hmany : BatchMode.stopOnError ≠ .transactional := by decide
      obtain ⟨j, hj, howner⟩ := exists_owner_of_mem_turnsEach h
      rw [Nat.zero_add] at howner
      exact ⟨j, (ownersTaken_runSequential hmany false).symm ▸ hj, howner⟩

/-- The outcomes in the reply to a request for several commands are those of its turns. -/
theorem outcomes_batch (s : LeasedScene) (request : BatchRequest) (owners : Nat → Owner)
    (now : Instant) : (s.batch request owners now).1.verdict.outcomes =
      (s.batchTurns request owners now).map (·.outcome now) := by
  unfold batchTurns batch
  cases s.staleConflict? request.baseRevision with
  | some c => rfl
  | none =>
    cases request.mode with
    | transactional =>
      dsimp only
      unfold runTransactional
      rw [runEach_left]
      dsimp only
      split <;> exact map_outcome_numbered 0 _
    | continueOnError =>
      dsimp only
      unfold runSequential
      rw [runEach_leftAlone]
      exact map_outcome_numbered 0 _
    | stopOnError =>
      dsimp only
      unfold runSequential
      rw [runEach_leftAlone]
      exact map_outcome_numbered 0 _

/-- What its turn keeps, and the release of its owner, a request for one command keeps. -/
theorem command_keeps {request : CommandRequest}
    (hturn : ∀ turn ∈ s.commandTurns request owner, P turn.scene → P (turn.left now))
    (hrelease : ∀ s', P s' → P (s'.release owner)) (h : P s) :
    (∀ turn ∈ s.commandTurns request owner, P turn.scene) ∧
      P (s.command request owner now).2 := by
  unfold commandTurns command at *
  cases hstale : s.staleConflict? request.baseRevision with
  | some c => exact ⟨fun _ hmem => absurd hmem List.not_mem_nil, h⟩
  | none =>
    rw [hstale] at hturn
    have hleft := hturn ⟨s, request.command, owner⟩ (List.mem_singleton_self _) h
    exact ⟨List.forall_mem_singleton.mpr h, hrelease _ hleft⟩

/-- The outcome in the reply to a request for one command is that of its turn, if it has one. -/
theorem outcome_command {request : CommandRequest} {turn : Turn}
    (h : turn ∈ s.commandTurns request owner) :
    (s.command request owner now).1.outcome = turn.outcome now := by
  unfold commandTurns at h
  unfold command
  cases hstale : s.staleConflict? request.baseRevision with
  | some c =>
    rw [hstale] at h
    exact absurd h List.not_mem_nil
  | none =>
    rw [hstale] at h
    rw [List.mem_singleton.mp h]
    rfl

end Requests

end LeasedScene

/-! ## Under a lease -/

/-- A lease is in the table, under its path. -/
def LeasedScene.Holds (s : LeasedScene) (lease : Lease) : Prop :=
  s.leases.leases.get? lease.path = some lease

instance (s : LeasedScene) (lease : Lease) : Decidable (s.Holds lease) :=
  inferInstanceAs (Decidable (_ = _))

namespace Turn

variable {turn : Turn} {now : Instant} {lease : Lease}

/-- A turn leaves what another owner's live lease stands under. -/
theorem get?_left {p : Path} (h : turn.scene.leases.leases.get? p = some lease)
    (hlive : lease.isLive now = true) (hother : lease.owner ≠ turn.owner) :
    (turn.left now).leases.leases.get? p = some lease := by
  unfold left
  rcases LeasedScene.leases_run turn.scene turn.raw turn.owner now with heq | ⟨paths, heq⟩
  · rw [heq]
    exact h
  · rw [heq]
    exact LeaseTable.get?_acquire h hlive hother paths

/-- A turn leaves another owner's live lease as it is. -/
theorem holds_left (h : turn.scene.Holds lease) (hlive : now < lease.expiresAt)
    (hother : lease.owner ≠ turn.owner) : (turn.left now).Holds lease :=
  get?_left h (decide_eq_true hlive) hother

/-- A command that needs the path of another owner's live lease, or a path below it, is refused. -/
theorem locked_of_holds {command : Command} {wanted : List Path} (h : turn.scene.Holds lease)
    (hlive : now < lease.expiresAt) (hother : lease.owner ≠ turn.owner) (hroot : lease.path ≠ [])
    (hprepare : turn.scene.prepare turn.raw = .ok (command, wanted))
    (hbelow : ∃ p ∈ wanted, lease.path <+: p) :
    ∃ c, turn.outcome now = .error c ∧ c.reason = .locked :=
  LeasedScene.run_of_standing hprepare hroot
    (LeaseTable.standing?_eq_some_iff.mpr ⟨h, decide_eq_true hlive, hother⟩) hbelow

end Turn

end SharedScene
