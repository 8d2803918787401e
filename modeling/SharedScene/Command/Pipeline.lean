import SharedScene.Command.Request

/-!
# Running commands under leases

One command is read, checked on its own, and resolved; its footprint is leased to its owner; and
only then is it carried out. Whatever fails first is the conflict. A malformed or unresolved command
never asks for a lease, so it leaves no trace in the table.

* A **single** command runs under one owner, whose leases are released whatever came of it.
* A **sequential** batch runs each command like a single one, under an owner of its own. Its status
  is that of the most severe conflict.
* A **transactional** batch runs under one owner. Its first failure takes the scene back to where it
  was; the status is then 423 if a lease was in the way, else 409.

A request that was made for another revision is refused before anything in it is read.
-/

namespace SharedScene

/-- A scene and the leases on it. -/
structure LeasedScene where
  store : Store
  leases : LeaseTable

namespace LeasedScene

/-- The conflict of a request that was made for another revision. -/
def staleConflict? (s : LeasedScene) (base : Option Nat) : Option Conflict :=
  match base with
  | none => none
  | some base =>
    if base = s.store.revision then none else some (.stale base s.store.revision)

/-- A raw command, read and checked on its own, with its footprint. -/
def prepare (s : LeasedScene) (raw : Json) : Except Conflict (Command × List Path) := do
  let revision := s.store.revision
  match Command.ofJson raw with
  | .error e =>
    throw (.validation (Command.rawReference raw) s!"malformed command: {e.message}" revision)
  | .ok command =>
    (command.checkShape).mapError fun e => Conflict.ofSceneError command.reference e revision
    return (command, ← command.footprint s.store)

/-- Runs one raw command under an owner, whose leases stay. -/
def run (s : LeasedScene) (raw : Json) (owner : Owner) (now : Instant) :
    Except Conflict CommandOutput × LeasedScene :=
  match s.prepare raw with
  | .error c => (.error c, s)
  | .ok (command, paths) =>
    match s.leases.acquire owner paths now with
    | (.error c, leases) =>
      (.error (.locked command.reference c s.store.revision), { s with leases })
    | (.ok _, leases) =>
      match command.execute s.store with
      | .ok (output, store) => (.ok output, ⟨store, leases⟩)
      | .error c => (.error c, { s with leases })

/-- The scene without the leases of an owner. -/
def release (s : LeasedScene) (owner : Owner) : LeasedScene :=
  { s with leases := s.leases.release owner }

/-- Runs one raw command under an owner and releases its leases. -/
def runAlone (s : LeasedScene) (raw : Json) (owner : Owner) (now : Instant) :
    Except Conflict CommandOutput × LeasedScene :=
  let (outcome, s) := s.run raw owner now
  (outcome, s.release owner)

/-- Answers a request for one command. -/
def command (s : LeasedScene) (request : CommandRequest) (owner : Owner) (now : Instant) :
    CommandReply × LeasedScene :=
  match s.staleConflict? request.baseRevision with
  | some c => (⟨.error c, s.store.revision⟩, s)
  | none =>
    let (outcome, s) := s.runAlone request.command owner now
    (⟨outcome, s.store.revision⟩, s)

/-- One command of a batch: the scene, the number of the command, and the command itself. -/
abbrev Step := LeasedScene → Nat → Json → Except Conflict CommandOutput × LeasedScene

/-- Runs commands one after the other, numbered from `index` on; unless it goes on, up to the first
that fails. -/
def runEach (goesOn : Bool) (step : Step) : LeasedScene → Nat → List Json →
    List BatchItem × LeasedScene
  | s, _, [] => ([], s)
  | s, index, raw :: rest =>
    let (outcome, s) := step s index raw
    if outcome.isOk || goesOn then
      let (items, s) := runEach goesOn step s (index + 1) rest
      (⟨index, outcome⟩ :: items, s)
    else ([⟨index, outcome⟩], s)

/-- The reasons of the failures among some results. -/
def reasons (results : List BatchItem) : List ConflictReason :=
  results.filterMap fun i => CommandOutput.reasonOf? i.outcome

/-- The status of a sequential batch. -/
def sequentialStatus (results : List BatchItem) : Nat :=
  match reasons results with
  | [] => statusOk
  | r :: rest => (rest.foldl ConflictReason.worse r).status

/-- The status of a transactional batch with a failure. -/
def rollbackStatus (reason : ConflictReason) : Nat :=
  if reason = .locked then ConflictReason.locked.status else ConflictReason.revisionMismatch.status

/-- Runs a transactional batch under one owner. -/
def runTransactional (s : LeasedScene) (commands : List Json) (owner : Owner) (now : Instant) :
    BatchVerdict × LeasedScene :=
  let snapshot := s.store.snapshot
  let (results, s) := runEach false (fun s _ raw => s.run raw owner now) s 0 commands
  match (reasons results).head? with
  | none => (.finished statusOk false results, s.release owner)
  | some reason =>
    (.finished (rollbackStatus reason) true results,
      { s with store := s.store.restore snapshot }.release owner)

/-- Runs a sequential batch, the command of each number under its owner. -/
def runSequential (s : LeasedScene) (goesOn : Bool) (commands : List Json) (owners : Nat → Owner)
    (now : Instant) : BatchVerdict × LeasedScene :=
  let (results, s) := runEach goesOn (fun s i raw => s.runAlone raw (owners i) now) s 0 commands
  (.finished (sequentialStatus results) false results, s)

/-- How many owners a batch takes: one for a transaction, else one for each command that ran. -/
def ownersTaken (mode : BatchMode) : BatchVerdict → Nat
  | .rejected _ => 0
  | .finished _ _ results => if mode = .transactional then 1 else results.length

/-- Answers a request for several commands; `owners` numbers the owners that it may take. -/
def batch (s : LeasedScene) (request : BatchRequest) (owners : Nat → Owner) (now : Instant) :
    BatchReply × LeasedScene :=
  let (verdict, s) := match s.staleConflict? request.baseRevision with
    | some c => (BatchVerdict.rejected c, s)
    | none => match request.mode with
      | .transactional => s.runTransactional request.commands (owners 0) now
      | .continueOnError => s.runSequential true request.commands owners now
      | .stopOnError => s.runSequential false request.commands owners now
  (⟨request.transactional, request.commands.length, verdict, s.store.revision⟩, s)

end LeasedScene

end SharedScene
