import SharedScene.Command.Pipeline
import SharedScene.Config.Basic
import SharedScene.ReplayCache
import SharedScene.Run.Codec
import SharedScene.Scene.Codec
import SharedScene.View.Schema
import SharedScene.View.Snapshot

/-!
# The engine

Everything that collaborators share, as one value: the scene with its leases, the replies that may
be asked for again, the test runs, and the stream of events. A request is a function from an engine
to a reply and the engine after it, so requests happen one after the other by their type.

The engine has a **clock** of its own, a 64-bit number of milliseconds that moves only when it is
told to. A number that has no date reads as the beginning of 1970.
-/

namespace SharedScene

/-- The reply to a request that changes the scene. -/
inductive Answer where
  | command (reply : CommandReply)
  | batch (reply : BatchReply)

def Answer.status : Answer → Nat
  | .command reply => reply.status
  | .batch reply => reply.status

def Answer.toJson : Answer → Json
  | .command reply => reply.toJson
  | .batch reply => reply.toJson

/-- The state that collaborators share. -/
structure Engine where
  scene : LeasedScene
  replies : ReplayCache Answer
  runs : Scheduler
  /-- How many owners were made for requests. -/
  owners : Nat
  /-- Every event so far, oldest first. -/
  published : List Event
  /-- The clock, in milliseconds. -/
  clock : Int
  /-- The limits of a run that brings none. -/
  safety : SafetyPolicy

/-- The leases that are live, and numbers about them. -/
structure LeaseView where
  leases : List Lease
  stats : LeaseStats

def LeaseView.toJson (v : LeaseView) : Json :=
  .obj [("locks", .ofList Lease.toJson v.leases), ("stats", v.stats.toJson)]

namespace Engine

/-- An engine with an empty scene. -/
def new (config : Config) (ids : IdSupply) (clock : Int) : Engine :=
  { scene := ⟨.empty ids, .empty config.leaseTtl⟩
    replies := .empty config.replayTtl config.replays.capacity
    runs := .empty config.scheduler.historyLimit
    owners := 0
    published := []
    clock
    safety := config.scheduler.safety }

def revision (e : Engine) : Nat := e.scene.store.revision

/-! ## The clock -/

def now (e : Engine) : Instant := if Instant.hasDate e.clock then e.clock else 0

/-- The engine with the clock moved; it goes round at 64 bits. -/
def advance (e : Engine) (ms : Int) : Engine :=
  { e with clock := Int.bmod (e.clock + ms) (Nat.pow 2 64) }

def setClock (e : Engine) (ms : Int) : Engine := { e with clock := ms }

/-! ## Reading -/

def snapshot (e : Engine) : SnapshotView :=
  .ofIndexed e.scene.store.forest.indexed e.revision e.now

/-- The schema view of all classes, or of one. -/
def schema (e : Engine) (className : Option String) : SchemaView :=
  .ofIndexed e.scene.store.forest.indexed className e.revision e.now

/-- The leases that are live. Those that are over are forgotten. -/
def leases (e : Engine) : LeaseView × Engine :=
  let table := e.scene.leases.prune e.now
  (⟨table.active e.now, table.stats e.now⟩, { e with scene := { e.scene with leases := table } })

end Engine

end SharedScene
