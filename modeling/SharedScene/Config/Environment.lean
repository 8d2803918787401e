import SharedScene.Config.Basic
import SharedScene.Decimal.Reader

/-!
# Environment variables

Each field of the configuration has a variable that sets it, whatever the layers say. Numbers are
written in decimal, blanks around them aside.
-/

namespace SharedScene

/-- A variable of the environment: its name and what it sets. -/
structure Override where
  name : String
  set : String → Config → Except Failure Config

namespace Override

/-- A variable that holds a number. -/
def number {α : Type} (name : String) (read : String → Except NumberFault α)
    (put : α → Config → Config) : Override where
  name
  set := fun value c =>
    match read (Text.trim value) with
    | .ok a => .ok (put a c)
    | .error fault => .error (.invalidConfig s!"Invalid {name} value: {fault.message}")

/-- A variable that holds a natural number of at most 64 bits. -/
def nat64 (name : String) (put : Nat → Config → Config) : Override :=
  number name (Text.readNat (Nat.pow 2 64)) put

/-- Sets one limit of the default policy. -/
def onSafety (f : SafetyPolicy → SafetyPolicy) (c : Config) : Config :=
  { c with scheduler := { c.scheduler with safety := f c.scheduler.safety } }

/-- The variable that sets the log filter; its text is taken as it is. -/
def logFilter : Override where
  name := "SCENESYNC_LOG"
  set := fun value c =>
    if Text.isBlankText value then
      .error (.invalidConfig
        "SCENESYNC_LOG cannot be empty - unset the variable or provide a filter")
    else .ok { c with log := { filter := value } }

/-- Every variable, in the order in which they are looked at. -/
def all : List Override :=
  [ nat64 "SCENESYNC_LOCK_TTL_MS" fun n c => { c with leases := { ttl := n } },
    nat64 "SCENESYNC_IDEMPOTENCY_TTL_MS" fun n c =>
      { c with replays := { c.replays with ttl := n } },
    nat64 "SCENESYNC_IDEMPOTENCY_CAPACITY" fun n c =>
      { c with replays := { c.replays with capacity := n } },
    nat64 "SCENESYNC_HISTORY_LIMIT" fun n c =>
      { c with scheduler := { c.scheduler with historyLimit := n } },
    nat64 "SCENESYNC_TIMEOUT_MS" fun n => onSafety fun p => { p with timeout := n },
    number "SCENESYNC_MAX_RETRIES" (Text.readNat (Nat.pow 2 32)) fun n =>
      onSafety fun p => { p with maxRetries := n },
    nat64 "SCENESYNC_RETRY_DELAY_MS" fun n => onSafety fun p => { p with retryDelay := n },
    number "SCENESYNC_BACKOFF_FACTOR" Text.readFloat fun x =>
      onSafety fun p => { p with backoffFactor := x },
    nat64 "SCENESYNC_MAX_RETRY_DELAY_MS" fun n => onSafety fun p => { p with maxRetryDelay := n },
    nat64 "SCENESYNC_EVENT_CAPACITY" fun n c => { c with events := { channelCapacity := n } },
    logFilter ]

end Override

/-- The variables of an environment. -/
abbrev Environment := String → Option String

/-- The configuration with every variable of the environment applied. -/
def Config.withEnvironment (c : Config) (env : Environment) : Except Failure Config :=
  Override.all.foldlM (fun c o => match env o.name with
    | some value => o.set value c
    | none => .ok c) c

end SharedScene
