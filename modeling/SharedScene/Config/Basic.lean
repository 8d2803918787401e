import SharedScene.Failure
import SharedScene.Json.Decode
import SharedScene.Lease
import SharedScene.ReplayCache

/-!
# The configuration

What can be set from outside, each with a value for when nobody sets it. A configuration file names
any part of it. **Layers** are put one over the other, and a field of the upper layer takes the
place of the lower one's unless it holds the built-in default: a layer does not say which of its
fields were written, so a default counts as not written.
-/

namespace SharedScene

open Json (Record)

/-- What is set about leases. -/
structure LeaseConfig where
  /-- How long a lease lasts, in milliseconds. -/
  ttl : Nat := 15000
deriving BEq, Inhabited

/-- What is set about replies that are replayed. -/
structure ReplayConfig where
  /-- How long a reply is kept, in milliseconds. -/
  ttl : Nat := 600000
  /-- How many replies are kept. -/
  capacity : Nat := ReplayCache.defaultCapacity
deriving BEq, Inhabited

/-- What is set about test runs. -/
structure SchedulerConfig where
  /-- How many runs that are over stay listed. -/
  historyLimit : Nat := Scheduler.defaultHistoryLimit
  /-- The limits of a run that brings none. -/
  safety : SafetyPolicy := {}
deriving BEq, Inhabited

/-- What is set about events. -/
structure EventConfig where
  /-- How many events a subscriber may be behind. -/
  channelCapacity : Nat := 256
deriving BEq, Inhabited

/-- What is set about the log. -/
structure LogConfig where
  /-- Which messages are logged. -/
  filter : String := "info"
deriving BEq, Inhabited

/-- What can be set from outside. -/
structure Config where
  leases : LeaseConfig := {}
  replays : ReplayConfig := {}
  scheduler : SchedulerConfig := {}
  events : EventConfig := {}
  log : LogConfig := {}
deriving BEq, Inhabited

namespace Config

/-! ## Layers -/

/-- The upper layer's value of a field, unless it is the default. -/
def pick {α : Type} [BEq α] (lower upper default : α) : α :=
  if upper == default then lower else upper

/-- One policy over another. -/
def overlaySafety (a b : SafetyPolicy) : SafetyPolicy :=
  let d : SafetyPolicy := {}
  { timeout := pick a.timeout b.timeout d.timeout
    maxRetries := pick a.maxRetries b.maxRetries d.maxRetries
    retryDelay := pick a.retryDelay b.retryDelay d.retryDelay
    backoffFactor := pick a.backoffFactor b.backoffFactor d.backoffFactor
    maxRetryDelay := pick a.maxRetryDelay b.maxRetryDelay d.maxRetryDelay }

/-- One layer over another. -/
def overlay (a b : Config) : Config :=
  let d : Config := {}
  { leases := { ttl := pick a.leases.ttl b.leases.ttl d.leases.ttl }
    replays :=
      { ttl := pick a.replays.ttl b.replays.ttl d.replays.ttl
        capacity := pick a.replays.capacity b.replays.capacity d.replays.capacity }
    scheduler :=
      { historyLimit :=
          pick a.scheduler.historyLimit b.scheduler.historyLimit d.scheduler.historyLimit
        safety := overlaySafety a.scheduler.safety b.scheduler.safety }
    events :=
      { channelCapacity :=
          pick a.events.channelCapacity b.events.channelCapacity d.events.channelCapacity }
    log := { filter := pick a.log.filter b.log.filter d.log.filter } }

/-- Layers, the lowest first, over the defaults. -/
def ofLayers (layers : List Config) : Config := layers.foldl overlay {}

/-! ## What is derived -/

/-- A number of milliseconds as a duration. -/
def duration (ms : Nat) : Int := min ms SafetyPolicy.maxDuration

def leaseTtl (c : Config) : Int := duration c.leases.ttl

def replayTtl (c : Config) : Int := duration c.replays.ttl

/-! ## Validation -/

/-- Refuses a configuration under which the program cannot work, by its first fault. -/
def validate (c : Config) : Except Failure Unit := do
  let safety := c.scheduler.safety
  if c.leases.ttl = 0 then throw (.validation "locks.ttl_ms must be greater than 0")
  if c.replays.ttl = 0 then throw (.validation "idempotency.ttl_ms must be greater than 0")
  if c.replays.capacity = 0 then
    throw (.validation "idempotency.capacity must be greater than 0")
  if c.scheduler.historyLimit = 0 then
    throw (.validation "scheduler.history_limit must be greater than 0")
  if !safety.backoffFactor.isFinite || safety.backoffFactor < 1.0 then
    throw (.validation
      "scheduler.default_safety.backoff_factor must be a finite number >= 1.0")
  if safety.maxRetryDelay < safety.retryDelay then
    throw (.validation "scheduler.default_safety.max_retry_delay_ms must be >= retry_delay_ms")
  if c.events.channelCapacity = 0 then
    throw (.validation "events.channel_capacity must be greater than 0")
  if Text.isBlankText c.log.filter then throw (.validation "log.filter cannot be empty")

/-! ## As a value -/

/-- A policy as it stands in a configuration. -/
def safetyToJson (p : SafetyPolicy) : Json :=
  .obj [("timeout_ms", .ofNat p.timeout), ("max_retries", .ofNat p.maxRetries),
    ("retry_delay_ms", .ofNat p.retryDelay), ("backoff_factor", .ofFloat p.backoffFactor),
    ("max_retry_delay_ms", .ofNat p.maxRetryDelay)]

/-- A policy in a configuration. -/
def safetyOfJson (extra : Record.Surplus) : Json.Decoder SafetyPolicy := fun v => do
  let r ← Record.ofJsonWith extra 5 v
  let d : SafetyPolicy := {}
  return {
    timeout := ← r.withDefault 0 "timeout_ms" d.timeout Json.Decode.nat64
    maxRetries := ← r.withDefault 1 "max_retries" d.maxRetries Json.Decode.nat32
    retryDelay := ← r.withDefault 2 "retry_delay_ms" d.retryDelay Json.Decode.nat64
    backoffFactor := ← r.withDefault 3 "backoff_factor" d.backoffFactor Json.Decode.float
    maxRetryDelay := ← r.withDefault 4 "max_retry_delay_ms" d.maxRetryDelay Json.Decode.nat64 }

/-- The part about leases. -/
def leasesOfJson (extra : Record.Surplus) : Json.Decoder LeaseConfig := fun v => do
  let r ← Record.ofJsonWith extra 1 v
  let d : LeaseConfig := {}
  return { ttl := ← r.withDefault 0 "ttl_ms" d.ttl Json.Decode.nat64 }

/-- The part about replays. -/
def replaysOfJson (extra : Record.Surplus) : Json.Decoder ReplayConfig := fun v => do
  let r ← Record.ofJsonWith extra 2 v
  let d : ReplayConfig := {}
  return {
    ttl := ← r.withDefault 0 "ttl_ms" d.ttl Json.Decode.nat64
    capacity := ← r.withDefault 1 "capacity" d.capacity Json.Decode.nat64 }

/-- The part about test runs. -/
def schedulerOfJson (extra : Record.Surplus) : Json.Decoder SchedulerConfig := fun v => do
  let r ← Record.ofJsonWith extra 2 v
  let d : SchedulerConfig := {}
  return {
    historyLimit := ← r.withDefault 0 "history_limit" d.historyLimit Json.Decode.nat64
    safety := ← r.withDefault 1 "default_safety" d.safety (safetyOfJson extra) }

/-- The part about events. -/
def eventsOfJson (extra : Record.Surplus) : Json.Decoder EventConfig := fun v => do
  let r ← Record.ofJsonWith extra 1 v
  let d : EventConfig := {}
  return {
    channelCapacity := ← r.withDefault 0 "channel_capacity" d.channelCapacity Json.Decode.nat64 }

/-- The part about the log. -/
def logOfJson (extra : Record.Surplus) : Json.Decoder LogConfig := fun v => do
  let r ← Record.ofJsonWith extra 1 v
  let d : LogConfig := {}
  return { filter := ← r.withDefault 0 "filter" d.filter Json.Decode.text }

/-- The configuration as a value, its sections in order. -/
def toJson (c : Config) : Json :=
  .obj
    [("locks", .obj [("ttl_ms", .ofNat c.leases.ttl)]),
     ("idempotency", .obj
       [("ttl_ms", .ofNat c.replays.ttl), ("capacity", .ofNat c.replays.capacity)]),
     ("scheduler", .obj
       [("history_limit", .ofNat c.scheduler.historyLimit),
        ("default_safety", safetyToJson c.scheduler.safety)]),
     ("events", .obj [("channel_capacity", .ofNat c.events.channelCapacity)]),
     ("log", .obj [("filter", .str c.log.filter)])]

/-- The configuration in a value; what is absent has its default. A section may be a list of its
values in order, and `extra` says what becomes of values beyond them. -/
def ofJson (extra : Record.Surplus) : Json.Decoder Config := fun v => do
  let r ← Record.ofJsonWith extra 5 v
  return {
    leases := ← r.withDefault 0 "locks" {} (leasesOfJson extra)
    replays := ← r.withDefault 1 "idempotency" {} (replaysOfJson extra)
    scheduler := ← r.withDefault 2 "scheduler" {} (schedulerOfJson extra)
    events := ← r.withDefault 3 "events" {} (eventsOfJson extra)
    log := ← r.withDefault 4 "log" {} (logOfJson extra) }

end Config

end SharedScene
