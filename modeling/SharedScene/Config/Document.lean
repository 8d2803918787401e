import SharedScene.Config.Basic
import SharedScene.Toml.Printer
import SharedScene.Toml.Reader

/-!
# The configuration as a document

A configuration file is a TOML document that names any part of the configuration. Keys that mean
nothing are left aside, and so are values beyond those of a section that is a list. The whole
configuration is written as one section for each part, in order.
-/

namespace SharedScene.Config

/-- The layer in a TOML document. -/
def ofToml (text : String) : Except String Config :=
  match Toml.read text with
  | .error e => .error e.message
  | .ok v => (ofJson .ignored v).mapError (·.message)

/-- The sections of the whole configuration. -/
def sections (c : Config) : List Toml.Section :=
  let safety := c.scheduler.safety
  [ ⟨"locks", [("ttl_ms", .int c.leases.ttl)]⟩,
    ⟨"idempotency", [("ttl_ms", .int c.replays.ttl), ("capacity", .int c.replays.capacity)]⟩,
    ⟨"scheduler", [("history_limit", .int c.scheduler.historyLimit)]⟩,
    ⟨"scheduler.default_safety",
      [("timeout_ms", .int safety.timeout), ("max_retries", .int safety.maxRetries),
       ("retry_delay_ms", .int safety.retryDelay), ("backoff_factor", .float safety.backoffFactor),
       ("max_retry_delay_ms", .int safety.maxRetryDelay)]⟩,
    ⟨"events", [("channel_capacity", .int c.events.channelCapacity)]⟩,
    ⟨"log", [("filter", .text c.log.filter)]⟩ ]

/-- The whole configuration as TOML; none when a number in it cannot be written. -/
def toToml? (c : Config) : Option String := Toml.render? c.sections

end SharedScene.Config
