import SharedScene.Moment
import SharedScene.Run.Scheduler

/-!
# Test runs in JSON

What a run does not have yet is left out of it; every limit of a policy has a default. The
scheduler writes runs with its instants; a run in JSON may have any moments.
-/

namespace SharedScene

open Json (Record Tagged)

def SafetyPolicy.toJson (p : SafetyPolicy) : Json :=
  .obj [("timeoutMs", .ofNat p.timeout), ("maxRetries", .ofNat p.maxRetries),
    ("retryDelayMs", .ofNat p.retryDelay), ("backoffFactor", .ofFloat p.backoffFactor),
    ("maxRetryDelayMs", .ofNat p.maxRetryDelay)]

def SafetyPolicy.ofJson : Json.Decoder SafetyPolicy := fun v => do
  let r ← Record.ofJson 5 v
  let d : SafetyPolicy := {}
  return {
    timeout := ← r.withDefault 0 "timeoutMs" d.timeout Json.Decode.nat64
    maxRetries := ← r.withDefault 1 "maxRetries" d.maxRetries Json.Decode.nat32
    retryDelay := ← r.withDefault 2 "retryDelayMs" d.retryDelay Json.Decode.nat64
    backoffFactor := ← r.withDefault 3 "backoffFactor" d.backoffFactor Json.Decode.float
    maxRetryDelay := ← r.withDefault 4 "maxRetryDelayMs" d.maxRetryDelay Json.Decode.nat64 }

def RunStatus.ofJson : Json.Decoder RunStatus := Json.Decode.oneOf RunStatus.ofName?

/-- A run as JSON, its times written by `time`. -/
def TimedRun.toJsonWith {τ : Type} (time : τ → Json) (r : TimedRun τ) : Json :=
  .obj ([("id", r.id.toJson), ("status", .str r.status.name), ("attempt", .ofNat r.attempt),
      ("scenario", r.scenario), ("safety", r.safety.toJson)] ++
    Json.member? "nextDispatchAt" time r.nextDispatchAt ++
    [("createdAt", time r.createdAt), ("updatedAt", time r.updatedAt)] ++
    Json.member? "startedAt" time r.startedAt ++
    Json.member? "finishedAt" time r.finishedAt ++
    Json.member? "message" .str r.message ++
    Json.member? "result" (fun v => v) r.result)

/-- A run of the scheduler as JSON. -/
def TestRun.toJson (r : TestRun) : Json := r.toJsonWith Instant.toJson

def TimedRun.ofJson : Json.Decoder (TimedRun Moment) := fun v => do
  let r ← Record.ofJson 12 v
  return {
    id := ← r.required 0 "id" Identifier.ofJson
    status := ← r.required 1 "status" RunStatus.ofJson
    attempt := ← r.required 2 "attempt" Json.Decode.nat32
    scenario := ← r.required 3 "scenario" Json.Decode.raw
    safety := ← r.required 4 "safety" SafetyPolicy.ofJson
    nextDispatchAt := ← r.optional 5 "nextDispatchAt" Moment.ofJson
    createdAt := ← r.required 6 "createdAt" Moment.ofJson
    updatedAt := ← r.required 7 "updatedAt" Moment.ofJson
    startedAt := ← r.optional 8 "startedAt" Moment.ofJson
    finishedAt := ← r.optional 9 "finishedAt" Moment.ofJson
    message := ← r.optional 10 "message" Json.Decode.text
    result := ← r.optional 11 "result" Json.Decode.raw }

/-- A request for a run; without a policy the configured one counts. -/
structure RunRequest where
  scenario : Json
  safety : Option SafetyPolicy

def RunRequest.toJson (r : RunRequest) : Json :=
  .obj [("scenario", r.scenario), ("safety", .ofOption SafetyPolicy.toJson r.safety)]

def RunRequest.ofJson : Json.Decoder RunRequest := fun v => do
  let r ← Record.ofJson 2 v
  return {
    scenario := ← r.required 0 "scenario" Json.Decode.raw
    safety := ← r.optional 1 "safety" SafetyPolicy.ofJson }

def RunOutcome.toJson : RunOutcome → Json
  | .passed message result =>
    .obj [("outcome", .str "passed"), ("message", .ofOption .str message),
      ("result", .ofOption id result)]
  | .failed message result retryable =>
    .obj [("outcome", .str "failed"), ("message", .ofOption .str message),
      ("result", .ofOption id result), ("retryable", .bool retryable)]
  | .aborted message =>
    .obj [("outcome", .str "aborted"), ("message", .ofOption .str message)]

def RunOutcome.ofJson : Json.Decoder RunOutcome := fun v => do
  let t ← Tagged.ofJson "outcome" v
  match t.name with
  | "passed" =>
    let r ← t.parts.bounded 2
    return .passed (← r.optional 0 "message" Json.Decode.text)
      (← r.optional 1 "result" Json.Decode.raw)
  | "failed" =>
    let r ← t.parts.bounded 3
    return .failed (← r.optional 0 "message" Json.Decode.text)
      (← r.optional 1 "result" Json.Decode.raw)
      (← r.withDefault 2 "retryable" false Json.Decode.bool)
  | "aborted" =>
    let r ← t.parts.bounded 1
    return .aborted (← r.optional 0 "message" Json.Decode.text)
  | name => throw (.unknown name)

def SchedulerStats.toJson (s : SchedulerStats) : Json :=
  .obj [("total", .ofNat s.total), ("queued", .ofNat s.queued), ("delayed", .ofNat s.delayed),
    ("dispatching", .ofNat s.dispatching), ("running", .ofNat s.running),
    ("passed", .ofNat s.passed), ("failed", .ofNat s.failed), ("aborted", .ofNat s.aborted),
    ("active", .ofOption Identifier.toJson s.active)]

end SharedScene
