import SharedScene.Instant
import SharedScene.Identifier
import SharedScene.Run.Policy
import SharedScene.Run.Status

/-!
# The queue of test runs

Runs are dispatched in the order of their arrival, one at a time: the **active slot** holds the run
that is dispatching or running. A retry goes to the end of the queue and waits there for its delay,
but never blocks a run that is ready: the next run is the earliest one in the queue whose delay is
over.

Runs that are over stay listed, in the order of arrival, until more than `historyLimit` of them are
there; then the oldest go. Runs that are not over never count and never go.

An operation that is refused leaves the scheduler as it is, so refusals carry no new state.

The scheduler counts time in instants. A run that was written down elsewhere may have finer times,
so the type of a run has its times as a parameter (`TimedRun`).

Instants go on for ever, and dates do not: a run can be told to wait until an instant that has no
date. The scheduler reckons with such a run like with any other, but nobody can be told of it
(`TestRun.isDated`).
-/

namespace SharedScene

/-- One run of a scenario, with times of type `τ`. -/
structure TimedRun (τ : Type) where
  id : RunId
  status : RunStatus
  /-- Counts from 1; every retry adds one. -/
  attempt : Nat
  scenario : Json
  safety : SafetyPolicy
  nextDispatchAt : Option τ
  createdAt : τ
  updatedAt : τ
  startedAt : Option τ
  finishedAt : Option τ
  message : Option String
  result : Option Json

namespace TimedRun

/-- A run that enters the queue. -/
def new {τ : Type} (id : RunId) (scenario : Json) (safety : SafetyPolicy) (now : τ) : TimedRun τ :=
  { id, status := .queued, attempt := 1, scenario, safety, nextDispatchAt := none, createdAt := now,
    updatedAt := now, startedAt := none, finishedAt := none, message := none, result := none }

/-- Whether the delay of a run is over. -/
def delayIsOver {τ : Type} [LE τ] [DecidableLE τ] (r : TimedRun τ) (now : τ) : Bool :=
  match r.nextDispatchAt with
  | none => true
  | some t => decide (t ≤ now)

def isReady {τ : Type} [LE τ] [DecidableLE τ] (r : TimedRun τ) (now : τ) : Bool :=
  decide (r.status = .queued) && r.delayIsOver now

def canRetry {τ : Type} (r : TimedRun τ) : Bool := decide (r.attempt < r.safety.maxRetries)

end TimedRun

/-- One run as the scheduler keeps it. -/
abbrev TestRun := TimedRun Instant

/-- Whether the wait of a run ends at an instant that has a date. -/
def TestRun.isDated (r : TestRun) : Bool := r.nextDispatchAt.all Instant.hasDate

/-- Why an operation on the queue is refused. -/
inductive SchedulerError where
  | unknownRun (id : RunId)
  | transition (id : RunId) (reason : TransitionError)
  | notReady (id : RunId) (readyAt : Instant)
  | slotBusy (active : RunId)
  | retriesExhausted (id : RunId) (attempt maxRetries : Nat)
  | notTerminal (status : RunStatus)
  | notQueued (id : RunId) (status : RunStatus)
deriving DecidableEq, Repr

namespace SchedulerError

def message : SchedulerError → String
  | .unknownRun id => s!"run not found: {id.text}"
  | .transition id reason => s!"run {id.text}: {reason.message}"
  | .notReady id readyAt => s!"run {id.text} is not ready until {Instant.display readyAt}"
  | .slotBusy active => s!"run {active.text} already occupies the active slot"
  | .retriesExhausted id attempt maxRetries =>
    s!"run {id.text} exhausted its retries ({attempt} of {maxRetries})"
  | .notTerminal status => s!"{status.name} is not a terminal status"
  | .notQueued id status => s!"run {id.text} is {status.name}, only queued runs can be aborted"

/-- The exit code of a program that ends with this error. -/
def exitCode : SchedulerError → Nat
  | .unknownRun _ => 3
  | .notTerminal _ => 1
  | _ => 4

end SchedulerError

/-- The runs, the queue and the active slot. -/
structure Scheduler where
  /-- In the order of arrival. -/
  runs : List TestRun
  queue : List RunId
  active : Option RunId
  /-- How many runs ever entered. -/
  sequence : Nat
  historyLimit : Nat

/-- Numbers about the runs. -/
structure SchedulerStats where
  total : Nat
  queued : Nat
  /-- Queued runs whose delay is not over. -/
  delayed : Nat
  dispatching : Nat
  running : Nat
  passed : Nat
  failed : Nat
  aborted : Nat
  active : Option RunId
deriving DecidableEq, Repr

namespace Scheduler

/-- How many runs that are over stay listed unless told otherwise. -/
def defaultHistoryLimit : Nat := 1000

def empty (historyLimit : Nat) : Scheduler := ⟨[], [], none, 0, historyLimit⟩

def get? (s : Scheduler) (id : RunId) : Option TestRun := s.runs.find? fun r => decide (r.id = id)

/-- The run of an id, or the refusal. -/
def lookup (s : Scheduler) (id : RunId) : Except SchedulerError TestRun :=
  match s.get? id with
  | some r => .ok r
  | none => .error (.unknownRun id)

def put (s : Scheduler) (run : TestRun) : Scheduler :=
  { s with runs := s.runs.map fun r => if r.id = run.id then run else r }

/-- A run in another status. -/
def step (run : TestRun) (status : RunStatus) (now : Instant) : Except SchedulerError TestRun :=
  match run.status.transition status with
  | .ok () => .ok { run with status, updatedAt := now }
  | .error e => .error (.transition run.id e)

/-- The scheduler with a run taken out of the queue. -/
def dequeue (s : Scheduler) (id : RunId) : Scheduler :=
  { s with queue := s.queue.filter fun q => decide (q ≠ id) }

/-- The scheduler with the active slot free, if the run held it. -/
def clearActive (s : Scheduler) (id : RunId) : Scheduler :=
  if s.active = some id then { s with active := none } else s

/-- Runs without the first `excess` of those that are over. -/
def dropFinished : Nat → List TestRun → List TestRun
  | 0, runs => runs
  | _, [] => []
  | excess + 1, r :: rest =>
    if r.status.isTerminal then dropFinished excess rest else r :: dropFinished (excess + 1) rest

/-- The scheduler with no more runs that are over than it keeps. -/
def prune (s : Scheduler) : Scheduler :=
  let finished := s.runs.countP fun r => r.status.isTerminal
  { s with runs := dropFinished (finished - s.historyLimit) s.runs }

/-- A new run at the end of the queue. -/
def enqueue (s : Scheduler) (scenario : Json) (safety : SafetyPolicy) (now : Instant) :
    TestRun × Scheduler :=
  let id := Identifier.ofSequence (s.sequence + 1)
  let run := TimedRun.new id scenario safety now
  (run, { s with runs := s.runs ++ [run], queue := s.queue ++ [id], sequence := s.sequence + 1 })

/-- The earliest run in the queue that is ready. -/
def peek? (s : Scheduler) (now : Instant) : Option TestRun :=
  (s.queue.filterMap s.get?).find? fun r => r.isReady now

/-- How long it takes until a run in the queue is ready; zero when one is, none when the queue is
empty. -/
def nextReadyIn? (s : Scheduler) (now : Instant) : Option Int :=
  ((s.queue.filterMap s.get?).map fun r =>
    match r.nextDispatchAt with
    | none => 0
    | some t => max (t - now) 0).min?

/-- Claims the active slot for a run that is ready. -/
def markDispatching (s : Scheduler) (id : RunId) (now : Instant) :
    Except SchedulerError (TestRun × Scheduler) := do
  match s.active with
  | some active => if active = id then pure () else throw (.slotBusy active)
  | none => pure ()
  let run ← s.lookup id
  match run.nextDispatchAt with
  | some t => if now < t then throw (.notReady id t) else pure ()
  | none => pure ()
  let run := { (← step run .dispatching now) with nextDispatchAt := none }
  return (run, { (s.put run).dequeue id with active := some id })

/-- Notes that the executor has begun with a run. -/
def markRunning (s : Scheduler) (id : RunId) (now : Instant) :
    Except SchedulerError (TestRun × Scheduler) := do
  let run := { (← step (← s.lookup id) .running now) with startedAt := some now }
  return (run, s.put run)

/-- Ends a run. -/
def complete (s : Scheduler) (id : RunId) (status : RunStatus) (message : Option String)
    (result : Option Json) (now : Instant) : Except SchedulerError (TestRun × Scheduler) := do
  if !status.isTerminal then throw (.notTerminal status)
  let run := { (← step (← s.lookup id) status now) with finishedAt := some now, message, result }
  return (run, (((s.put run).dequeue id).clearActive id).prune)

/-- Puts a run back at the end of the queue, to wait for its delay. -/
def queueRetry (s : Scheduler) (id : RunId) (reason : String) (now : Instant) :
    Except SchedulerError (TestRun × Scheduler) := do
  let run ← s.lookup id
  if !run.canRetry then throw (.retriesExhausted id run.attempt run.safety.maxRetries)
  let queued ← step run .queued now
  let run := { queued with
    nextDispatchAt := some (now + run.safety.durationAfter run.attempt)
    attempt := run.attempt + 1
    finishedAt := none
    message := some reason }
  let s := s.put run
  return (run, { s with queue := s.queue ++ [id] }.clearActive id)

/-- Aborts a run that was not dispatched yet. -/
def abortQueued (s : Scheduler) (id : RunId) (reason : String) (now : Instant) :
    Except SchedulerError (TestRun × Scheduler) := do
  let run ← s.lookup id
  if run.status ≠ .queued then throw (.notQueued id run.status)
  let run := { (← step run .aborted now) with
    nextDispatchAt := none, finishedAt := some now, message := some reason }
  return (run, ((s.put run).dequeue id).prune)

def count (s : Scheduler) (status : RunStatus) : Nat :=
  s.runs.countP fun r => decide (r.status = status)

def stats (s : Scheduler) (now : Instant) : SchedulerStats :=
  { total := s.runs.length
    queued := s.count .queued
    delayed := s.runs.countP fun r => decide (r.status = .queued) && !r.isReady now
    dispatching := s.count .dispatching
    running := s.count .running
    passed := s.count .passed
    failed := s.count .failed
    aborted := s.count .aborted
    active := s.active }

end Scheduler

/-- What the executor reports of one attempt. -/
inductive RunOutcome where
  | passed (message : Option String) (result : Option Json)
  /-- A failure that may be retried while attempts are left. -/
  | failed (message : Option String) (result : Option Json) (retryable : Bool)
  | aborted (message : Option String)

/-- The status that an outcome gives a run. -/
def RunOutcome.status : RunOutcome → RunStatus
  | .passed _ _ => .passed
  | .failed _ _ _ => .failed
  | .aborted _ => .aborted

/-- The reason of a retry that gives none. -/
def defaultRetryReason : String := "retryable failure"

/-- Records what the executor reports of `run`, the run as it was handed to it: a failure that may
be retried while attempts are left puts the run back into the queue, anything else ends it. -/
def Scheduler.settle (s : Scheduler) (run : TestRun) (outcome : RunOutcome) (now : Instant) :
    Except SchedulerError (TestRun × Scheduler) :=
  match outcome with
  | .passed message result => s.complete run.id .passed message result now
  | .failed message result retryable =>
    if retryable && run.canRetry then
      s.queueRetry run.id (message.getD defaultRetryReason) now
    else s.complete run.id .failed message result now
  | .aborted message => s.complete run.id .aborted message none now

end SharedScene
