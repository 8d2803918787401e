import SharedScene.Engine.Basic

/-!
# Test runs of an engine

The operations of the scheduler at the time of the engine's clock, and the **dispatch** of the next
run: it is claimed, marked as running and handed to an executor, and what the executor reports is
recorded. The executor is an effect that may use the engine itself; while it works, the run holds
the active slot.

A retry may have to wait until an instant that no date can name. The dispatch breaks off there, and
nobody gets an answer (`dispatch?`).
-/

namespace SharedScene.Engine

/-- An operation on the runs, at the time of the clock. -/
def onRuns {α : Type} (e : Engine)
    (f : Scheduler → Instant → Except SchedulerError (α × Scheduler)) :
    Except SchedulerError (α × Engine) := do
  let (a, runs) ← f e.runs e.now
  return (a, { e with runs })

/-- A new run at the end of the queue. -/
def enqueue (e : Engine) (request : RunRequest) : TestRun × Engine :=
  let (run, runs) := e.runs.enqueue request.scenario (request.safety.getD e.safety) e.now
  (run, { e with runs })

/-- Claims the next run that is ready and marks it as running; none when the active slot is taken
or nothing is ready. -/
def claimNext (e : Engine) : Except SchedulerError (Option (TestRun × Engine)) := do
  match e.runs.active, e.runs.peek? e.now with
  | none, some run =>
    let (_, e) ← e.onRuns fun s now => s.markDispatching run.id now
    let (run, e) ← e.onRuns fun s now => s.markRunning run.id now
    return some (run, e)
  | _, _ => return none

/-- Dispatches the next run through an executor and records its outcome. -/
def dispatch {m : Type → Type} [Monad m] (e : Engine)
    (execute : TestRun → Engine → m (RunOutcome × Engine)) :
    m (Except SchedulerError (Option TestRun) × Engine) := do
  match e.claimNext with
  | .error err => return (.error err, e)
  | .ok none => return (.ok none, e)
  | .ok (some (run, claimed)) =>
    let (outcome, e) ← execute run claimed
    match e.onRuns fun s now => s.settle run outcome now with
    | .error err => return (.error err, e)
    | .ok (run, e) => return (.ok (some run), e)

/-- What a dispatch can answer in dates; none when the run would have to wait for an instant without
one. -/
def inDates? (done : Except SchedulerError (Option TestRun) × Engine) :
    Option (Except SchedulerError (Option TestRun) × Engine) :=
  match done.1 with
  | .ok (some run) => if run.isDated then some done else none
  | _ => some done

/-- Dispatches the next run through an executor by the calendar. -/
def dispatch? {m : Type → Type} [Monad m] (e : Engine)
    (execute : TestRun → Engine → m (RunOutcome × Engine)) :
    m (Option (Except SchedulerError (Option TestRun) × Engine)) :=
  inDates? <$> e.dispatch execute

end SharedScene.Engine
