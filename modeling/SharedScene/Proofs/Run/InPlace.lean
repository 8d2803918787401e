import SharedScene.InPlace
import SharedScene.Proofs.Run.Scheduler

/-!
# Operations that write as they go

A scheduler that is changed where it stands is written to while an operation goes on: first the
status of a run, then its times and its attempt, then the queue and the slot. What was written
before a refusal would stay (`InPlace`), so an operation that checks something after it has written
could leave half of its work behind.

None does. With every check where it is made and every write where it happens, an operation gives
the same run and the same scheduler as the one that answers with a new scheduler (`run_carryOut`),
and a refusal leaves the scheduler as it was (`eq_of_refused`).
-/

namespace SharedScene.Scheduler

open SharedScene.InPlace (check outcome run_check_bind outcome_eq_error)

/-- A change of a scheduler where it stands. A refusal keeps whatever was written before it. -/
abbrev InPlace := EStateM SchedulerError Scheduler

namespace InPlace

/-! ## Checks and writes -/

/-- Writes the record of a run. -/
def write (run : TestRun) : InPlace TestRun := do
  modify fun s => s.put run
  return run

/-- Writes another status to a run and when that was, and then what goes with the status. -/
def transition (run : TestRun) (status : RunStatus) (now : Instant)
    (change : TestRun → TestRun) : InPlace TestRun := do
  let run ← write (← check fun _ => step run status now)
  write (change run)

/-! ## The operations -/

def enqueue (scenario : Json) (safety : SafetyPolicy) (now : Instant) : InPlace TestRun := do
  modify fun s => { s with sequence := s.sequence + 1 }
  let run := TimedRun.new (Identifier.ofSequence (← get).sequence) scenario safety now
  modify fun s => { s with runs := s.runs ++ [run] }
  modify fun s => { s with queue := s.queue ++ [run.id] }
  return run

def markDispatching (id : RunId) (now : Instant) : InPlace TestRun := do
  check fun s => s.checkSlot id
  let run ← check fun s => s.lookup id
  check fun _ => checkDelay id run now
  let run ← transition run .dispatching now fun run => { run with nextDispatchAt := none }
  modify fun s => s.dequeue id
  modify fun s => { s with active := some id }
  return run

def markRunning (id : RunId) (now : Instant) : InPlace TestRun := do
  let run ← check fun s => s.lookup id
  transition run .running now fun run => { run with startedAt := some now }

def complete (id : RunId) (status : RunStatus) (message : Option String) (result : Option Json)
    (now : Instant) : InPlace TestRun := do
  if !status.isTerminal then throw (.notTerminal status)
  let run ← check fun s => s.lookup id
  let run ← transition run status now fun run =>
    { run with finishedAt := some now, message, result }
  modify fun s => s.dequeue id
  modify fun s => s.clearActive id
  modify fun s => s.prune
  return run

def queueRetry (id : RunId) (reason : String) (now : Instant) : InPlace TestRun := do
  let run ← check fun s => s.lookup id
  if !run.canRetry then throw (.retriesExhausted id run.attempt run.safety.maxRetries)
  let run ← transition run .queued now fun run =>
    { run with
      nextDispatchAt := some (now + run.safety.durationAfter run.attempt)
      attempt := run.attempt + 1
      finishedAt := none
      message := some reason }
  modify fun s => { s with queue := s.queue ++ [id] }
  modify fun s => s.clearActive id
  return run

def abortQueued (id : RunId) (reason : String) (now : Instant) : InPlace TestRun := do
  let run ← check fun s => s.lookup id
  if run.status ≠ .queued then throw (.notQueued id run.status)
  let run ← transition run .aborted now fun run =>
    { run with nextDispatchAt := none, finishedAt := some now, message := some reason }
  modify fun s => s.dequeue id
  modify fun s => s.prune
  return run

/-- What is asked of a scheduler, done where it stands. -/
def carryOut : Act → InPlace TestRun
  | .enqueue scenario safety now => enqueue scenario safety now
  | .markDispatching id now => markDispatching id now
  | .markRunning id now => markRunning id now
  | .complete id status message result now => complete id status message result now
  | .queueRetry id reason now => queueRetry id reason now
  | .abortQueued id reason now => abortQueued id reason now

/-! ## Agreement -/

section Agreement

variable {run : TestRun} {status : RunStatus} {now : Instant} {change : TestRun → TestRun}

/-- Of two records that are written under one id the later one stays. -/
theorem put_put {old new : TestRun} (h : old.id = new.id) (s : Scheduler) :
    (s.put old).put new = s.put new := by
  simp only [put, List.map_map]
  congr 1
  refine List.map_congr_left fun r _ => ?_
  by_cases hr : r.id = new.id <;> simp [h, hr]

/-- A transition is the last check: what is written after it is never in vain. -/
theorem run_transition_bind {s : Scheduler} {f : TestRun → InPlace TestRun}
    {g : TestRun → Except SchedulerError (TestRun × Scheduler)}
    (hid : ∀ run, (change run).id = run.id)
    (h : ∀ new, step run status now = .ok new →
      (f (change new)).run (s.put (change new)) = outcome s (g new)) :
    (transition run status now change >>= f).run s = outcome s (step run status now >>= g) := by
  cases hstep : step run status now with
  | error e =>
    simp only [transition, check, EStateM.run_bind, EStateM.run_get, hstep]
    rfl
  | ok new =>
    have hput := put_put (hid new).symm s
    have hwritten : (transition run status now change).run s =
        .ok (change new) ((s.put new).put (change new)) := by
      simp only [transition, check, EStateM.run_bind, EStateM.run_get, hstep]
      rfl
    rw [EStateM.run_bind, hwritten, hput]
    exact h new hstep

end Agreement

variable (s : Scheduler) (id : RunId) (reason : String) (now : Instant)

theorem run_markDispatching :
    (markDispatching id now).run s = outcome s (s.markDispatching id now) := by
  rw [markDispatching_eq]
  refine run_check_bind fun _ _ => run_check_bind fun run _ => run_check_bind fun _ _ => ?_
  exact run_transition_bind (fun _ => rfl) fun _ _ => rfl

theorem run_markRunning : (markRunning id now).run s = outcome s (s.markRunning id now) := by
  refine run_check_bind fun run _ => ?_
  rw [← bind_pure (transition run .running now _)]
  exact run_transition_bind (fun _ => rfl) fun _ _ => rfl

theorem run_complete (status : RunStatus) (message : Option String) (result : Option Json) :
    (complete id status message result now).run s =
      outcome s (s.complete id status message result now) := by
  unfold complete Scheduler.complete
  split
  · rfl
  · refine run_check_bind fun run _ => ?_
    exact run_transition_bind (fun _ => rfl) fun _ _ => rfl

theorem run_queueRetry :
    (queueRetry id reason now).run s = outcome s (s.queueRetry id reason now) := by
  refine run_check_bind fun run _ => ?_
  dsimp only
  split
  · rfl
  · refine run_transition_bind (fun _ => rfl) fun new hstep => ?_
    obtain ⟨_, rfl⟩ := step_eq_ok hstep
    rfl

theorem run_abortQueued :
    (abortQueued id reason now).run s = outcome s (s.abortQueued id reason now) := by
  refine run_check_bind fun run _ => ?_
  dsimp only
  split
  · rfl
  · exact run_transition_bind (fun _ => rfl) fun _ _ => rfl

/-- Whatever is asked of a scheduler comes out the same when it is done where the scheduler
stands. -/
theorem run_carryOut (act : Act) : (carryOut act).run s = outcome s (s.ask act) := by
  cases act with
  | enqueue scenario safety now => rfl
  | markDispatching id now => exact run_markDispatching s id now
  | markRunning id now => exact run_markRunning s id now
  | complete id status message result now => exact run_complete s id now status message result
  | queueRetry id reason now => exact run_queueRetry s id reason now
  | abortQueued id reason now => exact run_abortQueued s id reason now

theorem run_of_refused {s : Scheduler} {act : Act} {e : SchedulerError}
    (h : s.ask act = .error e) : (carryOut act).run s = .error e s := by
  rw [run_carryOut, h]
  rfl

/-- A refusal leaves the scheduler as it was, and it is the one that is answered with. -/
theorem eq_of_refused {s s' : Scheduler} {act : Act} {e : SchedulerError}
    (h : (carryOut act).run s = .error e s') : s.ask act = .error e ∧ s' = s :=
  outcome_eq_error.mp (run_carryOut s act ▸ h)

end InPlace

end SharedScene.Scheduler
