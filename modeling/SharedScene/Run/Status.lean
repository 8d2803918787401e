/-!
# The life of a test run

```text
queued -> dispatching -> running -> passed
   |          |            |
   v          v            v
aborted    passed / failed / aborted

dispatching, running, failed -> queued   (retry)
```

Passed, failed and aborted are terminal; the retry of a failed run is the only way out of them.
-/

namespace SharedScene

/-- Where a test run stands. -/
inductive RunStatus where
  | queued
  | dispatching
  | running
  | passed
  | failed
  | aborted
deriving DecidableEq, Repr

/-- A step of a life that is not allowed. -/
structure TransitionError where
  source : RunStatus
  target : RunStatus
deriving DecidableEq, Repr

namespace RunStatus

def name : RunStatus → String
  | .queued => "queued"
  | .dispatching => "dispatching"
  | .running => "running"
  | .passed => "passed"
  | .failed => "failed"
  | .aborted => "aborted"

def all : List RunStatus := [.queued, .dispatching, .running, .passed, .failed, .aborted]

def ofName? (name : String) : Option RunStatus := all.find? (·.name == name)

def isTerminal : RunStatus → Bool
  | .passed => true
  | .failed => true
  | .aborted => true
  | _ => false

/-- Whether a run may go from one status to another. -/
def mayBecome : RunStatus → RunStatus → Bool
  | .queued, .dispatching => true
  | .queued, .aborted => true
  | .dispatching, .running => true
  | .dispatching, .queued => true
  | .dispatching, .passed => true
  | .dispatching, .failed => true
  | .dispatching, .aborted => true
  | .running, .queued => true
  | .running, .passed => true
  | .running, .failed => true
  | .running, .aborted => true
  | .failed, .queued => true
  | _, _ => false

/-- The step from one status to another, when it is allowed. -/
def transition (source target : RunStatus) : Except TransitionError Unit :=
  if source.mayBecome target then .ok () else .error ⟨source, target⟩

end RunStatus

def TransitionError.message (e : TransitionError) : String :=
  s!"invalid state transition: cannot transition from {e.source.name} to {e.target.name}"

end SharedScene
