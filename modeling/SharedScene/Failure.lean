import SharedScene.Run.Scheduler
import SharedScene.Scene.Error

/-!
# Failures of the program

A failure ends what the program was asked to do, unlike a conflict, which is an answer. Every kind
of failure has an exit code: 1 for bad input, 2 for the system, 3 for something that is not there,
4 for a step that is not allowed.
-/

namespace SharedScene

/-- Why the program cannot go on. -/
inductive Failure where
  | invalidConfig (text : String)
  | parse (text : String)
  | validation (text : String)
  | io (text : String)
  | notFound (text : String)
  | invalidState (text : String)
  | scene (e : SceneError)
  | scheduler (e : SchedulerError)
deriving DecidableEq, Repr

namespace Failure

def message : Failure → String
  | .invalidConfig text => "Invalid configuration: " ++ text
  | .parse text => "Parse error: " ++ text
  | .validation text => "Validation error: " ++ text
  | .io text => "IO error: " ++ text
  | .notFound text => "Not found: " ++ text
  | .invalidState text => "Invalid state: " ++ text
  | .scene e => e.message
  | .scheduler e => e.message

/-- The exit code of a program that ends with this failure. -/
def exitCode : Failure → Nat
  | .invalidConfig _ => 1
  | .parse _ => 1
  | .validation _ => 1
  | .io _ => 2
  | .notFound _ => 3
  | .invalidState _ => 4
  | .scene e => e.exitCode
  | .scheduler e => e.exitCode

end Failure

/-- The status of that name; any other text is a failure. -/
def RunStatus.parse (text : String) : Except Failure RunStatus :=
  match ofName? text with
  | some status => .ok status
  | none => .error (.validation s!"Invalid run status: {text}")

end SharedScene
