import SharedScene.Path
import SharedScene.Identifier
import SharedScene.Value.Basic

/-!
# Why a change to the scene is refused

Each cause is a case of its own. Two of them say that a target does not resolve; the caller has to
look again. All others say that the request itself is wrong.
-/

namespace SharedScene

/-- Why a value does not fit its property. -/
inductive ValueFault where
  | notWritable (reason : Value.NotWritable)
  | nameNotText
  | shapeDiffers (expected : Value.Kind)
  | emptyClassName
deriving DecidableEq, Repr

def ValueFault.message : ValueFault → String
  | .notWritable reason => reason.message
  | .nameNotText => "Name must be a string"
  | .shapeDiffers expected => s!"expected a {expected.name} value"
  | .emptyClassName => "className cannot be empty"

/-- Why a change is refused. -/
inductive SceneError where
  | pathNotFound (path : Path)
  | idNotFound (id : InstanceId)
  /-- The destination is the instance itself or lies below it. -/
  | cycle (path newParentPath : Path)
  | invalidName (reason : IdentifierError)
  | duplicateId (id : InstanceId)
  /-- The key addresses the record and cannot be written this way. -/
  | readOnlyProperty (key : String)
  | invalidValue (key : String) (fault : ValueFault)
deriving DecidableEq, Repr

namespace SceneError

def message : SceneError → String
  | .pathNotFound path => s!"path not found: {path.display}"
  | .idNotFound id => s!"instance not found: {id.text}"
  | .cycle path newParentPath =>
    s!"cannot move {path.display} into itself or its descendant {newParentPath.display}"
  | .invalidName reason => s!"invalid name: {reason.message}"
  | .duplicateId id => s!"duplicate instance id: {id.text}"
  | .readOnlyProperty key => s!"property '{key}' is read-only"
  | .invalidValue key fault => s!"invalid value for '{key}': {fault.message}"

def isNotFound : SceneError → Bool
  | .pathNotFound _ => true
  | .idNotFound _ => true
  | _ => false

/-- The exit code of a program that ends with this error. -/
def exitCode (e : SceneError) : Nat := if e.isNotFound then 3 else 1

end SceneError

end SharedScene
