import SharedScene.Lease
import SharedScene.Scene.Error

/-!
# Conflicts

A command that cannot be carried out is answered with a conflict: the reason, what the caller asked
for, and the state that explains the refusal. A conflict is an answer and no failure of the
program; the caller may look again, wait, or mend its input.

Each reason has a status, and a severity that says which status a batch with several conflicts has.
-/

namespace SharedScene

/-- Why a command is refused. -/
inductive ConflictReason where
  /-- A target or a parent does not resolve. -/
  | notFound
  /-- Another owner has a lease. -/
  | locked
  /-- The caller has seen another revision. -/
  | revisionMismatch
  /-- The command is malformed or one of its values is refused. -/
  | validationFailed
deriving DecidableEq, Repr

namespace ConflictReason

def name : ConflictReason → String
  | .notFound => "not_found"
  | .locked => "locked"
  | .revisionMismatch => "revision_mismatch"
  | .validationFailed => "validation_failed"

def ofName? (name : String) : Option ConflictReason :=
  [ConflictReason.notFound, .locked, .revisionMismatch, .validationFailed].find? (·.name == name)

/-- The status of an answer with this reason. -/
def status : ConflictReason → Nat
  | .notFound => 404
  | .locked => 423
  | .revisionMismatch => 409
  | .validationFailed => 400

/-- The rank among the reasons of one batch. -/
def severity : ConflictReason → Nat
  | .locked => 4
  | .revisionMismatch => 3
  | .validationFailed => 2
  | .notFound => 1

/-- The more severe of two reasons. -/
def worse (a b : ConflictReason) : ConflictReason := if b.severity < a.severity then a else b

end ConflictReason

/-- The status of a command that was carried out. -/
def statusOk : Nat := 200

/-- The state that explains a refusal. -/
inductive Evidence where
  | revision (revision : Nat)
  | message (text : String) (revision : Nat)
  | lease (conflict : LeaseConflict) (revision : Nat)
deriving DecidableEq, Repr

/-- A refused command. -/
structure Conflict where
  reason : ConflictReason
  /-- What identifies the command. -/
  expected : Json
  actual : Evidence

namespace Conflict

/-- A command that is malformed, or a value of it that is refused. -/
def validation (expected : Json) (text : String) (revision : Nat) : Conflict :=
  ⟨.validationFailed, expected, .message text revision⟩

/-- A target or a parent that does not resolve. -/
def notFound (expected : Json) (text : String) (revision : Nat) : Conflict :=
  ⟨.notFound, expected, .message text revision⟩

/-- A request that was made for another revision. -/
def stale (base revision : Nat) : Conflict :=
  ⟨.revisionMismatch, .obj [("baseRevision", .ofNat base)], .revision revision⟩

/-- A path that another owner has leased. -/
def locked (expected : Json) (conflict : LeaseConflict) (revision : Nat) : Conflict :=
  ⟨.locked, expected, .lease conflict revision⟩

/-- A change that the scene refuses. -/
def ofSceneError (expected : Json) (e : SceneError) (revision : Nat) : Conflict :=
  if e.isNotFound then notFound expected e.message revision
  else validation expected e.message revision

def status (c : Conflict) : Nat := c.reason.status

end Conflict

def Evidence.toJson : Evidence → Json
  | .revision current => .obj [("revision", .ofNat current)]
  | .message text current => .obj [("message", .str text), ("revision", .ofNat current)]
  | .lease c current =>
    .obj [("owner", c.owner.toJson), ("path", Path.toJson c.path),
      ("requestedPath", Path.toJson c.requestedPath), ("expiresAt", Instant.toJson c.expiresAt),
      ("revision", .ofNat current)]

def Conflict.toJson (c : Conflict) : Json :=
  .obj [("reason", .str c.reason.name), ("expected", c.expected), ("actual", c.actual.toJson)]

end SharedScene
