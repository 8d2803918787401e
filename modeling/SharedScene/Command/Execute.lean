import SharedScene.Command.Basic
import SharedScene.Command.Conflict

/-!
# What a command touches, and what it does

The **footprint** of a command is the list of paths that its owner has to lease: the target, and
for a change of structure the parents on both sides. The root is never leased. Carrying a command
out is one message to the scene, from an agent.
-/

namespace SharedScene

/-- What a command did. -/
structure CommandOutput where
  op : String
  change : Applied
deriving DecidableEq, Repr

def CommandOutput.toJson (o : CommandOutput) : Json :=
  .obj [("op", .str o.op), ("id", o.change.id.toJson), ("path", Path.toJson o.change.path),
    ("pathString", .str o.change.path.toDotted), ("name", .str o.change.name),
    ("revision", .ofNat o.change.revision)]

namespace Command

/-- The path of a command's target, or the conflict. -/
def resolveTarget (c : Command) (t : Target) (s : Store) : Except Conflict Path :=
  match t.resolve s.forest with
  | .ok path => .ok path
  | .error .missing => .error (.validation c.reference TargetError.missing.message s.revision)
  | .error e => .error (.notFound c.reference e.message s.revision)

/-- The paths that have to be leased, in order and each once. -/
def footprint (c : Command) (s : Store) : Except Conflict (List Path) := do
  let paths ← match c with
    | .create parentPath _ name _ => pure [parentPath, parentPath.child name]
    | .update target _ _ => do pure [← c.resolveTarget target s]
    | .rename target _ => do pure [← c.resolveTarget target s]
    | .delete target => do pure [← c.resolveTarget target s]
    | .reparent target newParentPath => do
      let path ← c.resolveTarget target s
      pure [path, path.parent, newParentPath]
  return SortedMap.sortedElements (paths.filter fun p => !p.isEmpty)

/-- The message that carries a command out. -/
def message (c : Command) (s : Store) : Except Conflict Message :=
  match c with
  | .create parentPath className name properties =>
    if s.pathExists parentPath then
      .ok (.create parentPath { id := none, className, name, properties })
    else
      .error (.notFound c.reference s!"parent path not found: {parentPath.display}" s.revision)
  | .update target property value => do
    return .update (← c.resolveTarget target s) property value
  | .rename target name => do
    return .update (← c.resolveTarget target s) nameKey (.string name)
  | .delete target => do return .delete (← c.resolveTarget target s)
  | .reparent target newParentPath => do
    return .reparent (← c.resolveTarget target s) newParentPath none

/-- Carries a command out. A refused one leaves the scene as it is. -/
def execute (c : Command) (s : Store) : Except Conflict (CommandOutput × Store) := do
  match s.apply (← c.message s) .agent with
  | .ok (.applied change, s) => return (⟨c.op, change⟩, s)
  | .ok (.dropped parentPath, _) =>
    throw (.notFound c.reference (droppedReason parentPath) s.revision)
  | .error e => throw (.ofSceneError c.reference e s.revision)

end Command

end SharedScene
