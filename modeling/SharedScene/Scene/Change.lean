import SharedScene.Scene.Instance

/-!
# Changes: asked for, observed, and waiting for delivery

A **message** asks for a change at a path. An **event** says what happened: its path addresses the
target as it was right before, and its names are the ones that were given after collisions were
resolved. A **pending change** is a message with resolved names that waits for the engine bridge,
which looks less often than everyone else.

An update of a property that is not the name takes the place of a waiting update of the same
property of the same instance, so the bridge gets the last value only, at the first one's turn.
Renames and all structural changes wait each by themselves, since later paths depend on them.
-/

namespace SharedScene

/-- A change that somebody asks for. -/
inductive Message where
  | create (parentPath : Path) (new : NewInstance)
  | update (path : Path) (property : String) (value : Value)
  | delete (path : Path)
  /-- Without a name the instance keeps the one it has, as far as the new siblings allow. -/
  | reparent (path newParentPath : Path) (name : Option String)

/-- The kinds of change. -/
inductive ChangeKind where
  | create
  | update
  | delete
  | reparent
deriving DecidableEq, Repr

/-- The name of a kind of change. -/
def ChangeKind.name : ChangeKind → String
  | .create => "create"
  | .update => "update"
  | .delete => "delete"
  | .reparent => "reparent"

def Message.kind : Message → ChangeKind
  | .create _ _ => .create
  | .update _ _ _ => .update
  | .delete _ => .delete
  | .reparent _ _ _ => .reparent

/-- Who asks for a change. -/
inductive Origin where
  /-- The engine bridge, which knows its own changes already. -/
  | bridge
  /-- The projection onto files. -/
  | projection
  /-- Agents and editors. -/
  | agent
deriving DecidableEq, Repr

def Origin.name : Origin → String
  | .bridge => "bridge"
  | .projection => "projection"
  | .agent => "agent"

/-- Whether the bridge has to hear of a change from there. -/
def Origin.needsDelivery : Origin → Bool
  | .bridge => false
  | _ => true

/-- A change that happened. -/
inductive Event where
  | create (id : InstanceId) (path : Path) (record : Instance)
  /-- Without a value the property is gone. -/
  | update (id : InstanceId) (path : Path) (property : String) (value : Option Value)
  | delete (id : InstanceId) (path : Path)
  | reparent (id : InstanceId) (path newParentPath : Path) (name : String)

/-- The instance that an event is about. -/
def Event.id : Event → InstanceId
  | .create id _ _ => id
  | .update id _ _ _ => id
  | .delete id _ => id
  | .reparent id _ _ _ => id

def Event.rename (id : InstanceId) (path : Path) (name : String) : Event :=
  .update id path nameKey (some (.string name))

/-- A change that was applied: the path where the instance is now (of a delete, where it was) and
its name. -/
structure Applied where
  kind : ChangeKind
  id : InstanceId
  path : Path
  name : String
  revision : Nat
deriving DecidableEq, Repr

/-- What became of a message that was not refused. -/
inductive Outcome where
  | applied (change : Applied)
  /-- A create whose parent is gone by now. -/
  | dropped (parentPath : Path)

/-- Why a message was dropped, in words. -/
def droppedReason (parentPath : Path) : String := s!"parent {parentPath.display} does not exist"

/-! ## Changes that wait for the bridge -/

/-- A message that waits for the bridge. -/
structure PendingChange where
  sequence : Nat
  target : InstanceId
  message : Message

/-- The instance and the property that an update may share with a later one. -/
def PendingChange.sharedKey? (c : PendingChange) : Option (InstanceId × String) :=
  match c.message with
  | .update _ property _ => if property = nameKey then none else some (c.target, property)
  | _ => none

/-- The waiting update with another value. -/
def PendingChange.withValue (value : Value) (c : PendingChange) : PendingChange :=
  match c.message with
  | .update path property _ => { c with message := .update path property value }
  | _ => c

/-- The changes that wait for the bridge, oldest first, and how many were ever queued. -/
structure PendingQueue where
  entries : List PendingChange
  nextSequence : Nat

namespace PendingQueue

def empty : PendingQueue := ⟨[], 0⟩

/-- The value of the first entry with the given key replaced; `none` when there is no such entry. -/
def merge? (key : InstanceId × String) (value : Value) :
    List PendingChange → Option (List PendingChange)
  | [] => none
  | c :: rest =>
    if c.sharedKey? = some key then some (c.withValue value :: rest)
    else (merge? key value rest).map (c :: ·)

/-- The queue with one more message for `target`. -/
def push (q : PendingQueue) (target : InstanceId) (message : Message) : PendingQueue :=
  let change : PendingChange := ⟨q.nextSequence, target, message⟩
  let merged := match change.sharedKey?, message with
    | some key, .update _ _ value => merge? key value q.entries
    | _, _ => none
  { entries := merged.getD (q.entries ++ [change]), nextSequence := q.nextSequence + 1 }

/-- The queue after everything in it was handed over. -/
def drained (q : PendingQueue) : PendingQueue := { q with entries := [] }

end PendingQueue

end SharedScene
