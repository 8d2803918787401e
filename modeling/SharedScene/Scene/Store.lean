import SharedScene.Scene.Change
import SharedScene.Scene.Error

/-!
# The store

The one authority on the scene: the forest, its **revision**, the events that nobody has taken yet
and the changes that wait for the bridge. Every applied message raises the revision by one, adds
one event and, unless it comes from the bridge, queues one pending change. A refused or dropped
message leaves the store as it is.

A create under a parent that does not exist is dropped and not refused: collaborators race against
deletes and must not leave orphans behind. Every other target that does not resolve is an error.

A **snapshot** holds the forest, the revision, the waiting changes and how many events there were.
Restoring it puts all of them back, and drops the events that came later; the supply of fresh ids
alone goes on.
-/

namespace SharedScene

/-- The state of a scene. -/
structure Store where
  forest : Forest
  revision : Nat
  pending : PendingQueue
  outbox : List Event
  ids : IdSupply

namespace Store

def empty (ids : IdSupply) : Store := ⟨.nil, 0, .empty, [], ids⟩

def size (s : Store) : Nat := s.forest.size

def isLive (s : Store) (id : InstanceId) : Bool := (s.forest.pathOf? id).isSome

/-- Whether a path is the root or leads to an instance. -/
def pathExists (s : Store) (p : Path) : Bool := (s.forest.childrenAt? p).isSome

/-- The store after its events were taken. -/
def takeEvents (s : Store) : Store := { s with outbox := [] }

/-- The store after the waiting changes were handed to the bridge. -/
def takePending (s : Store) : Store := { s with pending := s.pending.drained }

/-! ## Snapshots -/

/-- A copy of the scene to go back to. -/
structure Snapshot where
  forest : Forest
  revision : Nat
  pending : PendingQueue
  outboxLength : Nat

def snapshot (s : Store) : Snapshot := ⟨s.forest, s.revision, s.pending, s.outbox.length⟩

/-- The store as it was when the snapshot was taken. -/
def restore (s : Store) (t : Snapshot) : Store :=
  { s with forest := t.forest, revision := t.revision, pending := t.pending,
           outbox := s.outbox.take t.outboxLength }

/-! ## Applying a message -/

/-- The store after one change: the new forest, what happened, and what the bridge is told. -/
def commit (s : Store) (origin : Origin) (forest : Forest) (event : Event) (message : Message) :
    Store :=
  { s with
    forest
    revision := s.revision + 1
    outbox := s.outbox ++ [event]
    pending := if origin.needsDelivery then s.pending.push event.id message else s.pending }

/-- A name as a cause of refusal. -/
def checkName (name : String) : Except SceneError Unit :=
  (Name.check name).mapError .invalidName

/-- Whether a value may be written under a key at all. -/
def checkWritable (key : String) (value : Value) : Except SceneError Unit :=
  value.checkWritable.mapError fun reason => .invalidValue key (.notWritable reason)

/-- Whether a property may be given to a new instance. -/
def checkProperty (key : String) (value : Value) : Except SceneError Unit :=
  if isReservedKey key then .error (.readOnlyProperty key) else checkWritable key value

/-- The node at a path. -/
def lookup (s : Store) (path : Path) : Except SceneError (Item × Forest) :=
  match s.forest.find? path with
  | some node => .ok node
  | none => .error (.pathNotFound path)

/-- The names of the children at a path, without the one of `id`. -/
def siblingNames (f : Forest) (parentPath : Path) (id : InstanceId) : List String :=
  match f.childrenAt? parentPath with
  | some children => (children.items.filter fun item => decide (item.id ≠ id)).map (·.name)
  | none => []

/-- Creates an instance as the last child of the instance at `parentPath`. -/
def create (s : Store) (parentPath : Path) (new : NewInstance) (origin : Origin) :
    Except SceneError (Outcome × Store) :=
  match s.forest.childrenAt? parentPath with
  | none => .ok (.dropped parentPath, s)
  | some siblings => do
    checkName new.name
    new.properties.entries.forM fun e => checkProperty e.1 e.2
    let id := new.id.getD s.ids.next
    if s.isLive id then throw (.duplicateId id)
    let name := Name.resolve new.name siblings.names
    let item : Item := ⟨id, new.className, name, new.properties⟩
    let path := parentPath.child name
    let event : Event := .create id path (item.toInstance (s.forest.idAt? parentPath) [])
    let forest := Forest.graft (.single item .nil) s.forest parentPath
    let s := if new.id.isSome then s else { s with ids := s.ids.advance }
    let s := s.commit origin forest event
      (.create parentPath { new with id := some id, name })
    return (.applied ⟨.create, id, path, name, s.revision⟩, s)

/-- Renames an instance; the other children of its parent decide which name it gets. -/
def rename (s : Store) (path : Path) (item : Item) (desired : String) (origin : Origin) :
    Except SceneError (Outcome × Store) := do
  checkName desired
  let name := Name.resolve desired (siblingNames s.forest path.parent item.id)
  let s := s.commit origin (s.forest.relocate path path.parent name)
    (.rename item.id path name) (.update path nameKey (.string name))
  return (.applied ⟨.update, item.id, path.parent.child name, name, s.revision⟩, s)

/-- Sets a property; a value that is there keeps its shape. Setting the name renames. -/
def update (s : Store) (path : Path) (key : String) (value : Value) (origin : Origin) :
    Except SceneError (Outcome × Store) := do
  let (item, _) ← s.lookup path
  if key = nameKey then
    match value.text? with
    | none => throw (.invalidValue key .nameNotText)
    | some desired => s.rename path item desired origin
  else if isReservedKey key then throw (.readOnlyProperty key)
  else
    checkWritable key value
    match item.properties.get? key with
    | some old =>
      if old.sameShape value then pure () else throw (.invalidValue key (.shapeDiffers old.kind))
    | none => pure ()
    let set := fun item : Item => { item with properties := item.properties.insert key value }
    let s := s.commit origin (Forest.modify set s.forest path)
      (.update item.id path key (some value)) (.update path key value)
    return (.applied ⟨.update, item.id, path, item.name, s.revision⟩, s)

/-- Deletes an instance and all below it. -/
def delete (s : Store) (path : Path) (origin : Origin) : Except SceneError (Outcome × Store) := do
  let (item, _) ← s.lookup path
  let s := s.commit origin (s.forest.remove path) (.delete item.id path) (.delete path)
  return (.applied ⟨.delete, item.id, path, item.name, s.revision⟩, s)

/-- Moves an instance with all below it under another parent, or renames it under its own. -/
def reparent (s : Store) (path newParentPath : Path) (name : Option String) (origin : Origin) :
    Except SceneError (Outcome × Store) := do
  let (item, _) ← s.lookup path
  if path.isAtOrAbove newParentPath then throw (.cycle path newParentPath)
  if !s.pathExists newParentPath then throw (.pathNotFound newParentPath)
  let desired := name.getD item.name
  checkName desired
  let name := Name.resolve desired (siblingNames s.forest newParentPath item.id)
  let s := s.commit origin (s.forest.relocate path newParentPath name)
    (.reparent item.id path newParentPath name) (.reparent path newParentPath (some name))
  return (.applied ⟨.reparent, item.id, newParentPath.child name, name, s.revision⟩, s)

/-- Applies one message to completion, or refuses it. -/
def apply (s : Store) (message : Message) (origin : Origin) :
    Except SceneError (Outcome × Store) :=
  match message with
  | .create parentPath new => s.create parentPath new origin
  | .update path key value => s.update path key value origin
  | .delete path => s.delete path origin
  | .reparent path newParentPath name => s.reparent path newParentPath name origin

end Store

end SharedScene
