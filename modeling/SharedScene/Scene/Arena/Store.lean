import SharedScene.InPlace
import SharedScene.Scene.Arena
import SharedScene.Scene.Store

/-!
# The store on an arena

The scene, its revision, the events that nobody has taken and the changes that wait for the bridge,
with the scene in tables. An operation writes them in place, one table after the other, and may be
refused on the way; what it has written until then stays.
-/

namespace SharedScene

/-- The state of a scene that is kept in tables. -/
structure ArenaStore where
  arena : Arena
  revision : Nat
  pending : PendingQueue
  outbox : List Event
  supply : IdSupply

namespace ArenaStore

open InPlace (check)

def empty (supply : IdSupply) : ArenaStore := ⟨.empty, 0, .empty, [], supply⟩

/-- The store after its events were taken. -/
def takeEvents (s : ArenaStore) : ArenaStore := { s with outbox := [] }

/-- The store after the waiting changes were handed to the bridge. -/
def takePending (s : ArenaStore) : ArenaStore := { s with pending := s.pending.drained }

/-! ## Snapshots -/

/-- A copy of the tables to go back to. -/
structure Snapshot where
  arena : Arena
  revision : Nat
  pending : PendingQueue
  outboxLength : Nat

def snapshot (s : ArenaStore) : Snapshot := ⟨s.arena, s.revision, s.pending, s.outbox.length⟩

/-- The store as it was when the snapshot was taken. -/
def restore (s : ArenaStore) (t : Snapshot) : ArenaStore :=
  { s with arena := t.arena, revision := t.revision, pending := t.pending,
           outbox := s.outbox.take t.outboxLength }

/-! ## Applying a message -/

/-- An operation that changes a store as it goes, and may be refused on the way. -/
abbrev Edit := EStateM SceneError ArenaStore

/-- Writes the tables. -/
def edit (change : Arena → Arena) : Edit Unit :=
  modify fun s => { s with arena := change s.arena }

/-- Ends a change: the revision rises, the event is told, and the message is queued when the bridge
has to hear of it. -/
def announce (origin : Origin) (event : Event) (message : Message) : Edit Nat := do
  modify fun s => { s with
    revision := s.revision + 1
    outbox := s.outbox ++ [event]
    pending := if origin.needsDelivery then s.pending.push event.id message else s.pending }
  return (← get).revision

/-- The id at a path. -/
def lookup (path : Path) : Edit InstanceId :=
  check fun s => match s.arena.paths.get? path with
    | some id => .ok id
    | none => .error (.pathNotFound path)

/-- The node of an id. -/
def node (id : InstanceId) : Edit Instance :=
  check fun s => match s.arena.nodes.get? id with
    | some node => .ok node
    | none => .error (.idNotFound id)

/-- What stands at a path as a parent. -/
def parentAt (path : Path) : Edit (Option InstanceId) :=
  check fun s => match s.arena.parentAt? path with
    | some parent => .ok parent
    | none => .error (.pathNotFound path)

/-- Puts in a node without children; gives its path. -/
def insert (parentPath : Path) (node : Instance) : Edit Path :=
  modifyGet fun s =>
    let (path, arena) := s.arena.insert parentPath node
    (path, { s with arena })

/-- Takes out an instance and all below it; gives the record that it had. -/
def removeSubtree (id : InstanceId) : Edit Instance := do
  match (← get).arena.removeSubtree? id with
  | some (removed, arena) =>
    edit fun _ => arena
    return removed
  | none => throw (.idNotFound id)

def create (parentPath : Path) (new : NewInstance) (origin : Origin) : Edit Outcome := do
  match (← get).arena.parentAt? parentPath with
  | none => return .dropped parentPath
  | some parent =>
    check fun _ => Store.checkName new.name
    check fun _ => new.properties.entries.forM fun e => Store.checkProperty e.1 e.2
    let id := new.id.getD (← get).supply.next
    if (← get).arena.nodes.contains id then throw (.duplicateId id)
    if new.id.isNone then modify fun s => { s with supply := s.supply.advance }
    let name := Name.resolve new.name ((← get).arena.siblingNames parent none)
    let node : Instance := ⟨id, new.className, name, parent, new.properties, []⟩
    let path ← insert parentPath node
    let revision ← announce origin (.create id path node)
      (.create parentPath { new with id := some id, name })
    return .applied ⟨.create, id, path, name, revision⟩

def rename (id : InstanceId) (path : Path) (desired : String) (origin : Origin) :
    Edit Outcome := do
  check fun _ => Store.checkName desired
  let parent := (← node id).parent
  let name := Name.resolve desired ((← get).arena.siblingNames parent (some id))
  let newPath := path.parent.child name
  edit fun a => a.modify (fun node => { node with name }) id
  edit fun a => a.reindexSubtree id newPath
  let revision ← announce origin (.rename id path name) (.update path nameKey (.string name))
  return .applied ⟨.update, id, newPath, name, revision⟩

def update (path : Path) (key : String) (value : Value) (origin : Origin) : Edit Outcome := do
  let id ← lookup path
  if key = nameKey then
    match value.text? with
    | none => throw (.invalidValue key .nameNotText)
    | some desired => rename id path desired origin
  else if isReservedKey key then throw (.readOnlyProperty key)
  else
    check fun _ => Store.checkWritable key value
    let target ← node id
    match target.properties.get? key with
    | some old =>
      if old.sameShape value then pure () else throw (.invalidValue key (.shapeDiffers old.kind))
    | none => pure ()
    edit fun a => a.modify
      (fun node => { node with properties := node.properties.insert key value }) id
    let revision ← announce origin (.update id path key (some value)) (.update path key value)
    return .applied ⟨.update, id, path, target.name, revision⟩

def delete (path : Path) (origin : Origin) : Edit Outcome := do
  let id ← lookup path
  let removed ← removeSubtree id
  let revision ← announce origin (.delete id path) (.delete path)
  return .applied ⟨.delete, id, path, removed.name, revision⟩

def reparent (path newParentPath : Path) (name : Option String) (origin : Origin) :
    Edit Outcome := do
  let id ← lookup path
  if path.isAtOrAbove newParentPath then throw (.cycle path newParentPath)
  let newParent ← parentAt newParentPath
  let target ← node id
  let desired := name.getD target.name
  check fun _ => Store.checkName desired
  let name := Name.resolve desired ((← get).arena.siblingNames newParent (some id))
  if target.parent ≠ newParent then
    edit fun a => a.detach id target.parent
    edit fun a => a.attach id newParent
  edit fun a => a.modify (fun node => { node with parent := newParent, name }) id
  let newPath := newParentPath.child name
  edit fun a => a.reindexSubtree id newPath
  let revision ← announce origin (.reparent id path newParentPath name)
    (.reparent path newParentPath (some name))
  return .applied ⟨.reparent, id, newPath, name, revision⟩

/-- Applies one message to completion, or refuses it. -/
def apply (message : Message) (origin : Origin) : Edit Outcome :=
  match message with
  | .create parentPath new => create parentPath new origin
  | .update path key value => update path key value origin
  | .delete path => delete path origin
  | .reparent path newParentPath name => reparent path newParentPath name origin

end ArenaStore

end SharedScene
