import SharedScene.Instant
import SharedScene.Scene.Instance
import SharedScene.Value.Codec

/-!
# The snapshot view

The whole scene as a flat list, each instance with its path, its parent and its children. It is
made from the indexed view alone: the parent of an instance is the one that is listed at the path
above it, and a child counts only when it is listed too.
-/

namespace SharedScene

/-- An instance in the snapshot view. -/
structure SnapshotInstance where
  id : InstanceId
  className : String
  name : String
  path : Path
  parentId : Option InstanceId
  childIds : List InstanceId
  properties : Properties

/-- The scene at one revision. -/
structure SnapshotView where
  revision : Nat
  generatedAt : Instant
  instances : List SnapshotInstance

/-- The view of a list of instances; of two at one path the later one counts. -/
def SnapshotView.ofIndexed (indexed : List IndexedInstance) (revision : Nat)
    (generatedAt : Instant) : SnapshotView :=
  let byPath := SortedMap.ofList (indexed.map fun e => (e.path, e.record.id))
  let listed := byPath.values
  { revision, generatedAt
    instances := indexed.map fun e =>
      { id := e.record.id
        className := e.record.className
        name := e.record.name
        path := e.path
        parentId := (Path.parent? e.path).bind byPath.get?
        childIds := e.record.children.filter fun child => listed.contains child
        properties := e.record.properties } }

/-- An instance in the snapshot view as JSON. -/
def SnapshotInstance.toJson (i : SnapshotInstance) : Json :=
  .obj [("id", i.id.toJson), ("className", .str i.className), ("name", .str i.name),
    ("path", Path.toJson i.path), ("pathString", .str i.path.toDotted),
    ("parentId", .ofOption Identifier.toJson i.parentId),
    ("childIds", .ofList Identifier.toJson i.childIds),
    ("properties", Value.propertiesToJson i.properties)]

def SnapshotView.toJson (v : SnapshotView) : Json :=
  .obj [("revision", .ofNat v.revision), ("generatedAt", Instant.toJson v.generatedAt),
    ("instances", .ofList SnapshotInstance.toJson v.instances)]

end SharedScene
