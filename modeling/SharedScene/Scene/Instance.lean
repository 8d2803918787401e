import SharedScene.Scene.Forest
import SharedScene.Name

/-!
# Instances as others see them

The record of an instance names its parent and its children by id; the **indexed view** of a forest
lists every instance with its path, each before those below it. Both are derived from the forest.
Three property keys address the record itself (`Name`, `ClassName` and `Parent`) and never stand
among the properties.
-/

namespace SharedScene

/-- The record of one instance. -/
structure Instance where
  id : InstanceId
  className : String
  name : String
  parent : Option InstanceId
  properties : Properties
  children : List InstanceId

/-- An instance that somebody wants to create; without an id it gets a fresh one. -/
structure NewInstance where
  id : Option InstanceId
  className : String
  name : String
  properties : Properties

/-- An instance as the engine reports it. -/
structure Report where
  id : InstanceId
  className : String
  name : String
  parentId : Option InstanceId
  properties : Properties

/-- An instance with its path. -/
structure IndexedInstance where
  path : Path
  record : Instance

def nameKey : String := "Name"

def classNameKey : String := "ClassName"

def parentKey : String := "Parent"

/-- The keys that address the record of an instance and not its properties. -/
def isReservedKey (key : String) : Bool :=
  key == nameKey || key == classNameKey || key == parentKey

/-- The properties without the keys that address the record. -/
def SortedMap.withoutReserved (ps : Properties) : Properties :=
  ps.filter fun key _ => !isReservedKey key

/-- The record of an item at its place. -/
def Item.toInstance (item : Item) (parent : Option InstanceId) (children : List InstanceId) :
    Instance :=
  { id := item.id, className := item.className, name := item.name, parent,
    properties := item.properties, children }

namespace Forest

/-- Every instance of a forest with its path, each before those below it; the topmost level stands
at `above` and has the parent `parent`. -/
def index (parent : Option InstanceId) (above : Path) : Forest → List IndexedInstance
  | .nil => []
  | .cons item children rest =>
    ⟨above.child item.name, item.toInstance parent children.topIds⟩ ::
      (index (some item.id) (above.child item.name) children ++ index parent above rest)

/-- The indexed view of a whole forest. -/
def indexed (f : Forest) : List IndexedInstance := f.index none Path.root

/-- The record of the instance at a path. -/
def instanceAt? (f : Forest) (p : Path) : Option Instance := do
  let (item, children) ← f.find? p
  return item.toInstance (f.idAt? (Path.parent p)) children.topIds

def instance? (f : Forest) (id : InstanceId) : Option Instance := do
  f.instanceAt? (← f.pathOf? id)

end Forest

end SharedScene
