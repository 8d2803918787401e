import SharedScene.Path
import SharedScene.Value.Basic
import SharedScene.Identifier

/-!
# The forest of instances

A scene is an ordered forest. Each node holds an **item** (identity, class, name and properties)
and the forest of its children; the forest of the top-level instances hangs from the root. What
parent an instance has, which children, and at which path it stands follows from where its node is,
so a forest cannot contain a cycle, an unreachable instance, or a path that disagrees with the
names above it.

A path is followed from the top: at each level to the first node of that name. The operations that
take a path leave the forest as it is when no node stands there.
-/

namespace SharedScene

/-- What a node of the scene says about itself. -/
structure Item where
  id : InstanceId
  className : String
  name : String
  properties : Properties

def Item.renamed (name : String) (item : Item) : Item := { item with name }

/-- An ordered forest of items: a first node with its children, and the nodes after it. -/
inductive Forest where
  | nil
  | cons (item : Item) (children rest : Forest)
deriving Inhabited

namespace Forest

def single (item : Item) (children : Forest) : Forest := .cons item children .nil

/-- The nodes of one forest, then those of another. -/
def append : Forest → Forest → Forest
  | .nil, g => g
  | .cons item children rest, g => .cons item children (rest.append g)

/-- The number of nodes at every level. -/
def size : Forest → Nat
  | .nil => 0
  | .cons _ children rest => children.size + 1 + rest.size

/-- The items of the topmost level, in order. -/
def items : Forest → List Item
  | .nil => []
  | .cons item _ rest => item :: rest.items

/-- The names of the topmost level, in order. -/
def names (f : Forest) : List String := f.items.map (·.name)

/-- The ids of the topmost level, in order. -/
def topIds (f : Forest) : List InstanceId := f.items.map (·.id)

/-- Every item, each before those below it. -/
def preorder : Forest → List Item
  | .nil => []
  | .cons item children rest => item :: (children.preorder ++ rest.preorder)

/-- Every id, each before those below it. -/
def ids (f : Forest) : List InstanceId := f.preorder.map (·.id)

/-! ## Following a path -/

/-- The node at a path: its item and its children. -/
def find? : Forest → Path → Option (Item × Forest)
  | .nil, _ => none
  | .cons _ _ _, [] => none
  | .cons item children rest, n :: p =>
    if item.name = n then
      match p with
      | [] => some (item, children)
      | _ :: _ => children.find? p
    else rest.find? (n :: p)

/-- The children at a path; those of the root are the topmost level. -/
def childrenAt? (f : Forest) (p : Path) : Option Forest :=
  match p with
  | [] => some f
  | _ :: _ => (f.find? p).map (·.2)

def idAt? (f : Forest) (p : Path) : Option InstanceId := (f.find? p).map (·.1.id)

/-- The forest with the item at a path changed. -/
def modify (change : Item → Item) : Forest → Path → Forest
  | .nil, _ => .nil
  | .cons item children rest, [] => .cons item children rest
  | .cons item children rest, n :: p =>
    if item.name = n then
      match p with
      | [] => .cons (change item) children rest
      | _ :: _ => .cons item (modify change children p) rest
    else .cons item children (modify change rest (n :: p))

/-- The forest without the node at a path and all below it. -/
def remove : Forest → Path → Forest
  | .nil, _ => .nil
  | .cons item children rest, [] => .cons item children rest
  | .cons item children rest, n :: p =>
    if item.name = n then
      match p with
      | [] => rest
      | _ :: _ => .cons item (children.remove p) rest
    else .cons item children (rest.remove (n :: p))

/-- The forest with new nodes after the children at a path. -/
def graft (new : Forest) : Forest → Path → Forest
  | f, [] => f.append new
  | .nil, _ :: _ => .nil
  | .cons item children rest, n :: p =>
    if item.name = n then .cons item (graft new children p) rest
    else .cons item children (graft new rest (n :: p))

/-- The forest with the node at `p` put under the parent at `q` as `name`. Under the same parent it
keeps its place, under another one it becomes the last child. -/
def relocate (f : Forest) (p q : Path) (name : String) : Forest :=
  if Path.parent p = q then modify (Item.renamed name) f p
  else match f.find? p with
    | none => f
    | some (item, children) => graft (single (item.renamed name) children) (f.remove p) q

/-! ## Looking for an id -/

def pathOf? (id : InstanceId) : Forest → Option Path
  | .nil => none
  | .cons item children rest =>
    if item.id = id then some [item.name]
    else match pathOf? id children with
      | some p => some (item.name :: p)
      | none => pathOf? id rest

/-- An item together with the id of its parent; a top-level item has none. -/
structure Placed where
  parent : Option InstanceId
  item : Item

/-- Every item with its parent, each before those below it; `parent` is the parent of the topmost
level. -/
def placements (parent : Option InstanceId) : Forest → List Placed
  | .nil => []
  | .cons item children rest =>
    ⟨parent, item⟩ :: (placements (some item.id) children ++ placements parent rest)

/-- The item of an id, with its parent. -/
def placed? (f : Forest) (id : InstanceId) : Option Placed :=
  (f.placements none).find? fun p => decide (p.item.id = id)

/-- The path of a parent; the root is the parent of top-level instances. -/
def parentPath? (f : Forest) : Option InstanceId → Option Path
  | none => some Path.root
  | some id => pathOf? id f

end Forest

end SharedScene
