import SharedScene.Scene.Instance

/-!
# The arena

A scene is kept in four tables: the **nodes**, which are the records of all instances by their ids,
each with the ids of its children in order; the **roots**, the ids of the top-level instances; and
an index in both directions, from **paths** to ids and from **ids** to paths. The tables say some
things twice. That a node is where the index says, that it names the parent that lists it, and that
the roots lead to it at all is up to the operations, which write the tables one after the other.

Walks through an arena use a stack instead of recursion. A walk that goes round in circles would not
end; here it is cut off after as many visits as there are nodes.

`Arena.check` compares what the tables say, and names the first thing in which they differ.
-/

namespace SharedScene

deriving instance BEq for Instance

/-- The tables of a scene. -/
structure Arena where
  nodes : SortedMap InstanceId Instance
  roots : List InstanceId
  paths : SortedMap Path InstanceId
  ids : SortedMap InstanceId Path
deriving BEq

/-- Visits what is on a stack, from the top. What a visit leads to goes on top of the rest. After
`budget` visits the walk is cut off. -/
def unstack {σ α : Type} (visit : σ → α → σ × List α) : Nat → σ → List α → σ
  | 0, s, _ => s
  | _ + 1, s, [] => s
  | budget + 1, s, top :: stack =>
    let (s, next) := visit s top
    unstack visit budget s (next ++ stack)

namespace Arena

def empty : Arena := ⟨.empty, [], .empty, .empty⟩

/-- The number of instances. -/
def size (a : Arena) : Nat := a.nodes.size

/-! ## Looking up -/

/-- The ids that a parent lists; the parent of top-level instances is the root. -/
def children (a : Arena) : Option InstanceId → List InstanceId
  | none => a.roots
  | some id => match a.nodes.get? id with
    | some node => node.children
    | none => []

/-- The names of the children of a parent, without that of `except`. -/
def siblingNames (a : Arena) (parent except : Option InstanceId) : List String :=
  ((a.children parent).filter fun id => decide (some id ≠ except)).filterMap fun id =>
    (a.nodes.get? id).map (·.name)

/-- What stands at a path as a parent: the root, or an instance. -/
def parentAt? (a : Arena) (p : Path) : Option (Option InstanceId) :=
  if p.isEmpty then some none else (a.paths.get? p).map some

/-- The path of a parent. -/
def parentPath? (a : Arena) : Option InstanceId → Option Path
  | none => some Path.root
  | some id => a.ids.get? id

/-! ## Writing the tables -/

/-- The arena with one node changed, if it is there. -/
def modify (change : Instance → Instance) (a : Arena) (id : InstanceId) : Arena :=
  match a.nodes.get? id with
  | some node => { a with nodes := a.nodes.insert id (change node) }
  | none => a

/-- The arena with the list of one parent changed. -/
def withChildren (change : List InstanceId → List InstanceId) (a : Arena) :
    Option InstanceId → Arena
  | none => { a with roots := change a.roots }
  | some id => a.modify (fun node => { node with children := change node.children }) id

/-- Lists an id as the last child of a parent. -/
def attach (a : Arena) (id : InstanceId) (parent : Option InstanceId) : Arena :=
  a.withChildren (· ++ [id]) parent

/-- Strikes an id from the list of a parent. -/
def detach (a : Arena) (id : InstanceId) (parent : Option InstanceId) : Arena :=
  a.withChildren (·.filter fun child => decide (child ≠ id)) parent

/-- Writes down where an instance stands. -/
def enlist (a : Arena) (id : InstanceId) (path : Path) : Arena :=
  { a with paths := a.paths.insert path id, ids := a.ids.insert id path }

/-- Strikes out the path at which an instance stands. -/
def unlist (a : Arena) (id : InstanceId) : Arena :=
  match a.ids.get? id with
  | some path => { a with paths := a.paths.erase path }
  | none => a

/-- Strikes an instance from the index and from the nodes. -/
def forget (a : Arena) (id : InstanceId) : Arena :=
  let a := a.unlist id
  { a with ids := a.ids.erase id, nodes := a.nodes.erase id }

/-! ## Walks -/

/-- The ids at and below one, each before those below it, as far as the budget goes. -/
def subtreeWithin (a : Arena) (budget : Nat) (id : InstanceId) : List InstanceId :=
  unstack (fun visited id => (visited ++ [id], a.children (some id))) budget [] [id]

def subtreeIds (a : Arena) (id : InstanceId) : List InstanceId := a.subtreeWithin a.size id

/-- The children of a parent at `above`, with the paths that their names spell. -/
def named (a : Arena) (above : Path) (parent : Option InstanceId) : List (Path × InstanceId) :=
  (a.children parent).filterMap fun id =>
    (a.nodes.get? id).map fun node => (above.child node.name, id)

/-- The ids below the root with the paths that their names spell, each before those below it, as
far as the budget goes. The index is not asked. -/
def traverseWithin (a : Arena) (budget : Nat) : List (Path × InstanceId) :=
  unstack (fun visited e => (visited ++ [e], a.named e.1 (some e.2))) budget []
    (a.named Path.root none)

def traverse (a : Arena) : List (Path × InstanceId) := a.traverseWithin a.size

/-- Every instance with its path, each before those below it. -/
def indexed (a : Arena) : List IndexedInstance :=
  a.traverse.filterMap fun e => (a.nodes.get? e.2).map fun node => ⟨e.1, node⟩

/-! ## Edits -/

/-- Puts in a node without children under the parent that it names, which stands at `parentPath`;
gives the path of the new node. -/
def insert (a : Arena) (parentPath : Path) (node : Instance) : Path × Arena :=
  let path := parentPath.child node.name
  let a := { a with nodes := a.nodes.insert node.id node }
  (path, (a.attach node.id node.parent).enlist node.id path)

/-- Takes out an instance and all below it; gives the record that it had. -/
def removeSubtree? (a : Arena) (id : InstanceId) : Option (Instance × Arena) := do
  let removed ← a.nodes.get? id
  let a := a.detach id removed.parent
  return (removed, (a.subtreeIds id).foldl forget a)

/-- Writes the index anew for an instance that now stands at `newPath`, and for all below it. All
old paths are struck out before the new ones are written down. -/
def reindexSubtree (a : Arena) (id : InstanceId) (newPath : Path) : Arena :=
  match a.ids.get? id with
  | none => a
  | some oldPath =>
    let moves := (a.subtreeIds id).filterMap fun member => do
      let path ← a.ids.get? member
      return (member, ← path.rebase? oldPath newPath)
    let a := moves.foldl (fun a move => a.unlist move.1) a
    moves.foldl (fun a move => a.enlist move.1 move.2) a

/-- Puts an instance under a parent as `name`; gives its new path. Under another parent than before
it becomes the last child. -/
def relocate? (a : Arena) (id : InstanceId) (parent : Option InstanceId) (name : String) :
    Option (Path × Arena) := do
  let parentPath ← a.parentPath? parent
  let old := (← a.nodes.get? id).parent
  let a := if old = parent then a else (a.detach id old).attach id parent
  let a := a.modify (fun node => { node with parent, name }) id
  let path := parentPath.child name
  return (path, a.reindexSubtree id path)

/-! ## Comparing the tables -/

/-- What is wrong with an arena. -/
inductive Fault where
  | unreachable (reachable stored : Nat)
  | sizes (ids paths nodes : Nat)
  | index (path : Path) (id : InstanceId)
  | dangling (child : InstanceId)
  | staleParent (child : InstanceId)
  | duplicateName (name : String)
deriving DecidableEq, Repr

def Fault.message : Fault → String
  | .unreachable reachable stored => s!"{reachable} nodes reachable but {stored} stored"
  | .sizes ids paths nodes =>
    s!"index sizes diverged: {ids} ids, {paths} paths, {nodes} nodes"
  | .index path id => s!"index disagrees with traversal at {path.display} ({id.text})"
  | .dangling child => s!"dangling child id {child.text}"
  | .staleParent child => s!"parent pointer of {child.text} is stale"
  | .duplicateName name => s!"duplicate sibling name '{name}'"

/-- Whether the index has an instance at its path in both directions. -/
def checkEntry (a : Arena) (e : Path × InstanceId) : Except Fault Unit :=
  if a.ids.get? e.2 = some e.1 ∧ a.paths.get? e.1 = some e.2 then .ok ()
  else .error (.index e.1 e.2)

/-- Whether listed children are there, name their parent, and have other names than those seen
before. -/
def checkChildren (a : Arena) (parent : Option InstanceId) :
    List String → List InstanceId → Except Fault Unit
  | _, [] => .ok ()
  | seen, child :: rest =>
    match a.nodes.get? child with
    | none => .error (.dangling child)
    | some node =>
      if node.parent ≠ parent then .error (.staleParent child)
      else if node.name ∈ seen then .error (.duplicateName node.name)
      else checkChildren a parent (node.name :: seen) rest

/-- Compares the tables, and a walk through the arena with all of them. -/
def check (a : Arena) : Except Fault Unit := do
  let traversal := a.traverse
  if traversal.length ≠ a.size then throw (.unreachable traversal.length a.size)
  if a.ids.size ≠ a.size ∨ a.paths.size ≠ a.size then
    throw (.sizes a.ids.size a.paths.size a.size)
  traversal.forM a.checkEntry
  (none :: a.nodes.keys.map some).forM fun parent => a.checkChildren parent [] (a.children parent)

end Arena

end SharedScene
