import SharedScene.Scene.Store

/-!
# Full resync

Now and then the engine reports every instance it knows. The reports describe a **target** forest;
the scene is brought to it by a stream of events that anybody who holds the scene of before can
follow: moves and renames, then deletes, then creates, then property updates.

## The target

Of two reports with one id the first counts. A report whose chain of parents does not end at a
report without one describes nothing. A name that breaks the rules gives way to the class name,
siblings get free names in the order of their reports, and keys that address the record are left
out of the properties.

## The plan

An instance **survives** when the target has it with the same class and every instance above it
there survives too; everything else is deleted and created anew. The plan works on a copy of the
scene, event by event, so each path is the one at which the target of the event stands when it
happens. Survivors are placed in the target's order, parents first. A sibling that holds the wanted
name is renamed out of the way; it is leaving, or will get its own name later. Deletes come after
all moves, so that no survivor is lost below an instance that goes.

Siblings keep the order in which the plan leaves them. A resync that only reorders siblings changes
nothing, and a resync never tells the bridge what the bridge has said.
-/

namespace SharedScene

namespace Report

/-- The first report of each id. -/
def firsts (seen : List InstanceId) : List Report → List Report
  | [] => []
  | r :: rest => if r.id ∈ seen then firsts seen rest else r :: firsts (r.id :: seen) rest

/-- The name that a report asks for. -/
def desiredName (r : Report) : String := if Name.isValid r.name then r.name else r.className

/-- The item of a report among siblings of the given names. -/
def toItem (r : Report) (siblings : List String) : Item :=
  { id := r.id
    className := r.className
    name := Name.resolve r.desiredName siblings
    properties := SortedMap.withoutReserved r.properties }

/-- The forest of the instances that hang from `parent`, `depth` levels deep. -/
def grow (reports : List Report) : Nat → Option InstanceId → Forest
  | 0, _ => .nil
  | depth + 1, parent =>
    (reports.filter fun r => decide (r.parentId = parent)).foldl
      (fun f r => f.append (.single (r.toItem f.names) (grow reports depth (some r.id)))) .nil

/-- The forest that reports describe. A chain of parents without a cycle is at most as long as the
list. -/
def toForest (reports : List Report) : Forest :=
  let unique := firsts [] reports
  grow unique unique.length none

end Report

/-- What a resync did. -/
structure ResyncSummary where
  changed : Bool
  revision : Nat
  created : Nat
  deleted : Nat
  moved : Nat
  updated : Nat
  /-- Reports that describe no instance of their own. -/
  droppedRecords : Nat
deriving DecidableEq, Repr

namespace Resync

/-- The ids that survive: in both forests with the same class, below such ids only. -/
def survivors (old : Forest) : Forest → List InstanceId
  | .nil => []
  | .cons item children rest =>
    (match old.placed? item.id with
      | some before =>
        if before.item.className = item.className then item.id :: survivors old children else []
      | none => []) ++ survivors old rest

/-- A copy of the scene in the course of a plan, and the events so far. -/
structure Plan where
  scene : Forest
  events : List Event

namespace Plan

/-- The plan with one more event, which makes the scene what it is given. -/
def step (p : Plan) (scene : Forest) (event : Event) : Plan := ⟨scene, p.events ++ [event]⟩

/-- Renames another child of the parent that holds the name, if there is one, to a free name. -/
def park (p : Plan) (parentPath : Path) (name : String) (keep : InstanceId) : Plan :=
  match p.scene.childrenAt? parentPath with
  | none => p
  | some siblings =>
    match siblings.items.find? (fun item => decide (item.id ≠ keep) && item.name == name) with
    | none => p
    | some holder =>
      let path := parentPath.child name
      let free := Name.resolve name siblings.names
      p.step (p.scene.relocate path parentPath free) (.rename holder.id path free)

/-- Brings a survivor to the parent and the name that the target wants. -/
def place (p : Plan) (wanted : Forest.Placed) : Plan :=
  let id := wanted.item.id
  let name := wanted.item.name
  match p.scene.placed? id, p.scene.parentPath? wanted.parent with
  | some current, some parentPath =>
    if current.parent = wanted.parent ∧ current.item.name = name then p
    else
      let p := p.park parentPath name id
      match p.scene.pathOf? id with
      | none => p
      | some path =>
        p.step (p.scene.relocate path parentPath name)
          (if current.parent = wanted.parent then .rename id path name
            else .reparent id path parentPath name)
  | _, _ => p

/-- The topmost instances that do not survive, with their paths. -/
def doomed (surviving : List InstanceId) (above : Path) : Forest → List (Path × InstanceId)
  | .nil => []
  | .cons item children rest =>
    (if item.id ∈ surviving then doomed surviving (above.child item.name) children
      else [(above.child item.name, item.id)]) ++ doomed surviving above rest

/-- Deletes the instances that do not survive. -/
def deleteDoomed (p : Plan) (surviving : List InstanceId) : Plan :=
  (doomed surviving Path.root p.scene).foldl
    (fun p d => p.step (p.scene.remove d.1) (.delete d.2 d.1)) p

/-- Creates an instance of the target, without children. -/
def create (p : Plan) (wanted : Forest.Placed) : Plan :=
  match p.scene.parentPath? wanted.parent with
  | none => p
  | some parentPath =>
    let item := wanted.item
    p.step (Forest.graft (.single item .nil) p.scene parentPath)
      (.create item.id (parentPath.child item.name) (item.toInstance wanted.parent []))

/-- The properties in which two maps differ, in key order, with the new value of each. -/
def differences (old new : Properties) : List (String × Option Value) :=
  let keys := (SortedMap.ofList (old.entries ++ new.entries)).keys
  (keys.filter fun key => old.get? key != new.get? key).map fun key => (key, new.get? key)

/-- Gives a survivor the properties that the target wants. -/
def updateProperties (p : Plan) (wanted : Forest.Placed) : Plan :=
  let id := wanted.item.id
  match p.scene.placed? id, p.scene.pathOf? id with
  | some current, some path =>
    match differences current.item.properties wanted.item.properties with
    | [] => p
    | changes =>
      { scene := Forest.modify (fun item => { item with properties := wanted.item.properties })
          p.scene path
        events := p.events ++ changes.map fun c => .update id path c.1 c.2 }
  | _, _ => p

end Plan

/-- The plan that brings one forest to another. -/
def plan (old new : Forest) : Plan :=
  let surviving := survivors old new
  let kept := (new.placements none).filter fun w => decide (w.item.id ∈ surviving)
  let fresh := (new.placements none).filter fun w => decide (w.item.id ∉ surviving)
  let p := kept.foldl Plan.place ⟨old, []⟩
  let p := p.deleteDoomed surviving
  let p := fresh.foldl Plan.create p
  kept.foldl Plan.updateProperties p

/-- Whether an event counts as a move: a change of parent or of name. -/
def isMove : Event → Bool
  | .reparent _ _ _ _ => true
  | .update _ _ key _ => key == nameKey
  | _ => false

/-- Whether an event counts as a change of a property. -/
def isPropertyUpdate : Event → Bool
  | .update _ _ key _ => key != nameKey
  | _ => false

def isCreate : Event → Bool
  | .create _ _ _ => true
  | _ => false

def isDelete : Event → Bool
  | .delete _ _ => true
  | _ => false

end Resync

/-- Brings the scene to what the reports describe. -/
def Store.replaceAll (s : Store) (reports : List Report) : ResyncSummary × Store :=
  let target := Report.toForest reports
  let dropped := reports.length - target.size
  let p := Resync.plan s.forest target
  if p.events.isEmpty then (⟨false, s.revision, 0, 0, 0, 0, dropped⟩, s)
  else
    ({ changed := true
       revision := s.revision + 1
       created := p.events.countP Resync.isCreate
       deleted := p.events.countP Resync.isDelete
       moved := p.events.countP Resync.isMove
       updated := p.events.countP Resync.isPropertyUpdate
       droppedRecords := dropped },
     { s with forest := p.scene, revision := s.revision + 1, outbox := s.outbox ++ p.events })

end SharedScene
