import SharedScene.Scene.Arena.Store
import SharedScene.Scene.Resync

/-!
# Full resync on an arena

The target is built in an arena of its own, with a stack of reports whose parents have been built.
The plan writes on a copy of the tables of before, event by event, and reads every path from the
copy's index; in the end the copy takes the place of the tables.
-/

namespace SharedScene

namespace Arena

/-! ## The target -/

/-- The reports that name a parent, in their order. A report whose parent nobody reports is an
orphan and is left out. -/
def childReports (reports : List Report) (parent : Option InstanceId) : List Report :=
  (reports.filter fun r => r.parentId.all fun id => reports.any fun q => decide (q.id = id)).filter
    fun r => decide (r.parentId = parent)

/-- The reports that name a parent, each with the path at which that stands. -/
def awaiting (reports : List Report) (parent : Option InstanceId) (path : Path) :
    List (Report × Path) :=
  (childReports reports parent).map fun r => (r, path)

/-- Builds what a report describes, beside the siblings that are there. -/
def build (reports : List Report) (a : Arena) (e : Report × Path) :
    Arena × List (Report × Path) :=
  let r := e.1
  let name := Name.resolve r.desiredName (a.siblingNames r.parentId none)
  let (path, a) := a.insert e.2
    ⟨r.id, r.className, name, r.parentId, SortedMap.withoutReserved r.properties, []⟩
  (a, awaiting reports (some r.id) path)

/-- The arena that reports describe. Of two reports with one id the first counts. -/
def ofReports (reports : List Report) : Arena :=
  let unique := Report.firsts [] reports
  unstack (build unique) unique.length .empty (awaiting unique none Path.root)

/-! ## The plan -/

/-- An id survives that both arenas have with the same class, when its parent does. -/
def survive (old new : Arena) (surviving : List InstanceId) (id : InstanceId) : List InstanceId :=
  match old.nodes.get? id, new.nodes.get? id with
  | some before, some after =>
    if before.className = after.className ∧ after.parent.all (surviving.contains ·) then
      surviving ++ [id]
    else surviving
  | _, _ => surviving

/-- The ids that survive, found from the top. -/
def survivors (old new : Arena) : List InstanceId :=
  (new.traverse.map Prod.snd).foldl (survive old new) []

end Arena

/-- A copy of the tables in the course of a plan, and the events so far. -/
structure ArenaPlan where
  scratch : Arena
  events : List Event

namespace ArenaPlan

/-- Renames another child of the parent that holds the name, if there is one, to a free name. -/
def park (p : ArenaPlan) (parent : Option InstanceId) (name : String) (keep : InstanceId) :
    ArenaPlan :=
  let holder := (p.scratch.children parent).find? fun id =>
    decide (id ≠ keep) && (p.scratch.nodes.get? id).any (·.name == name)
  match holder with
  | none => p
  | some holder =>
    let free := Name.resolve name (p.scratch.siblingNames parent none)
    match p.scratch.ids.get? holder, p.scratch.relocate? holder parent free with
    | some path, some (_, scratch) => ⟨scratch, p.events ++ [.rename holder path free]⟩
    | _, _ => p

/-- Brings a survivor to the parent and the name that the target wants. -/
def place (target : Arena) (p : ArenaPlan) (id : InstanceId) : ArenaPlan :=
  match p.scratch.nodes.get? id, target.nodes.get? id with
  | some current, some wanted =>
    if current.parent = wanted.parent ∧ current.name = wanted.name then p
    else
      let p := p.park wanted.parent wanted.name id
      match p.scratch.ids.get? id, p.scratch.relocate? id wanted.parent wanted.name with
      | some path, some (newPath, scratch) =>
        ⟨scratch, p.events ++ [if current.parent = wanted.parent then .rename id path wanted.name
          else .reparent id path newPath.parent wanted.name]⟩
      | _, _ => p
  | _, _ => p

/-- Deletes an instance that does not survive, unless its parent does not either. -/
def deleteOne (surviving : List InstanceId) (p : ArenaPlan) (e : Path × InstanceId) : ArenaPlan :=
  match p.scratch.nodes.get? e.2 with
  | none => p
  | some node =>
    if surviving.contains e.2 || node.parent.any fun x => !surviving.contains x then p
    else
      ⟨((p.scratch.removeSubtree? e.2).map Prod.snd).getD p.scratch,
        p.events ++ [.delete e.2 e.1]⟩

/-- Deletes the topmost instances that do not survive. -/
def deleteDoomed (surviving : List InstanceId) (p : ArenaPlan) : ArenaPlan :=
  p.scratch.traverse.foldl (deleteOne surviving) p

/-- Creates an instance of the target, without children. -/
def create (target : Arena) (p : ArenaPlan) (id : InstanceId) : ArenaPlan :=
  match target.nodes.get? id with
  | none => p
  | some wanted =>
    match p.scratch.parentPath? wanted.parent with
    | none => p
    | some parentPath =>
      let node := { wanted with children := [] }
      let (path, scratch) := p.scratch.insert parentPath node
      ⟨scratch, p.events ++ [.create id path node]⟩

/-- Gives a survivor the properties that the target wants. -/
def updateProperties (target : Arena) (p : ArenaPlan) (id : InstanceId) : ArenaPlan :=
  match p.scratch.nodes.get? id, target.nodes.get? id, p.scratch.ids.get? id with
  | some current, some wanted, some path =>
    match Resync.Plan.differences current.properties wanted.properties with
    | [] => p
    | changes =>
      { scratch :=
          p.scratch.modify (fun node => { node with properties := wanted.properties }) id
        events := p.events ++ changes.map fun c => .update id path c.1 c.2 }
  | _, _, _ => p

end ArenaPlan

/-- The plan that brings one arena to another. -/
def Arena.plan (old new : Arena) : ArenaPlan :=
  let surviving := survivors old new
  let order := new.traverse.map Prod.snd
  let kept := order.filter fun id => surviving.contains id
  let fresh := order.filter fun id => !surviving.contains id
  let p := kept.foldl (ArenaPlan.place new) ⟨old, []⟩
  let p := p.deleteDoomed surviving
  let p := fresh.foldl (ArenaPlan.create new) p
  kept.foldl (ArenaPlan.updateProperties new) p

/-- Brings the scene to what the reports describe. -/
def ArenaStore.replaceAll (s : ArenaStore) (reports : List Report) : ResyncSummary × ArenaStore :=
  let next := Arena.ofReports reports
  let dropped := reports.length - next.size
  let unchanged : ResyncSummary := ⟨false, s.revision, 0, 0, 0, 0, dropped⟩
  if next == s.arena then (unchanged, s)
  else
    let p := Arena.plan s.arena next
    if p.events.isEmpty then (unchanged, s)
    else
      ({ changed := true
         revision := s.revision + 1
         created := p.events.countP Resync.isCreate
         deleted := p.events.countP Resync.isDelete
         moved := p.events.countP Resync.isMove
         updated := p.events.countP Resync.isPropertyUpdate
         droppedRecords := dropped },
       { s with arena := p.scratch, revision := s.revision + 1, outbox := s.outbox ++ p.events })

end SharedScene
