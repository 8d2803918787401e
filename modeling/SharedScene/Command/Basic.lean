import SharedScene.Scene.Store
import SharedScene.Value.Codec

/-!
# Commands

A command is one change as a caller words it. It names its **target** by id or by path, and the id
wins when both are there, because it survives renames and moves. A create names a parent and takes
no id: the scene gives a fresh one.

What is wrong with a command on its own (a bad name, a blank class, a value that cannot be
written) is found without looking at the scene, so that such a command never asks for a lease.
-/

namespace SharedScene

/-- An instance that a command addresses. -/
structure Target where
  id : Option InstanceId
  path : Option Path
deriving DecidableEq, Repr

/-- Why a target leads nowhere. -/
inductive TargetError where
  /-- The command names no target at all. -/
  | missing
  | unknownId (id : InstanceId)
  | root
  | unknownPath (path : Path)
deriving DecidableEq, Repr

def TargetError.message : TargetError → String
  | .missing => "command needs targetId or targetPath"
  | .unknownId id => s!"instance not found: {id.text}"
  | .root => "the root is not an instance"
  | .unknownPath path => s!"path not found: {path.display}"

/-- The path at which the target stands now. -/
def Target.resolve (t : Target) (f : Forest) : Except TargetError Path :=
  match t.id, t.path with
  | some id, _ =>
    match f.pathOf? id with
    | some path => .ok path
    | none => .error (.unknownId id)
  | none, some path =>
    if path.isEmpty then .error .root
    else if (f.find? path).isSome then .ok path
    else .error (.unknownPath path)
  | none, none => .error .missing

/-- One change as a caller words it. -/
inductive Command where
  | create (parentPath : Path) (className name : String) (properties : Properties)
  | update (target : Target) (property : String) (value : Value)
  | rename (target : Target) (name : String)
  | delete (target : Target)
  | reparent (target : Target) (newParentPath : Path)

namespace Command

/-- The name of the operation. -/
def op : Command → String
  | .create .. => "create"
  | .update .. => "update"
  | .rename .. => "rename"
  | .delete .. => "delete"
  | .reparent .. => "reparent"

/-- The target of a command; a create has none. -/
def target? : Command → Option Target
  | .create .. => none
  | .update target _ _ => some target
  | .rename target _ => some target
  | .delete target => some target
  | .reparent target _ => some target

/-- Finds what is wrong with a command on its own. -/
def checkShape : Command → Except SceneError Unit
  | .create _ className name properties => do
    if Text.isBlankText className then throw (.invalidValue classNameKey .emptyClassName)
    Store.checkName name
    properties.entries.forM fun e => Store.checkProperty e.1 e.2
  | .update _ property value =>
    if property = nameKey then
      match value.text? with
      | none => .error (.invalidValue property .nameNotText)
      | some name => Store.checkName name
    else Store.checkProperty property value
  | .rename _ name => Store.checkName name
  | .delete _ => .ok ()
  | .reparent _ _ => .ok ()

/-! ## In JSON -/

/-- The members that name a target. -/
def targetMembers (t : Target) : List (String × Json) :=
  Json.member? "targetId" Identifier.toJson t.id ++ Json.member? "targetPath" Path.toJson t.path

/-- What identifies a command; a refusal echoes it. -/
def reference (c : Command) : Json :=
  .obj ([("op", .str c.op)] ++ c.target?.toList.flatMap targetMembers ++
    match c with
    | .create parentPath _ name _ => [("parentPath", Path.toJson parentPath), ("name", .str name)]
    | .update _ property _ => [("property", .str property)]
    | .rename _ name => [("name", .str name)]
    | .delete _ => []
    | .reparent _ newParentPath => [("newParentPath", Path.toJson newParentPath)])

/-- The members that identify a command. -/
def referenceNames : List String :=
  ["op", "targetId", "targetPath", "parentPath", "name", "property", "newParentPath"]

/-- What identifies a value that should have been a command. -/
def rawReference : Json → Json
  | .obj members => .obj (referenceNames.filterMap fun n => (Json.find? n members).map (n, ·))
  | _ => .obj []

def toJson (c : Command) : Json :=
  .obj ([("op", .str c.op)] ++ c.target?.toList.flatMap targetMembers ++
    match c with
    | .create parentPath className name properties =>
      [("parentPath", Path.toJson parentPath), ("className", .str className), ("name", .str name),
        ("properties", Value.propertiesToJson properties)]
    | .update _ property value => [("property", .str property), ("value", value.toJson)]
    | .rename _ name => [("name", .str name)]
    | .delete _ => []
    | .reparent _ newParentPath => [("newParentPath", Path.toJson newParentPath)])

/-- The target among the parts of a command; only named parts can hold one. -/
def targetOfParts : Json.Record → Except Json.DecodeError (Json.Record × Target)
  | .listed _ => .error (.expected "named parts")
  | .named members => do
    let r : Json.Record := .named members
    let id ← r.optional 0 "targetId" Identifier.ofJson
    let path ← r.optional 0 "targetPath" Path.ofJson
    return (r, { id, path })

def ofJson : Json.Decoder Command := fun v => do
  let t ← Json.Tagged.ofJson "op" v
  match t.name with
  | "create" =>
    let r ← t.parts.bounded 4
    return .create (← r.required 0 "parentPath" Path.ofJson)
      (← r.required 1 "className" Json.Decode.text) (← r.required 2 "name" Json.Decode.text)
      (← r.withDefault 3 "properties" .empty (Value.propertiesOfJson .setAside))
  | "update" =>
    let (r, target) ← targetOfParts t.parts
    return .update target (← r.required 0 "property" Json.Decode.text)
      (← r.required 0 "value" (Value.ofJson .setAside))
  | "rename" =>
    let (r, target) ← targetOfParts t.parts
    return .rename target (← r.required 0 "name" Json.Decode.text)
  | "delete" =>
    let (_, target) ← targetOfParts t.parts
    return .delete target
  | "reparent" =>
    let (r, target) ← targetOfParts t.parts
    return .reparent target (← r.required 0 "newParentPath" Path.ofJson)
  | name => throw (.unknown name)

end Command

end SharedScene
