import SharedScene.Scene.Resync
import SharedScene.Value.Codec

/-!
# The scene in JSON

Messages and events are tagged with their `type`. An id that is absent and a name that is not asked
for are left out; a property that a resync removed has the value null.
-/

namespace SharedScene

open Json (Place Record Tagged)

/-- A record of an instance as JSON. -/
def Instance.toJson (i : Instance) : Json :=
  .obj
    [("id", i.id.toJson), ("className", .str i.className), ("name", .str i.name),
     ("parent", .ofOption Identifier.toJson i.parent),
     ("properties", Value.propertiesToJson i.properties),
     ("children", .ofList Identifier.toJson i.children)]

/-- A record of an instance in JSON. -/
def Instance.ofJson (place : Place) : Json.Decoder Instance := fun v => do
  let r ← Record.ofJson 6 v
  return {
    id := ← r.required 0 "id" Identifier.ofJson
    className := ← r.required 1 "className" Json.Decode.text
    name := ← r.required 2 "name" Json.Decode.text
    parent := ← r.nullable 3 "parent" Identifier.ofJson
    properties := ← r.required 4 "properties" (Value.propertiesOfJson place)
    children := ← r.required 5 "children" (Json.Decode.list Identifier.ofJson) }

def NewInstance.toJson (i : NewInstance) : Json :=
  .obj (Json.member? "id" Identifier.toJson i.id ++
    [("className", .str i.className), ("name", .str i.name),
     ("properties", Value.propertiesToJson i.properties)])

def NewInstance.ofJson (place : Place) : Json.Decoder NewInstance := fun v => do
  let r ← Record.ofJson 4 v
  return {
    id := ← r.optional 0 "id" Identifier.ofJson
    className := ← r.required 1 "className" Json.Decode.text
    name := ← r.required 2 "name" Json.Decode.text
    properties := ← r.withDefault 3 "properties" .empty (Value.propertiesOfJson place) }

def Report.toJson (r : Report) : Json :=
  .obj
    [("id", r.id.toJson), ("className", .str r.className), ("name", .str r.name),
     ("parentId", .ofOption Identifier.toJson r.parentId),
     ("properties", Value.propertiesToJson r.properties)]

def Report.ofJson : Json.Decoder Report := fun v => do
  let r ← Record.ofJson 5 v
  return {
    id := ← r.required 0 "id" Identifier.ofJson
    className := ← r.required 1 "className" Json.Decode.text
    name := ← r.required 2 "name" Json.Decode.text
    parentId := ← r.optional 3 "parentId" Identifier.ofJson
    properties := ← r.withDefault 4 "properties" .empty (Value.propertiesOfJson .direct) }

/-- An instance with its path as JSON. -/
def IndexedInstance.toJson (i : IndexedInstance) : Json :=
  .obj [("path", Path.toJson i.path), ("instance", i.record.toJson)]

def Message.toJson : Message → Json
  | .create parentPath i =>
    .obj [("type", .str "create"), ("parentPath", Path.toJson parentPath), ("instance", i.toJson)]
  | .update path property value =>
    .obj [("type", .str "update"), ("path", Path.toJson path), ("property", .str property),
      ("value", value.toJson)]
  | .delete path => .obj [("type", .str "delete"), ("path", Path.toJson path)]
  | .reparent path newParentPath name =>
    .obj ([("type", .str "reparent"), ("path", Path.toJson path),
      ("newParentPath", Path.toJson newParentPath)] ++ Json.member? "name" .str name)

def Message.ofJson : Json.Decoder Message := fun v => do
  let t ← Tagged.ofJson "type" v
  match t.name with
  | "create" =>
    let r ← t.parts.bounded 2
    return .create (← r.required 0 "parentPath" Path.ofJson)
      (← r.required 1 "instance" (NewInstance.ofJson .setAside))
  | "update" =>
    let r ← t.parts.bounded 3
    return .update (← r.required 0 "path" Path.ofJson)
      (← r.required 1 "property" Json.Decode.text)
      (← r.required 2 "value" (Value.ofJson .setAside))
  | "delete" =>
    let r ← t.parts.bounded 1
    return .delete (← r.required 0 "path" Path.ofJson)
  | "reparent" =>
    let r ← t.parts.bounded 3
    return .reparent (← r.required 0 "path" Path.ofJson)
      (← r.required 1 "newParentPath" Path.ofJson) (← r.optional 2 "name" Json.Decode.text)
  | name => throw (.unknown name)

def Origin.ofName? (name : String) : Option Origin :=
  [Origin.bridge, .projection, .agent].find? (·.name == name)

def Origin.ofJson : Json.Decoder Origin := Json.Decode.oneOf Origin.ofName?

def Event.toJson : Event → Json
  | .create id path i =>
    .obj [("type", .str "create"), ("id", id.toJson), ("path", Path.toJson path),
      ("instance", i.toJson)]
  | .update id path property value =>
    .obj [("type", .str "update"), ("id", id.toJson), ("path", Path.toJson path),
      ("property", .str property), ("value", .ofOption Value.toJson value)]
  | .delete id path =>
    .obj [("type", .str "delete"), ("id", id.toJson), ("path", Path.toJson path)]
  | .reparent id path newParentPath name =>
    .obj [("type", .str "reparent"), ("id", id.toJson), ("path", Path.toJson path),
      ("newParentPath", Path.toJson newParentPath), ("name", .str name)]

def Event.ofJson : Json.Decoder Event := fun v => do
  let t ← Tagged.ofJson "type" v
  match t.name with
  | "create" =>
    let r ← t.parts.bounded 3
    return .create (← r.required 0 "id" Identifier.ofJson) (← r.required 1 "path" Path.ofJson)
      (← r.required 2 "instance" (Instance.ofJson .setAside))
  | "update" =>
    let r ← t.parts.bounded 4
    return .update (← r.required 0 "id" Identifier.ofJson) (← r.required 1 "path" Path.ofJson)
      (← r.required 2 "property" Json.Decode.text)
      (← r.nullable 3 "value" (Value.ofJson .setAside))
  | "delete" =>
    let r ← t.parts.bounded 2
    return .delete (← r.required 0 "id" Identifier.ofJson) (← r.required 1 "path" Path.ofJson)
  | "reparent" =>
    let r ← t.parts.bounded 4
    return .reparent (← r.required 0 "id" Identifier.ofJson) (← r.required 1 "path" Path.ofJson)
      (← r.required 2 "newParentPath" Path.ofJson) (← r.required 3 "name" Json.Decode.text)
  | name => throw (.unknown name)

def PendingChange.toJson (c : PendingChange) : Json :=
  .obj [("sequence", .ofNat c.sequence), ("target", c.target.toJson),
    ("message", c.message.toJson)]

def PendingChange.ofJson : Json.Decoder PendingChange := fun v => do
  let r ← Record.ofJson 3 v
  return {
    sequence := ← r.required 0 "sequence" Json.Decode.nat64
    target := ← r.required 1 "target" Identifier.ofJson
    message := ← r.required 2 "message" Message.ofJson }

def Applied.toJson (a : Applied) : Json :=
  .obj [("kind", .str a.kind.name), ("id", a.id.toJson), ("path", Path.toJson a.path),
    ("name", .str a.name), ("revision", .ofNat a.revision)]

/-- The summary of a resync as JSON. -/
def ResyncSummary.toJson (s : ResyncSummary) : Json :=
  .obj [("changed", .bool s.changed), ("revision", .ofNat s.revision),
    ("created", .ofNat s.created), ("deleted", .ofNat s.deleted), ("moved", .ofNat s.moved),
    ("updated", .ofNat s.updated), ("droppedRecords", .ofNat s.droppedRecords)]

end SharedScene
