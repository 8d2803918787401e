import SharedScene.Json.Decode
import SharedScene.Value.Basic

/-!
# Property values in JSON

A value is a record of its kind and its content, `{"kind": "number", "value": 4}`, and may also be
written as a list of the two. The content of an enum, a struct or an unsupported value is an
object. What else such an object holds may be unreadable, unless the content comes before the kind:
then it is set aside whole until the kind is known.
-/

namespace SharedScene.Value

/-- The content of a value. -/
def content : Value → Json
  | .bool b => .bool b
  | .number x => .ofFloat x
  | .string s => .str s
  | .enum enumType item => .obj [("enumType", .str enumType), ("item", .str item)]
  | .struct typeName fields =>
    .obj [("typeName", .str typeName), ("fields", .ofMap .ofFloat fields)]
  | .unsupported typeName => .obj [("typeName", .str typeName)]

def toJson (v : Value) : Json := .obj [("kind", .str v.kind.name), ("value", v.content)]

/-- The kinds that a value can have. -/
def Kind.ofValues : List Kind := [.bool, .number, .string, .enum, .struct, .unsupported]

/-- The kind of that name, among those that a value can have. -/
def Kind.ofName? (name : String) : Option Kind := Kind.ofValues.find? (·.name == name)

/-- The value of a kind with the given content. -/
def ofContent (kind : Kind) (v : Json) : Except Json.DecodeError Value := do
  match kind with
  | .bool => return .bool (← Json.Decode.bool v)
  | .number => return .number (← Json.Decode.float v)
  | .string => return .string (← Json.Decode.text v)
  | .enum =>
    let r ← Json.Record.ofObject v
    return .enum (← r.required 0 "enumType" Json.Decode.text)
      (← r.required 1 "item" Json.Decode.text)
  | .struct =>
    let r ← Json.Record.ofObject v
    return .struct (← r.required 0 "typeName" Json.Decode.text)
      (← r.required 1 "fields" (Json.Decode.map Json.Decode.float))
  | .unsupported =>
    let r ← Json.Record.ofObject v
    return .unsupported (← r.required 0 "typeName" Json.Decode.text)
  | .mixed => throw (.unknown kind.name)

/-- The kind of a value in JSON; a list names it more plainly than an object. -/
def kindOfJson (place : Json.Place) (r : Json.Record) : Except Json.DecodeError Kind :=
  match r with
  | .named _ => r.required 0 "kind" (Json.Decode.oneOfAt place Kind.ofName?)
  | .listed _ => r.required 0 "kind" fun v => do
    Json.Decode.caseOf Kind.ofName? (← Json.Decode.itemName place (Kind.ofValues.map Kind.name) v)

/-- The content of a value in JSON, as it is. -/
def contentOfJson (r : Json.Record) : Except Json.DecodeError Json :=
  match r with
  | .named members =>
    let kindFirst := members.find? (fun m => m.1 == "kind" || m.1 == "value") |>.any (·.1 == "kind")
    r.required 1 "value" (if kindFirst then .ok else Json.Decode.raw)
  | .listed _ => r.required 1 "value" .ok

def ofJson (place : Json.Place) : Json.Decoder Value := fun v => do
  let r ← Json.Record.ofJson 2 v
  let kind ← kindOfJson place r
  ofContent kind (← contentOfJson r)

/-- The properties of an instance in JSON. -/
def propertiesOfJson (place : Json.Place) : Json.Decoder Properties :=
  Json.Decode.map (ofJson place)

/-- The properties of an instance as JSON. -/
def propertiesToJson (ps : Properties) : Json := .ofMap toJson ps

end SharedScene.Value
