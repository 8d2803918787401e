import SharedScene.Instant
import SharedScene.Scene.Instance
import SharedScene.Value.Codec

/-!
# The schema view

What can be said about each class from the instances at hand: how many there are, and for every
property its kind, whether it can be written, and what its values have in common. A property whose
values differ in shape is **mixed**, and nothing is promised of it.

The name and the class of an instance are described as text properties of a record; a property of
the same key that an instance really has takes their place.
-/

namespace SharedScene

/-- What the values of a property have in common. -/
inductive Constraints where
  | number (min max : Float)
  | text (maxLength : Nat)
  | enum (enumType : String) (options : List String)
  | struct (typeName : String) (fields : List String)

/-- What is known of a property. -/
structure PropertySchema where
  kind : Value.Kind
  writable : Bool
  constraints : Option Constraints

/-- What is known of a class. -/
structure ClassSchema where
  instanceCount : Nat
  properties : SortedMap String PropertySchema

/-- What is known of the classes at one revision. -/
structure SchemaView where
  revision : Nat
  generatedAt : Instant
  classes : SortedMap String ClassSchema

namespace Schema

/-- The place of a double in the total order: negative before positive, by magnitude, and a NaN
beyond the infinity of its sign. -/
def orderKey (x : Float) : Int :=
  let bits : Nat := x.toBits.toNat
  if bits < Nat.pow 2 63 then bits else -((bits - Nat.pow 2 63 : Nat) : Int) - 1

/-- The smaller of two doubles in the total order. -/
def lesser (a b : Float) : Float := if orderKey b < orderKey a then b else a

/-- The larger of two doubles in the total order. -/
def greater (a b : Float) : Float := if orderKey b < orderKey a then a else b

def number? : Value → Option Float
  | .number x => some x
  | _ => none

def item? : Value → Option String
  | .enum _ item => some item
  | _ => none

/-- The names of the fields in a value. -/
def fieldNames : Value → List String
  | .struct _ fields => fields.keys
  | _ => []

/-- The length of the text in a value. -/
def textLength? (v : Value) : Option Nat := v.text?.map String.length

/-- What values of the same shape as `first` have in common. -/
def constraintsOf (first : Value) (values : List Value) : Option Constraints :=
  match first with
  | .bool _ => none
  | .unsupported _ => none
  | .number x =>
    let xs := values.filterMap number?
    some (.number (xs.foldl lesser x) (xs.foldl greater x))
  | .string _ => some (.text ((values.filterMap textLength?).foldl max 0))
  | .enum enumType _ =>
    some (.enum enumType (SortedMap.sortedElements (values.filterMap item?)))
  | .struct typeName _ =>
    some (.struct typeName (SortedMap.sortedElements (values.flatMap fieldNames)))

/-- Whether every value has the shape of its neighbour. -/
def shapesAgree : List Value → Bool
  | a :: b :: rest => a.sameShape b && shapesAgree (b :: rest)
  | _ => true

/-- Whether a property of a kind can be written. -/
def isWritable (kind : Value.Kind) : Bool :=
  decide (kind ≠ .unsupported) && decide (kind ≠ .mixed)

/-- What is known of a property from its values. -/
def ofValues (values : List Value) : PropertySchema :=
  match values with
  | [] => ⟨.mixed, false, none⟩
  | first :: _ =>
    if shapesAgree values then ⟨first.kind, isWritable first.kind, constraintsOf first values⟩
    else ⟨.mixed, false, none⟩

/-- A text of the record of an instance, as a property. -/
def ofRecord (writable : Bool) (maxLength : Nat) : PropertySchema :=
  ⟨.string, writable, some (.text maxLength)⟩

/-- What is known of a class from its instances. -/
def ofInstances (className : String) (instances : List Instance) : ClassSchema :=
  let keys := SortedMap.sortedElements (instances.flatMap fun i => i.properties.keys)
  { instanceCount := instances.length
    properties := SortedMap.ofList
      ([(nameKey, ofRecord true Name.maxLength), (classNameKey, ofRecord false className.length)] ++
        keys.map fun key => (key, ofValues (instances.filterMap fun i => i.properties.get? key))) }

end Schema

/-- The schema of a list of instances; with a filter, of that class only. -/
def SchemaView.ofIndexed (indexed : List IndexedInstance) (filter : Option String)
    (revision : Nat) (generatedAt : Instant) : SchemaView :=
  let instances := indexed.map (·.record)
  let names := SortedMap.sortedElements (instances.map (·.className))
  let wanted := names.filter fun name => filter.all (· == name)
  { revision, generatedAt
    classes := SortedMap.ofList (wanted.map fun name =>
      (name, Schema.ofInstances name (instances.filter fun i => i.className == name))) }

/-! ## In JSON -/

def Constraints.toJson : Constraints → Json
  | .number min max => .obj [("min", .ofFloat min), ("max", .ofFloat max)]
  | .text maxLength => .obj [("maxLength", .ofNat maxLength)]
  | .enum enumType options =>
    .obj [("enumType", .str enumType), ("options", .ofList .str options)]
  | .struct typeName fields =>
    .obj [("typeName", .str typeName), ("fields", .ofList .str fields)]

/-- What is known of a property as JSON. -/
def PropertySchema.toJson (s : PropertySchema) : Json :=
  .obj ([("kind", .str s.kind.name), ("writable", .bool s.writable)] ++
    Json.member? "constraints" Constraints.toJson s.constraints)

/-- What is known of a class as JSON. -/
def ClassSchema.toJson (s : ClassSchema) : Json :=
  .obj [("instanceCount", .ofNat s.instanceCount),
    ("properties", .ofMap PropertySchema.toJson s.properties)]

def SchemaView.toJson (v : SchemaView) : Json :=
  .obj [("revision", .ofNat v.revision), ("generatedAt", Instant.toJson v.generatedAt),
    ("classes", .ofMap ClassSchema.toJson v.classes)]

end SharedScene
