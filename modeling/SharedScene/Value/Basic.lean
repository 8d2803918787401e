import SharedScene.Json.Basic

/-!
# Property values

What an instance holds under a property key. Every later decision (may it be written, may it
replace another, what does the schema say) works on this type. The **shape** of a value is what an
update has to keep: its kind, and for an enum or a struct the declared type too. Equality compares
numbers as doubles do, so a value with NaN in it differs from itself.
-/

namespace SharedScene

/-- A property value. -/
inductive Value where
  | bool (b : Bool)
  | number (x : Float)
  | string (s : String)
  | enum (enumType item : String)
  | struct (typeName : String) (fields : SortedMap String Float)
  /-- A value that the engine reports and nobody can write. -/
  | unsupported (typeName : String)
deriving BEq, Inhabited

/-- The properties of an instance. -/
abbrev Properties := SortedMap String Value

namespace Value

/-- The kind of a value, and of a property across instances. -/
inductive Kind where
  | bool
  | number
  | string
  | enum
  | struct
  | unsupported
  /-- Observed with more than one shape. -/
  | mixed
deriving DecidableEq, Repr

def Kind.name : Kind → String
  | .bool => "bool"
  | .number => "number"
  | .string => "string"
  | .enum => "enum"
  | .struct => "struct"
  | .unsupported => "unsupported"
  | .mixed => "mixed"

def kind : Value → Kind
  | .bool _ => .bool
  | .number _ => .number
  | .string _ => .string
  | .enum _ _ => .enum
  | .struct _ _ => .struct
  | .unsupported _ => .unsupported

/-- What an update keeps: the kind, and the declared type of an enum or a struct. -/
inductive Shape where
  | plain (kind : Kind)
  | enum (enumType : String)
  | struct (typeName : String)
deriving DecidableEq, Repr

def shape : Value → Shape
  | .enum enumType _ => .enum enumType
  | .struct typeName _ => .struct typeName
  | v => .plain v.kind

/-- Whether one value may replace the other. -/
def sameShape (a b : Value) : Bool := decide (a.shape = b.shape)

def text? : Value → Option String
  | .string s => some s
  | _ => none

/-- Why a value cannot be written. -/
inductive NotWritable where
  | unsupported (typeName : String)
  | numberNotFinite
  | fieldNotFinite (typeName : String)
deriving DecidableEq, Repr

def NotWritable.message : NotWritable → String
  | .unsupported typeName => s!"values of type '{typeName}' are not writable"
  | .numberNotFinite => "numbers must be finite"
  | .fieldNotFinite typeName => s!"struct '{typeName}' has a non-finite field"

def checkWritable : Value → Except NotWritable Unit
  | .unsupported typeName => .error (.unsupported typeName)
  | .number x => if x.isFinite then .ok () else .error .numberNotFinite
  | .struct typeName fields =>
    if fields.values.all Float.isFinite then .ok () else .error (.fieldNotFinite typeName)
  | _ => .ok ()

end Value

end SharedScene
