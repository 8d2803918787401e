import SharedScene.SortedMap

/-!
# JSON values

A value keeps the members of an object as they were written: in order, and a name that is written
twice stands there twice. What to do with such a name is a rule of its own. A document that is
taken as a value keeps the last one and lists its members by name (`Json.normalize`); a reader that
takes a record straight from the text refuses it (`Json.Record`).

A number is an integer as long as it is written like one and fits into 64 bits, else a double.

A text may hold more than a value can: a number beyond the doubles, half of a surrogate pair,
arrays in arrays without end. Such a part is **unreadable**. It does no harm where nobody asks for
it, and whoever takes the part, or all that is around it, refuses it (`Json.isReadable`).
-/

namespace SharedScene

/-- A number as JSON writes it. -/
inductive Json.Number where
  /-- An integer of at most 64 bits. -/
  | int (n : Int)
  /-- Any other number. -/
  | float (x : Float)
deriving Repr, BEq

/-- A JSON value. -/
inductive Json where
  | null
  | bool (b : Bool)
  | num (n : Json.Number)
  | str (s : String)
  | arr (items : List Json)
  | obj (members : List (String × Json))
  /-- What follows the grammar and is no value. -/
  | unreadable
deriving Repr, BEq, Inhabited

namespace Json

/-- The number as a double, rounded to the nearest one. -/
def Number.toFloat : Number → Float
  | .int n =>
    let magnitude := Float.ofScientific n.natAbs false 0
    if n < 0 then -magnitude else magnitude
  | .float x => x

def ofInt (n : Int) : Json := .num (.int n)

def ofNat (n : Nat) : Json := .num (.int n)

/-- A double as a value; JSON has no spelling for NaN and the infinities, so they are null. -/
def ofFloat (x : Float) : Json :=
  if x.isFinite then .num (.float x) else .null

/-- The value of an optional part; a part that is absent is null. -/
def ofOption {α : Type} (f : α → Json) : Option α → Json
  | none => .null
  | some a => f a

def ofList {α : Type} (f : α → Json) (xs : List α) : Json := .arr (xs.map f)

def ofMap {α : Type} (f : α → Json) (m : SortedMap String α) : Json :=
  .obj (m.entries.map fun e => (e.1, f e.2))

/-- An object member that is left out when there is nothing to say. -/
def member? {α : Type} (name : String) (f : α → Json) : Option α → List (String × Json)
  | none => []
  | some a => [(name, f a)]

/-- The value of the first member of that name. -/
def find? (name : String) : List (String × Json) → Option Json :=
  SortedMap.find? name

/-- The member of an object; `none` for an absent member and for what is no object. -/
def get? (v : Json) (name : String) : Option Json :=
  match v with
  | .obj members => find? name members
  | _ => none

/-- Members by name, the last one of each name. -/
def sortMembers (members : List (String × Json)) : List (String × Json) :=
  (SortedMap.ofList members).entries

mutual

/-- The value with every object's members listed by name, the last one of each name. -/
def normalize : Json → Json
  | .arr items => .arr (normalizeItems items)
  | .obj members => .obj (sortMembers (normalizeMembers members))
  | .null => .null
  | .bool b => .bool b
  | .num n => .num n
  | .str s => .str s
  | .unreadable => .unreadable

/-- The items of an array, normalized. -/
def normalizeItems : List Json → List Json
  | [] => []
  | v :: rest => normalize v :: normalizeItems rest

/-- The members of an object, each with its value normalized. -/
def normalizeMembers : List (String × Json) → List (String × Json)
  | [] => []
  | (name, v) :: rest => (name, normalize v) :: normalizeMembers rest

end

mutual

/-- Whether no part of a value is unreadable. -/
def isReadable : Json → Bool
  | .arr items => areReadable items
  | .obj members => membersAreReadable members
  | .unreadable => false
  | .null => true
  | .bool _ => true
  | .num _ => true
  | .str _ => true

/-- Whether no part of the items is unreadable. -/
def areReadable : List Json → Bool
  | [] => true
  | v :: rest => isReadable v && areReadable rest

/-- Whether no part of the members is unreadable. -/
def membersAreReadable : List (String × Json) → Bool
  | [] => true
  | (_, v) :: rest => isReadable v && membersAreReadable rest

end

end Json

end SharedScene
