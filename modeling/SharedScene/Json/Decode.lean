import SharedScene.Json.Basic

/-!
# Taking values apart

A decoder turns a value into a domain type or says why it cannot. Decoders are strict in what they
accept: no number is taken from a text, an integer must be written as one and lie in its range, and
null stands only where a part may be absent.

**Records** come in two layouts. Written with names, a record may hold members that nobody asks
for, but it must not name a part twice. Written as a list, it holds its parts in the order of
declaration; parts with a default may be left out at the end, and nothing may follow the last one.
A **tagged** record carries the name of its case in one member, or in the first item of the list.
Its other parts are set aside until that name is known, so they are all readable, and what was set
aside may name a case in more ways than a value that is taken directly (`Place`).
-/

namespace SharedScene.Json

/-- Why a value is not of the type that was asked for. -/
inductive DecodeError where
  | missing (name : String)
  | repeated (name : String)
  | expected (what : String)
  | tooLong (parts : Nat)
  | unknown (name : String)
  | refused (reason : String)
deriving DecidableEq, Repr

def DecodeError.message : DecodeError → String
  | .missing name => "missing field " ++ name
  | .repeated name => "duplicate field " ++ name
  | .expected what => "expected " ++ what
  | .tooLong parts => "expected at most " ++ toString parts ++ " items"
  | .unknown name => "unknown variant " ++ name
  | .refused reason => reason

/-- How a value is taken. -/
inductive Place where
  /-- As it is read. -/
  | direct
  /-- From the parts of a tagged record that were set aside. -/
  | setAside
deriving DecidableEq, Repr

/-- A reading of values as `α`. -/
abbrev Decoder (α : Type) := Json → Except DecodeError α

namespace Decode

def raw : Decoder Json := fun v =>
  if v.isReadable then .ok v else .error (.expected "a value")

def bool : Decoder Bool
  | .bool b => .ok b
  | _ => .error (.expected "a boolean")

def text : Decoder String
  | .str s => .ok s
  | _ => .error (.expected "a string")

/-- A natural number below `bound`, written as an integer. -/
def natBelow (bound : Nat) : Decoder Nat
  | .num (.int n) =>
    if 0 ≤ n ∧ n < bound then .ok n.toNat else .error (.expected "an integer in range")
  | _ => .error (.expected "an integer")

/-- A natural number of at most 64 bits. -/
def nat64 : Decoder Nat := natBelow (Nat.pow 2 64)

/-- A natural number of at most 32 bits. -/
def nat32 : Decoder Nat := natBelow (Nat.pow 2 32)

/-- A double; an integer is rounded to the nearest one. -/
def float : Decoder Float
  | .num n => .ok n.toFloat
  | _ => .error (.expected "a number")

/-- A part that may be null. -/
def nullable {α : Type} (d : Decoder α) : Decoder (Option α)
  | .null => .ok none
  | v => some <$> d v

def list {α : Type} (d : Decoder α) : Decoder (List α)
  | .arr items => items.mapM d
  | _ => .error (.expected "a list")

/-- The entries of a map, each with its value decoded. -/
def entries {α : Type} (d : Decoder α) :
    List (String × Json) → Except DecodeError (List (String × α))
  | [] => .ok []
  | (name, v) :: rest => do
    let a ← d v
    return (name, a) :: (← entries d rest)

/-- A map; of a name written twice the last value holds. -/
def map {α : Type} (d : Decoder α) : Decoder (SortedMap String α)
  | .obj members => SortedMap.ofList <$> entries d members
  | _ => .error (.expected "a map")

/-- The case of that name, or the refusal. -/
def caseOf {α : Type} (read : String → Option α) (name : String) : Except DecodeError α :=
  match read name with
  | some a => .ok a
  | none => .error (.unknown name)

/-- The name of a case without content: a text, or an object with that one name and null. Where
values were set aside, an empty object does for null. -/
def caseName (place : Place) : Decoder String
  | .str s => .ok s
  | .obj [(name, .null)] => .ok name
  | .obj [(name, .obj [])] =>
    match place with
    | .direct => .error (.expected "null")
    | .setAside => .ok name
  | _ => .error (.expected "a name")

/-- One of several cases, by name. -/
def oneOfAt {α : Type} (place : Place) (read : String → Option α) : Decoder α := fun v => do
  caseOf read (← caseName place v)

/-- One of several cases, by name, in a value that is taken directly. -/
def oneOf {α : Type} (read : String → Option α) : Decoder α := oneOfAt .direct read

/-- The name of a case in a list, where no object stands for it. Where values were set aside, its
number among `names` does as well, from 0. -/
def itemName (place : Place) (names : List String) : Decoder String
  | .str s => .ok s
  | .num (.int n) =>
    match place, (if 0 ≤ n then names[n.toNat]? else none) with
    | .setAside, some name => .ok name
    | _, _ => .error (.expected "a name")
  | _ => .error (.expected "a name")

end Decode

/-! ## Records -/

/-- The parts of a record, in either layout. -/
inductive Record where
  /-- Parts by name. -/
  | named (members : List (String × Json))
  /-- Parts in the order of declaration. -/
  | listed (items : List Json)

namespace Record

/-- What becomes of items beyond the last part of a record. -/
inductive Surplus where
  | refused
  | ignored
deriving DecidableEq, Repr

/-- A record of at most `parts` parts. -/
def bounded (parts : Nat) : Record → Except DecodeError Record
  | .named members => .ok (.named members)
  | .listed items =>
    if items.length ≤ parts then .ok (.listed items) else .error (.tooLong parts)

/-- The record that a value holds, in either layout, of at most `parts` parts. -/
def ofJson (parts : Nat) : Decoder Record
  | .obj members => .ok (.named members)
  | .arr items => bounded parts (.listed items)
  | _ => .error (.expected "a record")

/-- The record that a value holds, whose items beyond `parts` may be ignored. -/
def ofJsonWith (surplus : Surplus) (parts : Nat) : Decoder Record
  | .arr items =>
    match surplus with
    | .refused => ofJson parts (.arr items)
    | .ignored => .ok (.listed (items.take parts))
  | v => ofJson parts v

/-- The record that an object holds. -/
def ofObject : Decoder Record
  | .obj members => .ok (.named members)
  | _ => .error (.expected "an object")

/-- One part of a record, when it is there. -/
def part? (r : Record) (position : Nat) (name : String) : Except DecodeError (Option Json) :=
  match r with
  | .named members =>
    match members.filter (fun m => m.1 == name) with
    | [] => .ok none
    | [m] => .ok (some m.2)
    | _ => .error (.repeated name)
  | .listed items => .ok items[position]?

/-- A part that must be there. -/
def required {α : Type} (r : Record) (position : Nat) (name : String) (d : Decoder α) :
    Except DecodeError α := do
  match ← r.part? position name with
  | some v => d v
  | none => throw (.missing name)

/-- A part with a value for when it is absent. -/
def withDefault {α : Type} (r : Record) (position : Nat) (name : String) (value : α)
    (d : Decoder α) : Except DecodeError α := do
  match ← r.part? position name with
  | some v => d v
  | none => return value

/-- A part that may be absent or null. -/
def optional {α : Type} (r : Record) (position : Nat) (name : String) (d : Decoder α) :
    Except DecodeError (Option α) :=
  r.withDefault position name none (Decode.nullable d)

/-- A part that may be null, and absent where parts have names. -/
def nullable {α : Type} (r : Record) (position : Nat) (name : String) (d : Decoder α) :
    Except DecodeError (Option α) :=
  match r with
  | .named _ => r.optional position name d
  | .listed _ => r.required position name (Decode.nullable d)

end Record

/-- A record with the name of its case. -/
structure Tagged where
  name : String
  parts : Record

/-- The tagged record that a value holds; `tag` is the member that names the case. -/
def Tagged.ofJson (tag : String) : Decoder Tagged := fun v => do
  match ← Decode.raw v with
  | .obj members =>
    let name ← (Record.named members).required 0 tag Decode.text
    return ⟨name, .named (members.filter fun m => m.1 != tag)⟩
  | .arr [] => throw (.missing tag)
  | .arr (first :: items) => return ⟨← Decode.text first, .listed items⟩
  | _ => throw (.expected "a tagged record")

end SharedScene.Json
