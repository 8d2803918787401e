import SharedScene.Json.Basic

/-!
# Tables while a document is read

A TOML document fills its tables from many places, and whether a table may be filled from somewhere
else depends on how it came about.

* A header `[a.b]` opens a table once. The tables above it come into being on the way, and each of
  them may still be opened by a header of its own, once.
* A dotted key `a.b = 1` makes the tables above it, which other dotted keys may fill further and no
  header may open.
* A header `[[a]]` adds a table to an array, and later headers reach into the last one.

A key is never given twice.
-/

namespace SharedScene.Toml

/-- How a table came about. -/
inductive Origin where
  /-- On the way of a header to a table below. -/
  | onTheWay
  /-- By a dotted key. -/
  | dotted
  /-- By a header of its own. -/
  | header
deriving DecidableEq, Repr

/-- What stands under a key. -/
inductive Node where
  | value (v : Json)
  | table (origin : Origin) (members : List (String × Node))
  | tables (items : List (List (String × Node)))
deriving Inhabited

/-- The members of a table, in the order of their keys' first use. -/
abbrev Members := List (String × Node)

/-- A key is given twice, or in two ways that do not go together. -/
inductive Clash where
  | key (name : String)
deriving DecidableEq, Repr

/-- The members with what stands under a key replaced. -/
def replace (key : String) (node : Node) (ms : Members) : Members :=
  ms.map fun m => if m.1 = key then (key, node) else m

/-- Changes the members of the table at a path and makes the tables on the way. A dotted path goes
through no table that a header opened. -/
def alter (dotted : Bool) (change : Origin → Members → Except Clash Members) :
    List String → Origin → Members → Except Clash Members
  | [], origin, ms => change origin ms
  | key :: path, _, ms =>
    match SortedMap.find? key ms with
    | none => do
      let origin := if dotted then .dotted else .onTheWay
      let inner ← alter dotted change path origin []
      return ms ++ [(key, .table origin inner)]
    | some (.value _) => throw (.key key)
    | some (.table origin inner) =>
      if dotted && decide (origin = .header) then throw (.key key)
      else do
        let inner ← alter dotted change path origin inner
        return replace key (.table origin inner) ms
    | some (.tables items) =>
      match items.getLast? with
      | none => throw (.key key)
      | some last => do
        let inner ← alter dotted change path .header last
        return replace key (.tables (items.dropLast ++ [inner])) ms

/-- Gives a key that was not given before its value. -/
def put (key : String) (v : Json) (ms : Members) : Except Clash Members :=
  match SortedMap.find? key ms with
  | some _ => throw (.key key)
  | none => .ok (ms ++ [(key, .value v)])

/-- Gives a dotted key its value; the tables above it must be its like. -/
def assign (path : List String) (key : String) (v : Json) (ms : Members) : Except Clash Members :=
  alter true (fun origin ms =>
    if !path.isEmpty && decide (origin ≠ .dotted) then throw (.key key) else put key v ms)
    path .header ms

/-- Opens a table by a header. -/
def openTable (path : List String) (key : String) (root : Members) : Except Clash Members :=
  alter false (fun _ ms =>
    match SortedMap.find? key ms with
    | none => .ok (ms ++ [(key, .table .header [])])
    | some (.table .onTheWay inner) => .ok (replace key (.table .header inner) ms)
    | some _ => throw (.key key)) path .header root

/-- Adds a table to an array by a header. -/
def openItem (path : List String) (key : String) (root : Members) : Except Clash Members :=
  alter false (fun _ ms =>
    match SortedMap.find? key ms with
    | none => .ok (ms ++ [(key, .tables [[]])])
    | some (.tables items) => .ok (replace key (.tables (items ++ [[]])) ms)
    | some _ => throw (.key key)) path .header root

/-- Gives a dotted key below a header its value. -/
def assignBelow (header path : List String) (key : String) (v : Json) (root : Members) :
    Except Clash Members :=
  alter false (fun _ ms => assign path key v ms) header .header root

mutual

def Node.toJson : Node → Json
  | .value v => v
  | .table _ members => .obj (membersToJson members)
  | .tables items => .arr (tablesToJson items)

/-- The members of a table as values. -/
def membersToJson : List (String × Node) → List (String × Json)
  | [] => []
  | (key, node) :: rest => (key, node.toJson) :: membersToJson rest

/-- The tables of an array as values. -/
def tablesToJson : List (List (String × Node)) → List Json
  | [] => []
  | ms :: rest => .obj (membersToJson ms) :: tablesToJson rest

end

end SharedScene.Toml
