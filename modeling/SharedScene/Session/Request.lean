import SharedScene.Engine.Requests

/-!
# Requests of a session

One line of a session is one request: the name of a **route**, a key if the caller has one, and a
body whose form depends on the route. A line that names a part twice is refused; within the body,
the last of two members with one name counts.
-/

namespace SharedScene.Session

open Json (Record)

/-- What a request asks for. -/
inductive Route where
  | command
  | commands
  | snapshot
  | schema
  | locks
  | acquire
  | release
  | replaceAll
  | pendingChanges
deriving DecidableEq, Repr

namespace Route

def name : Route → String
  | .command => "command"
  | .commands => "commands"
  | .snapshot => "snapshot"
  | .schema => "schema"
  | .locks => "locks"
  | .acquire => "acquire"
  | .release => "release"
  | .replaceAll => "replaceAll"
  | .pendingChanges => "pendingChanges"

def all : List Route :=
  [.command, .commands, .snapshot, .schema, .locks, .acquire, .release, .replaceAll,
    .pendingChanges]

def ofName? (name : String) : Option Route := all.find? (·.name == name)

end Route

/-- One request. -/
structure Request where
  route : Route
  key : Option String
  body : Json

/-- A request in a value that was just read. -/
def Request.ofJson : Json.Decoder Request := fun v => do
  let r ← Record.ofJson 3 v
  return {
    route := ← r.required 0 "route" (Json.Decode.oneOf Route.ofName?)
    key := ← r.optional 1 "idempotencyKey" Json.Decode.text
    body := (← r.withDefault 2 "body" .null Json.Decode.raw).normalize }

/-- The reply to a line; a line that is no request has no route. -/
structure Reply where
  route : Option Route
  status : Nat
  body : Json

def Reply.toJson (r : Reply) : Json :=
  .obj (Json.member? "route" (fun route : Route => .str route.name) r.route ++
    [("status", .ofNat r.status), ("body", r.body)])

/-! ## Bodies -/

/-- The class in the body of a schema request; without a body it asks for all classes. -/
def schemaBody : Json.Decoder (Option String)
  | .null => .ok none
  | v => do
    let r ← Record.ofJson 1 v
    r.optional 0 "className" Json.Decode.text

/-- The owner and the paths in the body of an acquisition. -/
def acquireBody : Json.Decoder (Owner × List Path) := fun v => do
  let r ← Record.ofJson 2 v
  return (← r.required 0 "owner" Identifier.ofJson,
    ← r.required 1 "paths" (Json.Decode.list Path.ofJson))

/-- The owner in the body of a release. -/
def releaseBody : Json.Decoder Owner := fun v => do
  let r ← Record.ofJson 1 v
  r.required 0 "owner" Identifier.ofJson

/-- The reports in the body of a resync. -/
def replaceAllBody : Json.Decoder (List Report) := fun v => do
  let r ← Record.ofJson 1 v
  r.required 0 "instances" (Json.Decode.list Report.ofJson)

end SharedScene.Session
