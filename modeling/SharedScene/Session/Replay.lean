import SharedScene.Json.Reader
import SharedScene.Session.Request

/-!
# Replaying a session

A session is a text of requests, one on each line, answered in order by one engine. Blank lines are
skipped, but count as lines; a line that is no request gets a reply that says so, and the session
goes on. A session may start from a **seed**, a list of reports that the scene is brought to first.
-/

namespace SharedScene.Session

/-- The status of a request that cannot be read. -/
def statusBad : Nat := 400

/-- A status and a body. -/
abbrev Response := Nat × Json

/-- The response to a request that cannot be read. -/
def badRequest (text : String) : Response :=
  (statusBad, .obj [("success", .bool false), ("status", .ofNat statusBad), ("error", .str text)])

/-- Answers with a body of the route's form, or says that the body is not one. -/
def withBody {α : Type} (e : Engine) (read : Json.Decoder α) (body : Json)
    (answer : α → Response × Engine) : Response × Engine :=
  match read body with
  | .ok a => answer a
  | .error err => (badRequest s!"invalid body: {err.message}", e)

/-- Answers a command or a batch. -/
def answerCommand (e : Engine) (route : CommandRoute) (key : Option String) (body : Json) :
    Response × Engine :=
  let (a, e) := e.answer route body key
  ((a.status, a.toJson), e)

/-- Answers an acquisition. -/
def answerAcquire (e : Engine) (owner : Owner) (paths : List Path) : Response × Engine :=
  match e.acquire owner paths with
  | (.ok leases, e) =>
    ((statusOk, .obj [("success", .bool true), ("leases", .ofList Lease.toJson leases)]), e)
  | (.error c, e) =>
    let status := ConflictReason.locked.status
    ((status, .obj [("success", .bool false), ("status", .ofNat status),
      ("conflict", c.toJson)]), e)

def handle (e : Engine) (request : Request) : Response × Engine :=
  match request.route with
  | .command => answerCommand e .command request.key request.body
  | .commands => answerCommand e .commands request.key request.body
  | .snapshot => ((statusOk, e.snapshot.toJson), e)
  | .schema => withBody e schemaBody request.body fun className =>
      ((statusOk, (e.schema className).toJson), e)
  | .locks =>
    let (view, e) := e.leases
    ((statusOk, view.toJson), e)
  | .acquire => withBody e acquireBody request.body fun (owner, paths) =>
      answerAcquire e owner paths
  | .release => withBody e releaseBody request.body fun owner =>
      let (released, e) := e.release owner
      ((statusOk, .obj [("success", .bool true), ("released", .ofNat released)]), e)
  | .replaceAll => withBody e replaceAllBody request.body fun reports =>
      let (summary, e) := e.resync reports
      ((statusOk, summary.toJson), e)
  | .pendingChanges =>
    let (changes, e) := e.takePending
    ((statusOk, .obj [("changes", .ofList PendingChange.toJson changes)]), e)

/-- Why a line is no request. -/
def readLine (line : String) : Except String Request :=
  match Json.read line with
  | .error err => .error err.message
  | .ok v => (Request.ofJson v).mapError (·.message)

/-- Answers one line, which is the `number`-th of its session; a blank one has no reply. -/
def step (e : Engine) (number : Nat) (line : String) : Option Reply × Engine :=
  if Text.isBlankText line then (none, e)
  else match readLine line with
    | .error text =>
      let (status, body) := badRequest s!"line {number}: {text}"
      (some ⟨none, status, body⟩, e)
    | .ok request =>
      let ((status, body), e) := handle e request
      (some ⟨some request.route, status, body⟩, e)

/-- Answers lines in order, the first of which is the `number`-th. -/
def run (e : Engine) (number : Nat) : List String → List Reply × Engine
  | [] => ([], e)
  | line :: rest =>
    let (reply, e) := step e number line
    let (replies, e) := run e (number + 1) rest
    (reply.toList ++ replies, e)

/-- A line without the carriage return at its end. -/
def dropReturn (cs : List Char) : List Char :=
  if cs.getLast? = some '\r' then cs.dropLast else cs

/-- The lines of a text; after the last line break there is no line. -/
def linesOf (text : String) : List String :=
  let pieces := Text.splitOn '\n' text.toList
  let pieces := if pieces.getLast? = some [] then pieces.dropLast else pieces
  pieces.map fun cs => String.ofList (dropReturn cs)

/-- The reports in the text of a seed. -/
def readSeed (text : String) : Except Failure (List Report) :=
  match Json.read text with
  | .error err => .error (.parse err.message)
  | .ok v => (Json.Decode.list Report.ofJson v).mapError fun err => .parse err.message

/-- An engine whose scene is what the seed describes. -/
def seeded (e : Engine) (text : String) : Except Failure Engine := do
  return (e.resync (← readSeed text)).2

end SharedScene.Session
