import SharedScene.Command.Execute

/-!
# Requests and replies

A request holds one command or a list of them, and the revision that the caller has seen, if it
cares. Commands stay raw values until their turn comes: a stale request is refused before anything
in it is read, and in a batch a malformed command fails alone.

What a reply says about success, status and counts follows from the outcomes in it.
-/

namespace SharedScene

open Json (Record)

/-- A request for one command. -/
structure CommandRequest where
  baseRevision : Option Nat
  command : Json

/-- A request for several commands. -/
structure BatchRequest where
  baseRevision : Option Nat
  transactional : Bool
  continueOnError : Bool
  commands : List Json

/-- What a batch does about a command that fails. -/
inductive BatchMode where
  /-- Takes back all that was done and stops. -/
  | transactional
  /-- Goes on. -/
  | continueOnError
  /-- Keeps what was done and stops. -/
  | stopOnError
deriving DecidableEq, Repr

/-- The mode of a request; transactional wins. -/
def BatchRequest.mode (r : BatchRequest) : BatchMode :=
  if r.transactional then .transactional
  else if r.continueOnError then .continueOnError
  else .stopOnError

/-- The reply to one command. -/
structure CommandReply where
  outcome : Except Conflict CommandOutput
  revision : Nat

/-- One command of a batch that was run. -/
structure BatchItem where
  index : Nat
  outcome : Except Conflict CommandOutput

/-- What became of a batch. -/
inductive BatchVerdict where
  /-- Nothing was run. -/
  | rejected (conflict : Conflict)
  | finished (status : Nat) (rolledBack : Bool) (results : List BatchItem)

/-- The reply to a batch. -/
structure BatchReply where
  transactional : Bool
  /-- How many commands the request holds. -/
  total : Nat
  verdict : BatchVerdict
  revision : Nat

def CommandOutput.succeeded (outcome : Except Conflict CommandOutput) : Bool := outcome.isOk

def CommandOutput.statusOf : Except Conflict CommandOutput → Nat
  | .ok _ => statusOk
  | .error c => c.status

def CommandOutput.reasonOf? : Except Conflict CommandOutput → Option ConflictReason
  | .ok _ => none
  | .error c => some c.reason

def CommandReply.status (r : CommandReply) : Nat := CommandOutput.statusOf r.outcome

/-- The status of a reply to a batch. -/
def BatchReply.status (r : BatchReply) : Nat :=
  match r.verdict with
  | .rejected c => c.status
  | .finished status _ _ => status

/-! ## In JSON -/

/-- The members of an outcome: the result or the conflict. -/
def CommandOutput.members : Except Conflict CommandOutput → List (String × Json)
  | .ok output => [("result", output.toJson)]
  | .error c => [("conflict", c.toJson)]

def CommandReply.toJson (r : CommandReply) : Json :=
  .obj ([("success", .bool (CommandOutput.succeeded r.outcome)), ("status", .ofNat r.status),
    ("revision", .ofNat r.revision)] ++ CommandOutput.members r.outcome)

/-- One command of a batch as JSON. -/
def BatchItem.toJson (i : BatchItem) : Json :=
  .obj ([("index", .ofNat i.index), ("success", .bool (CommandOutput.succeeded i.outcome)),
    ("status", .ofNat (CommandOutput.statusOf i.outcome))] ++ CommandOutput.members i.outcome)

/-- A reply to a batch as JSON. -/
def BatchReply.toJson (r : BatchReply) : Json :=
  let (rolledBack, results, conflict) := match r.verdict with
    | .rejected c => (false, [], some c)
    | .finished _ rolledBack results => (rolledBack, results, none)
  let successes := results.countP fun i => CommandOutput.succeeded i.outcome
  let failures := results.length - successes
  .obj ([("success", .bool (failures == 0 && conflict.isNone)), ("status", .ofNat r.status),
    ("transactional", .bool r.transactional), ("total", .ofNat r.total),
    ("successCount", .ofNat successes), ("failureCount", .ofNat failures),
    ("rolledBack", .bool rolledBack), ("results", .ofList BatchItem.toJson results),
    ("revision", .ofNat r.revision)] ++ Json.member? "conflict" Conflict.toJson conflict)

/-- A request for one command in JSON. -/
def CommandRequest.ofJson : Json.Decoder CommandRequest := fun v => do
  let r ← Record.ofJson 2 v
  return {
    baseRevision := ← r.optional 0 "baseRevision" Json.Decode.nat64
    command := ← r.withDefault 1 "command" .null Json.Decode.raw }

/-- A request for one command as JSON. -/
def CommandRequest.toJson (r : CommandRequest) : Json :=
  .obj (Json.member? "baseRevision" .ofNat r.baseRevision ++ [("command", r.command)])

/-- A request for several commands in JSON. -/
def BatchRequest.ofJson : Json.Decoder BatchRequest := fun v => do
  let r ← Record.ofJson 4 v
  return {
    baseRevision := ← r.optional 0 "baseRevision" Json.Decode.nat64
    transactional := ← r.withDefault 1 "transactional" false Json.Decode.bool
    continueOnError := ← r.withDefault 2 "continueOnError" false Json.Decode.bool
    commands := ← r.withDefault 3 "commands" [] (Json.Decode.list Json.Decode.raw) }

/-- A request for several commands as JSON. -/
def BatchRequest.toJson (r : BatchRequest) : Json :=
  .obj (Json.member? "baseRevision" .ofNat r.baseRevision ++
    [("transactional", .bool r.transactional), ("continueOnError", .bool r.continueOnError),
     ("commands", .arr r.commands)])

end SharedScene
