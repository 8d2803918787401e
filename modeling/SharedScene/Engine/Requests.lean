import SharedScene.Engine.Basic

/-!
# Requests that change the scene

Agents send commands, the bridge sends resyncs and single changes and takes what waits for it, and
anybody may hold leases across requests. Events are published when the request that caused them is
over, so a batch that was rolled back publishes nothing.

A command or a batch may carry a **key**. The first request under a key is carried out, whatever
comes of it; a later one under the same key gets the same reply and does nothing. Commands and
batches have keys of their own, told apart by the name of the route.
-/

namespace SharedScene

/-- The two ways in for commands. -/
inductive CommandRoute where
  | command
  | commands
deriving DecidableEq, Repr

def CommandRoute.name : CommandRoute → String
  | .command => "command"
  | .commands => "commands"

/-- A caller's key as it is kept: under the name of its route. An empty key is none. -/
def CommandRoute.scopedKey (route : CommandRoute) (key : Option String) : Option String :=
  (key.filter fun k => !k.isEmpty).map fun k => route.name ++ ":" ++ k

/-- A request that cannot be read. -/
def malformedRequest (e : Json.DecodeError) (revision : Nat) : Conflict :=
  .validation .null s!"malformed request: {e.message}" revision

namespace Engine

/-- The engine with the scene's events published. -/
def publish (e : Engine) : Engine :=
  { e with published := e.published ++ e.scene.store.outbox
           scene := { e.scene with store := e.scene.store.takeEvents } }

/-- The owner of the `i`-th further request, counted from zero. -/
def ownerAt (e : Engine) (i : Nat) : Owner := Identifier.ofRequest (e.owners + i + 1)

/-- Carries out a request for one command. -/
def runCommand (e : Engine) (request : Json) : CommandReply × Engine :=
  match CommandRequest.ofJson request with
  | .error err => (⟨.error (malformedRequest err e.revision), e.revision⟩, e)
  | .ok request =>
    let (reply, scene) := e.scene.command request (e.ownerAt 0) e.now
    (reply, { e with scene, owners := e.owners + 1 })

/-- Carries out a request for several commands. -/
def runBatch (e : Engine) (request : Json) : BatchReply × Engine :=
  match BatchRequest.ofJson request with
  | .error err => (⟨false, 0, .rejected (malformedRequest err e.revision), e.revision⟩, e)
  | .ok request =>
    let (reply, scene) := e.scene.batch request e.ownerAt e.now
    (reply, { e with
      scene, owners := e.owners + LeasedScene.ownersTaken request.mode reply.verdict })

/-- Carries out a request of a route. -/
def runRoute (e : Engine) (route : CommandRoute) (request : Json) : Answer × Engine :=
  match route with
  | .command =>
    let (reply, e) := e.runCommand request
    (.command reply, e)
  | .commands =>
    let (reply, e) := e.runBatch request
    (.batch reply, e)

/-- Answers a request: with the reply that is kept under its key, or by carrying it out and keeping
the reply. -/
def answer (e : Engine) (route : CommandRoute) (request : Json) (key : Option String) :
    Answer × Engine :=
  let key := route.scopedKey key
  match e.replies.get key e.now with
  | (some kept, replies) => (kept.body, { e with replies })
  | (none, replies) =>
    let (a, e) := { e with replies }.runRoute route request
    let e := e.publish
    (a, { e with replies := e.replies.set key a.status a e.now })

/-- Leases paths to an owner until it releases them or their time is over. -/
def acquire (e : Engine) (owner : Owner) (paths : List Path) :
    Except LeaseConflict (List Lease) × Engine :=
  let (result, leases) := e.scene.leases.acquire owner paths e.now
  (result, { e with scene := { e.scene with leases } })

/-- Releases all leases of an owner, and counts them. -/
def release (e : Engine) (owner : Owner) : Nat × Engine :=
  (e.scene.leases.countOf owner, { e with scene := e.scene.release owner })

/-- Brings the scene to what the bridge reports. -/
def resync (e : Engine) (reports : List Report) : ResyncSummary × Engine :=
  let (summary, store) := e.scene.store.replaceAll reports
  (summary, { e with scene := { e.scene with store } }.publish)

/-- Applies one change of a collaborator. -/
def change (e : Engine) (message : Message) (origin : Origin) :
    Except SceneError (Outcome × Engine) := do
  let (outcome, store) ← e.scene.store.apply message origin
  return (outcome, { e with scene := { e.scene with store } }.publish)

/-- Hands the waiting changes to the bridge. -/
def takePending (e : Engine) : List PendingChange × Engine :=
  (e.scene.store.pending.entries,
    { e with scene := { e.scene with store := e.scene.store.takePending } })

end Engine

end SharedScene
