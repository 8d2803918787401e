import SharedScene.Engine.Requests
import SharedScene.Proofs.Command.Pipeline

/-!
# Runs of an engine

A **run** is any sequence of requests, of waiting, and of whatever happens to the test runs
(`Engine.Act`). Between two of them an engine is **settled**: its scene is well-formed, and every
event is published. What each of them publishes leads an observer from the scene before it to the
scene after it, so one who holds the scene at some time and follows all that is published from then
on holds the scene at every later time (`Engine.observer_holds_scene`).
-/

namespace SharedScene.Engine

open Forest

/-- What can happen to an engine. -/
inductive Act where
  /-- A request for one command or for several, under a key or under none. -/
  | answer (route : CommandRoute) (request : Json) (key : Option String)
  | change (message : Message) (origin : Origin)
  | resync (reports : List Report)
  | takePending
  | acquire (owner : Owner) (paths : List Path)
  | release (owner : Owner)
  | readLeases
  | advance (ms : Int)
  | setClock (ms : Int)
  /-- Whatever the test runs become; the scene has no part in it. -/
  | setRuns (runs : Scheduler)

/-- The engine after something happened. A change that is refused leaves it as it is. -/
def perform (e : Engine) : Act → Engine
  | .answer route request key => (e.answer route request key).2
  | .change message origin =>
    match e.change message origin with
    | .ok (_, e') => e'
    | .error _ => e
  | .resync reports => (e.resync reports).2
  | .takePending => e.takePending.2
  | .acquire owner paths => (e.acquire owner paths).2
  | .release owner => (e.release owner).2
  | .readLeases => e.leases.2
  | .advance ms => e.advance ms
  | .setClock ms => e.setClock ms
  | .setRuns runs => { e with runs }

/-- The engine after several things happened, in their order. -/
def run (e : Engine) (acts : List Act) : Engine := acts.foldl perform e

/-- The engines that come about from a new one. -/
def Reachable (e : Engine) : Prop :=
  ∃ config ids clock acts, e = (new config ids clock).run acts

variable {e e' e'' : Engine}

/-! ## Between requests -/

/-- What holds between two requests. -/
structure Settled (e : Engine) : Prop where
  wellFormed : e.scene.store.forest.WellFormed
  outbox : e.scene.store.outbox = []

/-- What an engine publishes after another one leads an observer from the scene of that one to its
own. -/
def Tells (e e' : Engine) : Prop :=
  ∃ events copy, e'.published = e.published ++ events ∧
    e.scene.store.forest.follow? events = some copy ∧ copy.Agree e'.scene.store.forest

theorem Tells.trans (h : e.Tells e') (k : e'.Tells e'') : e.Tells e'' := by
  obtain ⟨events, copy, hpub, hcopy, hagree⟩ := h
  obtain ⟨more, copy', hpub', hcopy', hagree'⟩ := k
  obtain ⟨copy'', hcopy'', hagree''⟩ := follow?_agree hagree.symm hcopy'
  refine ⟨events ++ more, copy'', ?_, ?_, hagree''.symm.trans hagree'⟩
  · rw [hpub', hpub, List.append_assoc]
  · rw [follow?_append, hcopy]
    exact hcopy''

/-- What does not touch the scene, and publishes nothing. -/
theorem Settled.keep (h : e.Settled) (hforest : e'.scene.store.forest = e.scene.store.forest)
    (hout : e'.scene.store.outbox = e.scene.store.outbox) (hpub : e'.published = e.published) :
    e'.Settled ∧ e.Tells e' := by
  refine ⟨⟨hforest ▸ h.wellFormed, hout.trans h.outbox⟩, [], e.scene.store.forest, ?_, rfl, ?_⟩
  · rw [hpub, List.append_nil]
  · rw [hforest]
    exact .refl _

/-- Publishing what a request did to the scene. -/
theorem Settled.publish (h : e.Settled) (hleads : e.scene.store.Leads e'.scene.store)
    (hpub : e'.published = e.published) : e'.publish.Settled ∧ e.Tells e'.publish := by
  obtain ⟨events, copy, hout, hcopy, hagree⟩ := hleads.tells
  refine ⟨⟨hleads.wellFormed, rfl⟩, events, copy, ?_, hcopy, hagree⟩
  show e'.published ++ e'.scene.store.outbox = _
  rw [hpub, hout, h.outbox, List.nil_append]

/-! ## One thing after the other -/

/-- A change that is refused does nothing, and one that is applied is published. -/
theorem perform_change (e : Engine) (message : Message) (origin : Origin) :
    e.perform (.change message origin) = e ∨ ∃ outcome store,
      e.scene.store.apply message origin = .ok (outcome, store) ∧
      e.perform (.change message origin) =
        publish { e with scene := { e.scene with store } } := by
  simp only [perform, change]
  cases e.scene.store.apply message origin with
  | error err => exact .inl rfl
  | ok done => exact .inr ⟨done.1, done.2, rfl, rfl⟩

/-- A request that is carried out leads on, and publishes nothing yet. -/
theorem runRoute_leads (h : e.scene.store.forest.WellFormed) (route : CommandRoute)
    (request : Json) : e.scene.store.Leads (e.runRoute route request).2.scene.store ∧
      (e.runRoute route request).2.published = e.published := by
  cases route with
  | command =>
    show e.scene.store.Leads (e.runCommand request).2.scene.store ∧
      (e.runCommand request).2.published = e.published
    unfold runCommand
    split
    · exact ⟨.refl h, rfl⟩
    · exact ⟨LeasedScene.command_leads h _ _ _, rfl⟩
  | commands =>
    show e.scene.store.Leads (e.runBatch request).2.scene.store ∧
      (e.runBatch request).2.published = e.published
    unfold runBatch
    split
    · exact ⟨.refl h, rfl⟩
    · exact ⟨LeasedScene.batch_leads h _ _ _, rfl⟩

section Replies

variable {route : CommandRoute} {key : Option String} {replies : ReplayCache Answer}

/-- The answer to a request whose reply is kept. -/
theorem answer_of_kept (request : Json) {kept : StoredReply Answer}
    (h : e.replies.get (route.scopedKey key) e.now = (some kept, replies)) :
    e.answer route request key = (kept.body, { e with replies }) := by
  unfold answer
  dsimp only
  rw [h]

/-- The answer to a request that is carried out, and what the engine publishes and keeps. -/
theorem answer_of_executed (request : Json)
    (h : e.replies.get (route.scopedKey key) e.now = (none, replies)) :
    let done := Engine.runRoute { e with replies } route request
    e.answer route request key = (done.1, { done.2.publish with
      replies := done.2.replies.set (route.scopedKey key) done.1.status done.1 done.2.now }) := by
  unfold answer
  dsimp only
  rw [h]
  rfl

end Replies

/-- Whatever happens to a settled engine leaves it settled, and is told. -/
theorem Settled.perform (h : e.Settled) (act : Act) :
    (e.perform act).Settled ∧ e.Tells (e.perform act) := by
  cases act with
  | answer route request key =>
    show (e.answer route request key).2.Settled ∧ e.Tells (e.answer route request key).2
    rcases hkept : e.replies.get (route.scopedKey key) e.now with ⟨kept | kept, replies⟩
    · rw [answer_of_executed request hkept]
      obtain ⟨hleads, hpub⟩ := runRoute_leads (e := { e with replies }) h.wellFormed route request
      obtain ⟨hsettled, htells⟩ := h.publish hleads hpub
      exact ⟨⟨hsettled.wellFormed, hsettled.outbox⟩, htells⟩
    · rw [answer_of_kept request hkept]
      exact h.keep rfl rfl rfl
  | change message origin =>
    rcases perform_change e message origin with heq | ⟨outcome, store, ha, heq⟩
    · rw [heq]
      exact h.keep rfl rfl rfl
    · rw [heq]
      exact h.publish (.apply h.wellFormed ha) rfl
  | resync reports => exact h.publish (.replaceAll h.wellFormed reports) rfl
  | takePending => exact h.keep rfl rfl rfl
  | acquire owner paths => exact h.keep rfl rfl rfl
  | release owner => exact h.keep rfl rfl rfl
  | readLeases => exact h.keep rfl rfl rfl
  | advance ms => exact h.keep rfl rfl rfl
  | setClock ms => exact h.keep rfl rfl rfl
  | setRuns runs => exact h.keep rfl rfl rfl

/-- So does a run. -/
theorem Settled.run (h : e.Settled) (acts : List Act) :
    (e.run acts).Settled ∧ e.Tells (e.run acts) := by
  induction acts generalizing e with
  | nil => exact h.keep rfl rfl rfl
  | cons act acts ih =>
    obtain ⟨hsettled, htells⟩ := h.perform act
    obtain ⟨hlast, hrest⟩ := ih hsettled
    exact ⟨hlast, htells.trans hrest⟩

theorem settled_new (config : Config) (ids : IdSupply) (clock : Int) :
    (new config ids clock).Settled :=
  ⟨wellFormed_nil, rfl⟩

theorem Reachable.settled (h : e.Reachable) : e.Settled := by
  obtain ⟨config, ids, clock, acts, rfl⟩ := h
  exact ((settled_new config ids clock).run acts).1

/-- An observer who holds the scene of an engine and applies every event that is published from then
on, each as it says and in order, can always do so, and holds the scene of the engine whatever has
happened to it: the same instances in the same places and order, with the same classes, names and
properties. Two values count as the same when they are identical or equal, since an engine does not
publish that a zero changed its sign. -/
theorem observer_holds_scene (config : Config) (ids : IdSupply) (clock : Int)
    (before acts : List Act) :
    let e := (new config ids clock).run before
    ∃ events copy, (e.run acts).published = e.published ++ events ∧
      e.scene.store.forest.follow? events = some copy ∧
      copy.Agree (e.run acts).scene.store.forest :=
  (((settled_new config ids clock).run before).1.run acts).2

end SharedScene.Engine
