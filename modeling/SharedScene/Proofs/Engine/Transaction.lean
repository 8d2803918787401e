import SharedScene.Proofs.Command.Transaction
import SharedScene.Proofs.Engine.Run

/-!
# A transactional request does all or nothing

What a transaction is for, said of the request that carries it: if one of its commands fails, the
engine has the scene, the revision and the waiting changes of before, and has published nothing
(`Engine.transaction_all_or_nothing`). The commands before the failure may have done anything.
-/

namespace SharedScene.Engine

open LeasedScene

variable {e : Engine} {body : Json} {key : Option String} {request : BatchRequest}

/-- A transactional request for the current revision runs as a transaction of its own owner. -/
theorem batch_transactional (htransactional : request.transactional = true)
    (hcurrent : ∀ base, request.baseRevision = some base → base = e.revision) :
    e.scene.batch request e.ownerAt e.now =
      let done := e.scene.runTransactional request.commands (e.ownerAt 0) e.now
      (⟨true, request.commands.length, done.1, done.2.store.revision⟩, done.2) := by
  have hstale := staleConflict?_of_current (s := e.scene) hcurrent
  have hmode : request.mode = .transactional := if_pos htransactional
  unfold batch
  rw [hstale, hmode, htransactional]

/-- What is left of an engine after it carried out a transactional request. -/
theorem answer_transactional (hbody : BatchRequest.ofJson body = .ok request)
    (htransactional : request.transactional = true)
    (hexecuted : (e.replies.get (CommandRoute.commands.scopedKey key) e.now).1 = none)
    (hcurrent : ∀ base, request.baseRevision = some base → base = e.revision) :
    let done := e.scene.runTransactional request.commands (e.ownerAt 0) e.now
    let after := (e.answer .commands body key).2
    (e.answer .commands body key).1 =
        .batch ⟨true, request.commands.length, done.1, done.2.store.revision⟩ ∧
      after.scene = ⟨done.2.store.takeEvents, done.2.leases⟩ ∧
      after.published = e.published ++ done.2.store.outbox := by
  intro done after
  rcases hget : e.replies.get (CommandRoute.commands.scopedKey key) e.now with ⟨kept, replies⟩
  rw [hget] at hexecuted
  obtain rfl := hexecuted
  have hbatch := batch_transactional (e := { e with replies }) htransactional hcurrent
  have hrun : Engine.runRoute { e with replies } .commands body =
      (.batch ⟨true, request.commands.length, done.1, done.2.store.revision⟩,
        { e with replies, scene := done.2, owners := e.owners +
          ownersTaken request.mode done.1 }) := by
    unfold runRoute runBatch
    rw [hbody]
    dsimp only
    rw [hbatch]
    rfl
  have hexecute := answer_of_executed body hget
  rw [hrun] at hexecute
  refine ⟨by rw [hexecute], ?_, ?_⟩
  · show (e.answer .commands body key).2.scene = _
    rw [hexecute]
    rfl
  · show (e.answer .commands body key).2.published = _
    rw [hexecute]
    rfl

/-- Of a transactional request that is carried out, for the current revision if for any: when none
of its commands fails the status is 200, the store is what all of them one after the other have
left, and the events that they have told are published. When one fails, the results end with the
first that does; the status is 423 if a lease of somebody else was in its way, and 409 otherwise;
the store is what it was, the supply of fresh ids apart, and nothing is published. Either way no
lease of the owner of the request is left. -/
theorem transaction_all_or_nothing (h : e.Reachable)
    (hbody : BatchRequest.ofJson body = .ok request) (htransactional : request.transactional = true)
    (hexecuted : (e.replies.get (CommandRoute.commands.scopedKey key) e.now).1 = none)
    (hcurrent : ∀ base, request.baseRevision = some base → base = e.revision) :
    let owner := e.ownerAt 0
    let outcomes := outcomes owner e.now e.scene request.commands
    let after := (e.answer .commands body key).2
    ∃ reply, (e.answer .commands body key).1 = .batch reply ∧
      reply.revision = after.revision ∧
      (∀ path lease, after.scene.leases.leases.get? path = some lease → lease.owner ≠ owner) ∧
      match outcomes.findIdx? failed with
      | none =>
        let ran := e.scene.afterRunning owner e.now request.commands
        reply.verdict = .finished 200 false (numbered 0 outcomes) ∧
          after.scene.store = ran.store.takeEvents ∧
          after.published = e.published ++ ran.store.outbox
      | some i => ∃ raw, request.commands[i]? = some raw ∧
          reply.verdict = .finished
            (if (e.scene.afterRunning owner e.now (request.commands.take i)).isBlocked
              raw owner e.now then 423 else 409)
            true (numbered 0 (outcomes.take (i + 1))) ∧
          after.scene.store = { e.scene.store with ids := after.scene.store.ids } ∧
          after.published = e.published := by
  intro owner outcomes after
  obtain ⟨hwf, hout⟩ := h.settled
  obtain ⟨hanswer, hscene, hpublished⟩ :=
    answer_transactional hbody htransactional hexecuted hcurrent
  cases hfirst : outcomes.findIdx? failed with
  | none =>
    have hdone := runTransactional_of_none hfirst
    rw [hdone] at hanswer hscene hpublished
    refine ⟨_, hanswer, ?_, fun path lease hlease => ?_, rfl, ?_, hpublished⟩
    · show _ = after.scene.store.revision
      rw [hscene]
      rfl
    · rw [hscene] at hlease
      exact owner_ne_of_get?_release hlease
    · rw [hscene]
      rfl
  | some i =>
    obtain ⟨raw, hraw, hverdict, ids, leases, hdone⟩ := runTransactional_of_some hwf hfirst
    rw [hdone] at hanswer hscene hpublished
    refine ⟨_, hanswer, ?_, fun path lease hlease => ?_, raw, hraw, hverdict, ?_, ?_⟩
    · show _ = after.scene.store.revision
      rw [hscene]
      rfl
    · rw [hscene] at hlease
      exact owner_ne_of_get?_release hlease
    · -- nothing waits to be published between requests, so nothing is lost with the events
      rw [hscene]
      show Store.takeEvents { e.scene.store with ids } = _
      unfold Store.takeEvents
      rw [← hout]
      rfl
    · rw [hpublished]
      show e.published ++ e.scene.store.outbox = _
      rw [hout, List.append_nil]

/-- An engine with one shelf. -/
def stocked : Engine :=
  (new {} (.stemmed "id") 0).run [.resync [⟨⟨"a"⟩, "Folder", "Shelf", none, .empty⟩]]

/-- A transaction that puts a box on the shelf and then deletes what is not there. -/
def spoiled : BatchRequest :=
  { baseRevision := some 1
    transactional := true
    continueOnError := false
    commands := [
      .obj [("op", .str "create"), ("parentPath", .arr [.str "Shelf"]), ("className", .str "Part"),
        ("name", .str "Box")],
      .obj [("op", .str "delete"), ("targetPath", .arr [.str "Nowhere"])]] }

theorem transaction_all_or_nothing_spoiled :
    stocked.Reachable ∧ ∃ reply, (stocked.answer .commands spoiled.toJson none).1 = .batch reply ∧
      reply.status = 409 ∧ reply.revision = 1 ∧
      (stocked.answer .commands spoiled.toJson none).2.published = stocked.published := by
  have hreachable : stocked.Reachable := ⟨{}, .stemmed "id", 0, _, rfl⟩
  have hbody : BatchRequest.ofJson spoiled.toJson = .ok spoiled := rfl
  have hexecuted :
      (stocked.replies.get (CommandRoute.commands.scopedKey none) stocked.now).1 = none := rfl
  have hrevision : stocked.revision = 1 := by decide +kernel
  have hcurrent : ∀ base, spoiled.baseRevision = some base → base = stocked.revision := by
    rintro _ ⟨⟩
    exact hrevision.symm
  have hfirst : (outcomes (stocked.ownerAt 0) stocked.now stocked.scene
      spoiled.commands).findIdx? failed = some 1 := by decide +kernel
  have hfree : (stocked.scene.afterRunning (stocked.ownerAt 0) stocked.now
      (spoiled.commands.take 1)).isBlocked
        (.obj [("op", .str "delete"), ("targetPath", .arr [.str "Nowhere"])])
        (stocked.ownerAt 0) stocked.now = false := by decide +kernel
  obtain ⟨reply, hreply, hafter, _, hmatch⟩ :=
    transaction_all_or_nothing hreachable hbody rfl hexecuted hcurrent
  rw [hfirst] at hmatch
  obtain ⟨raw, hraw, hverdict, hstore, hpublished⟩ := hmatch
  obtain rfl := Option.some.inj hraw
  rw [hfree] at hverdict
  refine ⟨hreachable, reply, hreply, ?_, ?_, hpublished⟩
  · rw [BatchReply.status, hverdict]
    rfl
  · rw [hafter, Engine.revision, hstore]
    exact hrevision

end SharedScene.Engine
