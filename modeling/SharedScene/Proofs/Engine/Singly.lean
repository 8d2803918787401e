import SharedScene.Proofs.Command.Congruence
import SharedScene.Proofs.Engine.Revision
import SharedScene.Proofs.Engine.Transaction
import SharedScene.Proofs.Engine.Turn

/-!
# A transaction and its commands one by one

The commands of a transaction may as well be sent one by one, each in a request of its own, up to
the first that fails (`Engine.Singly`). A transaction gathers leases under one owner, and single
requests take and release theirs under an owner each; and what single requests do is published
before the next one comes. None of this makes a difference to a command, as long as no owner in play
has a live lease already: the outcomes are the same, and when no command fails so are the scenes and
the events (`Engine.transaction_runs_singly`).
-/

namespace SharedScene

/-- What is read from a list is read from its items. -/
theorem Json.Decode.exists_of_mem_list {β : Type} {read : Json.Decoder β} {v : Json} {out : List β}
    (h : Json.Decode.list read v = .ok out) : ∀ b ∈ out, ∃ item, read item = .ok b := by
  unfold list at h
  split at h
  · next items =>
    induction items generalizing out with
    | nil =>
      cases h
      exact fun b hb => absurd hb List.not_mem_nil
    | cons item items ih =>
      rw [List.mapM_cons] at h
      obtain ⟨first, hfirst, h⟩ := Success.bind_eq_ok.mp h
      obtain ⟨rest, hrest, h⟩ := Success.bind_eq_ok.mp h
      obtain rfl := Success.pure_eq_ok.mp h
      intro b hb
      rcases List.mem_cons.mp hb with rfl | hb
      · exact ⟨item, hfirst⟩
      · exact ih hrest b hb
  · cases h

/-- The commands of a request that was read can be read themselves. -/
theorem BatchRequest.isReadable_of_mem {body : Json} {request : BatchRequest}
    (h : BatchRequest.ofJson body = .ok request) :
    ∀ raw ∈ request.commands, raw.isReadable = true := by
  unfold BatchRequest.ofJson at h
  obtain ⟨record, _, h⟩ := Success.bind_eq_ok.mp h
  obtain ⟨base, _, h⟩ := Success.bind_eq_ok.mp h
  obtain ⟨transactional, _, h⟩ := Success.bind_eq_ok.mp h
  obtain ⟨continueOnError, _, h⟩ := Success.bind_eq_ok.mp h
  obtain ⟨commands, hcommands, h⟩ := Success.bind_eq_ok.mp h
  obtain rfl := Success.pure_eq_ok.mp h
  intro raw hraw
  unfold Json.Record.withDefault at hcommands
  obtain ⟨part, _, hcommands⟩ := Success.bind_eq_ok.mp hcommands
  cases part with
  | none =>
    obtain rfl := Success.pure_eq_ok.mp hcommands
    exact absurd hraw List.not_mem_nil
  | some v =>
    obtain ⟨item, hitem⟩ := Json.Decode.exists_of_mem_list hcommands raw hraw
    unfold Json.Decode.raw at hitem
    split at hitem
    · next hreadable =>
      cases hitem
      exact hreadable
    · cases hitem

namespace Engine

open LeasedScene Store

variable {e last : Engine} {route : CommandRoute} {body raw : Json} {key : Option String}
  {commands : List Json} {results : List (Except Conflict CommandOutput)}

/-- A request for one command that is carried out, for the current revision if for any. -/
structure Asks (e : Engine) (body : Json) (key : Option String) (raw : Json) : Prop where
  reads : ∃ base, CommandRequest.ofJson body = .ok ⟨base, raw⟩ ∧ ∀ r, base = some r → r = e.revision
  executed : (Act.answer .command body key).IsExecuted e

/-- Commands are sent one by one, up to the first that fails: what becomes of them, and the engine
afterwards. -/
inductive Singly : Engine → List Json → List (Except Conflict CommandOutput) → Engine → Prop where
  | done {e : Engine} : Singly e [] [] e
  | failed {e : Engine} {body raw : Json} {key : Option String} {rest : List Json} {c : Conflict}
      (asks : e.Asks body key raw) (fails : (e.answer .command body key).1.outcomes = [.error c]) :
      Singly e (raw :: rest) [.error c] (e.answer .command body key).2
  | next {e last : Engine} {body raw : Json} {key : Option String} {rest : List Json}
      {output : CommandOutput} {results : List (Except Conflict CommandOutput)}
      (asks : e.Asks body key raw)
      (succeeds : (e.answer .command body key).1.outcomes = [.ok output])
      (others : Singly (e.answer .command body key).2 rest results last) :
      Singly e (raw :: rest) (.ok output :: results) last

/-! ## One request -/

/-- What a request for one command does, when it is carried out. -/
theorem answer_single (h : e.Asks body key raw) :
    let done := e.scene.runAlone raw (e.ownerAt 0) e.now
    let after := (e.answer .command body key).2
    (e.answer .command body key).1.outcomes = [done.1] ∧
      after.scene = ⟨done.2.store.takeEvents, done.2.leases⟩ ∧
      after.published = e.published ++ done.2.store.outbox ∧
      after.owners = e.owners + 1 ∧ after.now = e.now := by
  intro done after
  obtain ⟨base, hbody, hcurrent⟩ := h.reads
  rcases hget : e.replies.get (CommandRoute.command.scopedKey key) e.now with ⟨kept, replies⟩
  obtain rfl : kept = none := (congrArg Prod.fst hget).symm.trans h.executed
  have hstale := staleConflict?_of_current (s := e.scene) hcurrent
  have hrun : Engine.runRoute { e with replies } .command body =
      (.command ⟨done.1, done.2.store.revision⟩,
        { e with replies, scene := done.2, owners := e.owners + 1 }) := by
    unfold runRoute runCommand
    rw [hbody]
    dsimp only
    unfold LeasedScene.command
    dsimp only
    rw [hstale]
    rfl
  have hexecute := answer_of_executed body hget
  rw [hrun] at hexecute
  show (e.answer .command body key).1.outcomes = _ ∧ (e.answer .command body key).2.scene = _ ∧
    (e.answer .command body key).2.published = _ ∧ (e.answer .command body key).2.owners = _ ∧
    (e.answer .command body key).2.now = _
  rw [hexecute]
  exact ⟨rfl, rfl, rfl, rfl, rfl⟩

/-- Every command can be sent, under no key and for no revision. -/
theorem asks_of_isReadable (e : Engine) (h : raw.isReadable = true) :
    e.Asks (CommandRequest.mk none raw).toJson none raw := by
  refine ⟨⟨none, ?_, fun _ h => nomatch h⟩, rfl⟩
  have hraw : Json.Decode.raw raw = .ok raw := if_pos h
  show (Json.Decode.raw raw >>= fun _ => _) = _
  rw [hraw]
  rfl

/-- So any commands can be sent one by one. -/
theorem exists_singly (e : Engine) (h : ∀ raw ∈ commands, raw.isReadable = true) :
    ∃ results last, e.Singly commands results last := by
  induction commands generalizing e with
  | nil => exact ⟨[], e, .done⟩
  | cons raw rest ih =>
    have hasks := asks_of_isReadable e (h raw List.mem_cons_self)
    have houtcome := (answer_single hasks).1
    cases hrun : (e.scene.runAlone raw (e.ownerAt 0) e.now).1 with
    | error c =>
      rw [hrun] at houtcome
      exact ⟨_, _, .failed hasks houtcome⟩
    | ok output =>
      rw [hrun] at houtcome
      obtain ⟨results, last, hothers⟩ :=
        ih (e.answer .command _ none).2 fun raw' hmem => h raw' (List.mem_cons_of_mem _ hmem)
      exact ⟨_, _, .next hasks houtcome hothers⟩

/-! ## One by one, and all at once -/

section Matching

variable {b : LeasedScene} {owner : Owner} {events : List Event}

/-- A command that is sent alone has the outcome that it has in a scene where the same leases stand
in its way. Afterwards the same leases do, in both scenes, and the stores are the same but for the
events, which are published. -/
theorem single_matches (h : e.Asks body key raw) (hstore : b.store = e.scene.store.preceded events)
    (hleases : ∀ p, b.leases.standing? owner e.now p = e.scene.leases.live? e.now p)
    (hidle : e.scene.leases.IsIdle (e.ownerAt 0) e.now) :
    let ran := b.run raw owner e.now
    let after := (e.answer .command body key).2
    (e.answer .command body key).1.outcomes = [ran.1] ∧
      (∀ p, ran.2.leases.standing? owner e.now p = after.scene.leases.live? e.now p) ∧
      (∀ p, after.scene.leases.live? e.now p = e.scene.leases.live? e.now p) ∧
      ∃ new, ran.2.store = after.scene.store.preceded (events ++ new) ∧
        after.published = e.published ++ new ∧ after.scene.store.outbox = [] := by
  intro ran after
  obtain ⟨houtcome, hscene, hpublished, _⟩ := answer_single h
  obtain ⟨hran, hleft⟩ := run_congr hstore
    (fun p => (hleases p).trans (LeaseTable.standing?_of_isIdle hidle p).symm) raw
  have hlive : ∀ p, after.scene.leases.live? e.now p = e.scene.leases.live? e.now p := by
    intro p
    rw [show after.scene = _ from hscene]
    exact live?_runAlone hidle raw p
  refine ⟨?_, fun p => ?_, hlive, _, ?_, hpublished, ?_⟩
  · rw [houtcome]
    exact congrArg ([·]) hran.symm
  · rw [hlive]
    exact (standing?_run b raw owner e.now p).trans (hleases p)
  · rw [show after.scene = _ from hscene, ← preceded_preceded]
    exact hleft.trans (congrArg _ (takeEvents_preceded _).symm)
  · rw [show after.scene = _ from hscene]
    rfl

/-- Commands that were sent one by one have the results that they have one after the other under
one owner, in a scene where the same leases stand in the way; and they do the same to the store, but
for the events, which are published. -/
theorem Singly.runEach (hs : e.Singly commands results last)
    (hstore : b.store = e.scene.store.preceded events)
    (hleases : ∀ p, b.leases.standing? owner e.now p = e.scene.leases.live? e.now p)
    (hidle : ∀ i < commands.length, e.scene.leases.IsIdle (e.ownerAt i) e.now)
    (hout : e.scene.store.outbox = []) (index : Nat) :
    let done := LeasedScene.runEach false (fun s _ raw => s.run raw owner e.now) b index commands
    done.1 = numbered index results ∧
      ∃ more, done.2.store = last.scene.store.preceded (events ++ more) ∧
        last.published = e.published ++ more ∧ last.scene.store.outbox = [] := by
  induction hs generalizing b events index with
  | done =>
    refine ⟨rfl, [], ?_, (List.append_nil _).symm, hout⟩
    rw [List.append_nil]
    exact hstore
  | failed asks fails =>
    obtain ⟨houtcome, _, _, hrest⟩ :=
      single_matches asks hstore hleases (hidle 0 (Nat.succ_pos _))
    have hran := List.singleton_inj.mp (houtcome.symm.trans fails)
    rw [runEach_cons]
    dsimp only
    rw [hran]
    exact ⟨rfl, hrest⟩
  | @next e last body raw key rest output results asks succeeds others ih =>
    obtain ⟨houtcome, hleases', hlive, new, hstore', hpublished, hout'⟩ :=
      single_matches asks hstore hleases (hidle 0 (Nat.succ_pos _))
    obtain ⟨_, _, _, howners, hnow⟩ := answer_single asks
    have hran := List.singleton_inj.mp (houtcome.symm.trans succeeds)
    -- the next request takes the next owner, and finds the same leases live
    have hidle' : ∀ i < rest.length, (e.answer .command body key).2.scene.leases.IsIdle
        ((e.answer .command body key).2.ownerAt i) e.now := by
      intro i hi p lease hlease
      have howner : (e.answer .command body key).2.ownerAt i = e.ownerAt (i + 1) := by
        unfold ownerAt
        rw [howners, Nat.add_right_comm e.owners 1 i]
        rfl
      rw [howner]
      exact hidle (i + 1) (Nat.succ_lt_succ hi) p lease (hlive p ▸ hlease)
    rw [hnow] at ih
    obtain ⟨hitems, more, hlast, hpublished', hout''⟩ :=
      ih hstore' hleases' hidle' hout' (index + 1)
    rw [runEach_cons]
    dsimp only
    rw [hran]
    refine ⟨congrArg (_ :: ·) hitems, new ++ more, ?_, ?_, hout''⟩
    · rw [← List.append_assoc]
      exact hlast
    · rw [hpublished', hpublished, List.append_assoc]

end Matching

/-! ## All at once -/

/-- There is a reason exactly when something failed. -/
theorem isSome_head?_reasons (index : Nat) (results : List (Except Conflict CommandOutput)) :
    (reasons (numbered index results)).head?.isSome = results.any failed := by
  rw [reasons_numbered]
  induction results with
  | nil => rfl
  | cons outcome results ih =>
    cases outcome with
    | ok output => exact ih
    | error c => rfl

/-- A transaction is taken back exactly when one of its commands fails. -/
theorem runTransactional_of_runEach {s : LeasedScene} {owner : Owner} {now : Instant}
    (h : (LeasedScene.runEach false (fun s _ raw => s.run raw owner now) s 0 commands).1 =
      numbered 0 results) :
    (∃ status, (s.runTransactional commands owner now).1 =
        .finished status (results.any failed) (numbered 0 results)) ∧
      (results.any failed = false → (s.runTransactional commands owner now).2 =
        (LeasedScene.runEach false (fun s _ raw => s.run raw owner now) s 0 commands).2.release
          owner) := by
  have hreasons := isSome_head?_reasons 0 results
  unfold runTransactional
  dsimp only
  rw [h]
  cases hhead : (reasons (numbered 0 results)).head? with
  | none =>
    rw [hhead] at hreasons
    rw [← hreasons]
    exact ⟨⟨_, rfl⟩, fun _ => rfl⟩
  | some reason =>
    rw [hhead] at hreasons
    rw [← hreasons]
    exact ⟨⟨_, rfl⟩, fun hnone => nomatch hnone⟩

/-- The commands of a transaction can be sent one by one instead, at the same time and up to the
first that fails, if no owner that the requests take has a live lease. However they are sent, every
command that is run has the same outcome, and so the first failure is the same command and the same
conflict; the transaction is taken back exactly when there is one. And if there is none, the engine
has the same forest, revision and waiting changes afterwards, and has published the same events. -/
theorem transaction_runs_singly {request : BatchRequest} (h : e.Reachable)
    (hbody : BatchRequest.ofJson body = .ok request) (htransactional : request.transactional = true)
    (hexecuted : (Act.answer .commands body key).IsExecuted e)
    (hcurrent : ∀ base, request.baseRevision = some base → base = e.revision)
    (hidle : ∀ i < request.commands.length, e.scene.leases.IsIdle (e.ownerAt i) e.now) :
    let after := (e.answer .commands body key).2
    (∃ results last, e.Singly request.commands results last) ∧
      ∀ results last, e.Singly request.commands results last →
        (∃ reply status, (e.answer .commands body key).1 = .batch reply ∧
          reply.verdict = .finished status (results.any failed) (numbered 0 results)) ∧
        (results.any failed = false →
          after.scene.store = last.scene.store ∧ after.published = last.published) := by
  intro after
  refine ⟨exists_singly e (BatchRequest.isReadable_of_mem hbody), fun results last hsingly => ?_⟩
  obtain ⟨hanswer, hscene, hpublished⟩ :=
    answer_transactional hbody htransactional hexecuted hcurrent
  have hout := h.settled.outbox
  have hstart : e.scene.store = e.scene.store.preceded [] := rfl
  have hdone :
      let done := LeasedScene.runEach false (fun s _ raw => s.run raw (e.ownerAt 0) e.now)
        e.scene 0 request.commands
      done.1 = numbered 0 results ∧
        ∃ more, done.2.store = last.scene.store.preceded ([] ++ more) ∧
          last.published = e.published ++ more ∧ last.scene.store.outbox = [] := by
    by_cases hsome : 0 < request.commands.length
    · have hfree := LeaseTable.standing?_of_isIdle (hidle 0 hsome)
      exact hsingly.runEach hstart hfree hidle hout 0
    · -- without any command nobody takes a lease
      rw [List.eq_nil_of_length_eq_zero (Nat.eq_zero_of_not_pos hsome)] at hsingly ⊢
      cases hsingly
      exact ⟨rfl, [], rfl, (List.append_nil _).symm, hout⟩
  obtain ⟨hitems, more, hstore, hlast, hout'⟩ := hdone
  obtain ⟨⟨status, hverdict⟩, hkept⟩ := runTransactional_of_runEach hitems
  refine ⟨⟨_, status, hanswer, hverdict⟩, fun hnone => ?_⟩
  rw [hkept hnone] at hscene hpublished
  refine ⟨?_, ?_⟩
  · rw [show after.scene = _ from hscene]
    show takeEvents _ = _
    rw [show LeasedScene.store (LeasedScene.release _ _) = _ from hstore]
    unfold takeEvents preceded
    rw [← hout']
  · rw [show after.published = _ from hpublished, hlast]
    rw [show LeasedScene.store (LeasedScene.release _ _) = _ from hstore]
    unfold preceded
    rw [hout', List.append_nil]
    rfl

/-- A transaction that puts a box on the shelf and then renames it. -/
def labelled : BatchRequest :=
  { baseRevision := some 1
    transactional := true
    continueOnError := false
    commands := [
      .obj [("op", .str "create"), ("parentPath", .arr [.str "Shelf"]), ("className", .str "Part"),
        ("name", .str "Box")],
      .obj [("op", .str "rename"), ("targetPath", .arr [.str "Shelf", .str "Box"]),
        ("name", .str "Crate")]] }

theorem transaction_runs_singly_labelled :
    ∃ results last, stocked.Singly labelled.commands results last ∧ results.any failed = false ∧
      (stocked.answer .commands labelled.toJson none).2.scene.store = last.scene.store ∧
      (stocked.answer .commands labelled.toJson none).2.published = last.published := by
  have hreachable : stocked.Reachable := ⟨{}, .stemmed "id", 0, _, rfl⟩
  have hbody : BatchRequest.ofJson labelled.toJson = .ok labelled := rfl
  have hexecuted : (Act.answer .commands labelled.toJson none).IsExecuted stocked := rfl
  have hrevision : stocked.revision = 1 := by decide +kernel
  have hcurrent : ∀ base, labelled.baseRevision = some base → base = stocked.revision := by
    rintro _ ⟨⟩
    exact hrevision.symm
  have hidle : ∀ i < labelled.commands.length,
      stocked.scene.leases.IsIdle (stocked.ownerAt i) stocked.now := by
    intro i _ p lease hlease
    cases hlease
  obtain ⟨⟨results, last, hsingly⟩, hall⟩ :=
    transaction_runs_singly hreachable hbody rfl hexecuted hcurrent hidle
  obtain ⟨⟨reply, status, hreply, hverdict⟩, hsame⟩ := hall results last hsingly
  have hresults : (stocked.answer .commands labelled.toJson none).1.outcomes = results := by
    rw [hreply]
    show reply.verdict.outcomes = results
    rw [hverdict]
    exact map_outcome_numbered 0 results
  have hnone : results.any failed = false := by
    rw [← hresults]
    decide +kernel
  exact ⟨results, last, hsingly, hnone, hsame hnone⟩

end Engine

end SharedScene
