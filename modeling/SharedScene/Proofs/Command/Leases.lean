import SharedScene.Proofs.Command.Turn

/-!
# What a request leaves of the leases

A command leases its footprint, and the leases of its owner are given back at the end of its turn or
of the whole transaction. Each command adds leases of its own owner alone (`LeasedScene.get?_run`),
and what an owner gives back is all that it has. So every lease that is in the table after a request
was there before it (`LeasedScene.get?_command`, `LeasedScene.get?_batch`); and a live lease of
somebody else is there still, because nobody acquires over it.

A command that fails before it asks for its leases touches neither the table nor what the table
knows of refusals (`LeasedScene.run_of_unprepared`).
-/

namespace SharedScene

namespace LeaseTable

/-- An owner has no lease, not even one that is over. -/
def HoldsNone (t : LeaseTable) (owner : Owner) : Prop :=
  ∀ p lease, t.leases.get? p = some lease → lease.owner ≠ owner

/-- Two tables know of the same refusals. -/
def SameRefusals (before after : LeaseTable) : Prop :=
  after.contentionCount = before.contentionCount ∧ after.recent = before.recent

/-- The table after a request, seen from before it; the request ran under some owners, in turns. -/
structure GivenBack (before after : LeaseTable) (owners : Owner → Prop) (turns : List Turn)
    (now : Instant) : Prop where
  /-- Its owners have no lease if they had none, -/
  none : ∀ owner, owners owner → before.HoldsNone owner → after.HoldsNone owner
  /-- and no live one if they had no live one. -/
  idle : ∀ owner, owners owner → before.IsIdle owner now → after.IsIdle owner now
  /-- The live leases of others are the same. -/
  others : ∀ p lease, ¬ owners lease.owner → lease.isLive now = true →
    (after.leases.get? p = some lease ↔ before.leases.get? p = some lease)
  /-- When every command failed before it asked for leases, no refusal was noted. -/
  unheard : (∀ turn ∈ turns, ∃ c, turn.scene.prepare turn.raw = .error c) →
    before.SameRefusals after

/-- A request that adds no lease and leaves the live ones of others has given its own back. -/
theorem GivenBack.of_kept {before after : LeaseTable} {owners : Owner → Prop} {turns : List Turn}
    {now : Instant}
    (hadds : ∀ p lease, after.leases.get? p = some lease → before.leases.get? p = some lease)
    (hkeeps : ∀ p lease, ¬ owners lease.owner → lease.isLive now = true →
      before.leases.get? p = some lease → after.leases.get? p = some lease)
    (hunheard : (∀ turn ∈ turns, ∃ c, turn.scene.prepare turn.raw = .error c) →
      before.SameRefusals after) :
    before.GivenBack after owners turns now where
  none _ _ hnone p lease h := hnone p lease (hadds p lease h)
  idle _ _ hidle p lease h := by
    obtain ⟨hget, hlive⟩ := Option.filter_eq_some_iff.mp h
    exact hidle p lease (Option.filter_eq_some_iff.mpr ⟨hadds p lease hget, hlive⟩)
  others p lease hother hlive := ⟨hadds p lease, hkeeps p lease hother hlive⟩
  unheard := hunheard

end LeaseTable

namespace LeasedScene

open LeaseTable

variable {s : LeasedScene} {raw : Json} {owner : Owner} {owners : Nat → Owner} {now : Instant}
  {commands : List Json} {p : Path} {lease : Lease}

/-! ## Nothing is added -/

/-- A command adds leases of its owner alone. -/
theorem get?_run (h : (s.run raw owner now).2.leases.leases.get? p = some lease)
    (hother : lease.owner ≠ owner) : s.leases.leases.get? p = some lease := by
  rcases leases_run s raw owner now with heq | ⟨paths, heq⟩
  · rwa [heq] at h
  · rw [heq] at h
    exact get?_of_acquire h hother

/-- Nothing is left of them when the owner releases. -/
theorem get?_leftAlone (turn : Turn)
    (h : (turn.leftAlone now).leases.leases.get? p = some lease) :
    turn.scene.leases.leases.get? p = some lease := by
  obtain ⟨hrun, hother⟩ := get?_of_release h
  exact get?_run hrun hother

/-- Whatever becomes of a transaction, its owner releases last. -/
theorem leases_runTransactional (s : LeasedScene) (commands : List Json) (owner : Owner)
    (now : Instant) : (s.runTransactional commands owner now).2.leases =
      (leftBy (·.left now) s
        (turnsEach false now (·.left now) (fun _ => owner) s 0 commands)).leases.release owner := by
  unfold runTransactional
  rw [runEach_left]
  dsimp only
  split <;> rfl

theorem get?_runTransactional
    (h : (s.runTransactional commands owner now).2.leases.leases.get? p = some lease) :
    s.leases.leases.get? p = some lease := by
  rw [leases_runTransactional] at h
  obtain ⟨hleft, hother⟩ := get?_of_release h
  -- what is not the owner's own was there before each turn
  have hturn : ∀ turn ∈ turnsEach false now (·.left now) (fun _ => owner) s 0 commands,
      (turn.left now).leases.leases.get? p = some lease →
        turn.scene.leases.leases.get? p = some lease := by
    intro turn hmem hget
    obtain ⟨_, _, howner⟩ := exists_owner_of_mem_turnsEach hmem
    exact get?_run hget (howner ▸ hother)
  obtain ⟨_, hback⟩ := turnsEach_keeps
    (P := fun s' => s'.leases.leases.get? p = some lease → s.leases.leases.get? p = some lease)
    (fun turn hmem hscene hget => hscene (hturn turn hmem hget)) id
  exact hback hleft

theorem get?_runSequential {goesOn : Bool}
    (h : (s.runSequential goesOn commands owners now).2.leases.leases.get? p = some lease) :
    s.leases.leases.get? p = some lease := by
  unfold runSequential at h
  rw [runEach_leftAlone] at h
  obtain ⟨_, hback⟩ := turnsEach_keeps
    (P := fun s' => s'.leases.leases.get? p = some lease → s.leases.leases.get? p = some lease)
    (fun turn _ hscene hget => hscene (get?_leftAlone turn hget)) id
  exact hback h

/-- A request for several commands adds no lease. -/
theorem get?_batch {request : BatchRequest}
    (h : (s.batch request owners now).2.leases.leases.get? p = some lease) :
    s.leases.leases.get? p = some lease := by
  unfold batch at h
  cases hstale : s.staleConflict? request.baseRevision with
  | some c => rwa [hstale] at h
  | none =>
    rw [hstale] at h
    cases hmode : request.mode with
    | transactional =>
      rw [hmode] at h
      exact get?_runTransactional h
    | continueOnError | stopOnError =>
      rw [hmode] at h
      exact get?_runSequential h

/-- Nor does a request for one command. -/
theorem get?_command {request : CommandRequest}
    (h : (s.command request owner now).2.leases.leases.get? p = some lease) :
    s.leases.leases.get? p = some lease := by
  unfold command at h
  cases hstale : s.staleConflict? request.baseRevision with
  | some c => rwa [hstale] at h
  | none =>
    rw [hstale] at h
    exact get?_leftAlone ⟨s, request.command, owner⟩ h

/-! ## Refusals -/

/-- A command that fails before it asks for leases leaves everything as it is. -/
theorem run_of_unprepared {c : Conflict} (h : s.prepare raw = .error c) (owner : Owner)
    (now : Instant) : s.run raw owner now = (.error c, s) := by
  unfold run
  rw [h]

/-- So its turn leaves the table as it is. -/
theorem leases_left_of_unprepared {turn : Turn} (h : ∃ c, turn.scene.prepare turn.raw = .error c) :
    (turn.left now).leases = turn.scene.leases := by
  obtain ⟨c, hc⟩ := h
  unfold Turn.left
  rw [run_of_unprepared hc]

/-! ## Everything is given back -/

/-- A request for one command runs it under its own owner. -/
theorem owner_of_mem_commandTurns {request : CommandRequest} {turn : Turn}
    (h : turn ∈ s.commandTurns request owner) : turn.owner = owner := by
  unfold commandTurns at h
  split at h
  · exact absurd h List.not_mem_nil
  · rw [List.mem_singleton.mp h]

/-- Whatever a request asks for and whatever becomes of it, whether it holds one command or several
in any mode, and ends as stale, with a failure anywhere, taken back or in success: its owners have
no lease afterwards if they had none before, every live lease of others is as it was, and no refusal
is noted when all its commands failed before they asked for leases. -/
theorem request_leaves_no_lease (s : LeasedScene) (now : Instant) :
    (∀ (request : CommandRequest) (owner : Owner),
      s.leases.GivenBack (s.command request owner now).2.leases (· = owner)
        (s.commandTurns request owner) now) ∧
    ∀ (request : BatchRequest) (owners : Nat → Owner),
      let answer := s.batch request owners now
      s.leases.GivenBack answer.2.leases
        (fun owner => ∃ i < ownersTaken request.mode answer.1.verdict, owner = owners i)
        (s.batchTurns request owners now) now := by
  refine ⟨fun request owner => .of_kept (fun p lease h => get?_command h)
    (fun p lease hother hlive h => ?_) fun hfails => ?_,
    fun request owners => .of_kept (fun p lease h => get?_batch h)
      (fun p lease hother hlive h => ?_) fun hfails => ?_⟩
  · refine (command_keeps (P := fun s' => s'.leases.leases.get? p = some lease)
      (fun turn hturn hscene => ?_) (fun s' h' => ?_) h).2
    · exact Turn.get?_left hscene hlive (owner_of_mem_commandTurns hturn ▸ hother)
    · exact get?_release_of_ne h' hother
  · refine (command_keeps (P := fun s' => s.leases.SameRefusals s'.leases)
      (fun turn hturn hscene => ?_) (fun _ h' => h') ⟨rfl, rfl⟩).2
    rwa [leases_left_of_unprepared (hfails turn hturn)]
  · refine (batch_keeps (P := fun s' => s'.leases.leases.get? p = some lease)
      (fun turn hturn hscene => ?_) (fun i hi s' h' => ?_) (fun _ h' => h') h).2
    · exact Turn.get?_left hscene hlive fun heq =>
        hother (heq ▸ exists_owner_of_mem_batchTurns hturn)
    · exact get?_release_of_ne h' fun heq => hother ⟨i, hi, heq⟩
  · refine (batch_keeps (P := fun s' => s.leases.SameRefusals s'.leases)
      (fun turn hturn hscene => ?_) (fun _ _ _ h' => h') (fun _ h' => h') ⟨rfl, rfl⟩).2
    rwa [leases_left_of_unprepared (hfails turn hturn)]

/-- A shelf that somebody has leased. -/
def reserved : LeasedScene where
  store := ((Store.empty (.stemmed "id")).replaceAll [⟨⟨"s"⟩, "Folder", "Shelf", none, .empty⟩]).2
  leases := ((LeaseTable.empty 1000).acquire ⟨"keeper"⟩ [["Shelf"]] 0).2

/-- No command at all, and the deletion of something that is not there. -/
def misdirected : List Json :=
  [.null, .obj [("op", .str "delete"), ("targetPath", .arr [.str "Bin"])]]

/-- They fail; then a box comes, and the shelf is to go. -/
def mixed : List Json :=
  misdirected ++
    [.obj [("op", .str "create"), ("parentPath", .arr []), ("className", .str "Part"),
      ("name", .str "Box")], .obj [("op", .str "delete"), ("targetPath", .arr [.str "Shelf"])]]

/-- Some commands fail for different reasons and one is carried out. The lease on the shelf is what
it was, no other one is there, and only the last command is noted as refused. -/
theorem request_leaves_no_lease_mixed :
    let answer := reserved.batch ⟨none, false, true, mixed⟩ Identifier.ofRequest 10
    answer.1.verdict.outcomes.map CommandOutput.statusOf = [400, 404, 200, 423] ∧
      (∀ i < 4, answer.2.leases.HoldsNone (Identifier.ofRequest i)) ∧
      answer.2.leases.leases.get? ["Shelf"] = some ⟨⟨"keeper"⟩, ["Shelf"], 0, 1000⟩ ∧
      answer.2.leases.contentionCount = 1 ∧
      reserved.leases.SameRefusals
        (reserved.batch ⟨none, false, true, misdirected⟩ Identifier.ofRequest 10).2.leases := by
  intro answer
  obtain ⟨_, hbatch⟩ := request_leaves_no_lease reserved 10
  have hmixed := hbatch ⟨none, false, true, mixed⟩ Identifier.ofRequest
  have htaken : ownersTaken .continueOnError answer.1.verdict = 4 := by decide +kernel
  have hkeeper : ∀ i, (⟨"keeper"⟩ : Owner) ≠ Identifier.ofRequest i :=
    Identifier.ne_ofRequest (by decide)
  have hnone : ∀ i, reserved.leases.HoldsNone (Identifier.ofRequest i) := by
    intro i p lease hlease
    have hmem := SortedMap.mem_of_find? hlease
    obtain ⟨_, rfl⟩ := Prod.ext_iff.mp (List.mem_singleton.mp hmem)
    exact hkeeper i
  have hfails : ∀ turn ∈ reserved.batchTurns ⟨none, false, true, misdirected⟩
      Identifier.ofRequest 10, ∃ c, turn.scene.prepare turn.raw = .error c := by
    intro turn hturn
    rcases List.mem_cons.mp hturn with rfl | hturn
    · exact ⟨_, rfl⟩
    · obtain rfl := List.mem_singleton.mp hturn
      exact ⟨_, rfl⟩
  refine ⟨by decide +kernel, fun i hi => ?_, ?_, by decide +kernel,
    (hbatch ⟨none, false, true, misdirected⟩ Identifier.ofRequest).unheard hfails⟩
  · exact hmixed.none _ ⟨i, htaken ▸ hi, rfl⟩ (hnone i)
  · refine (hmixed.others ["Shelf"] _ ?_ (by decide)).mpr (by decide +kernel)
    rintro ⟨i, _, heq⟩
    exact hkeeper i heq

end LeasedScene

end SharedScene
