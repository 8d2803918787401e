import SharedScene.Proofs.Run.Outcome

/-!
# The turn of a run

A run that is handed out leaves the queue for the active slot (`Scheduler.handOut`). When its
outcome comes in and nothing has been asked of the scheduler meanwhile, the slot is free again: the
run is over (`complete_handOut`), or waits at the end of the queue for its next attempt
(`queueRetry_handOut`). Both are told in terms of the scheduler of before the turn, so whatever they
do not name is what it was.

None of the checks on the way can refuse. The first run that is ready is stored as queued and its
delay is over; while it is out it is stored as running; and the attempts that are left are those of
the run as it was handed out (`settle_handOut`).
-/

namespace SharedScene

/-- A run as an executor gets it. -/
def TimedRun.handedOut (run : TestRun) (now : Instant) : TestRun :=
  { run with status := .running, nextDispatchAt := none, updatedAt := now, startedAt := some now }

/-- Between being claimed and being over a run keeps its attempts and their limit. -/
theorem RunOutcome.statusFor_handedOut (outcome : RunOutcome) (run : TestRun) (now : Instant) :
    outcome.statusFor (run.handedOut now) = outcome.statusFor run := by
  cases outcome <;> rfl

namespace Scheduler

attribute [ext] Scheduler

open Success

variable {s s' : Scheduler} {run ready ended : TestRun} {now : Instant} {outcome : RunOutcome}

/-- The scheduler while an executor has a run. -/
def handOut (s : Scheduler) (run : TestRun) : Scheduler :=
  { (s.put run).dequeue run.id with active := some run.id }

/-! ## The first run that is ready -/

/-- A stored run is what its id gives. -/
theorem Orderly.get?_eq_some_iff (hs : s.Orderly) {id : RunId} :
    s.get? id = some run ↔ run ∈ s.runs ∧ run.id = id := by
  constructor
  · intro hget
    exact lookup_eq_ok (by rw [lookup, hget])
  · rintro ⟨hrun, rfl⟩
    have hlookup := hs.lookup_of_mem hrun
    unfold lookup at hlookup
    split at hlookup
    · next hget => rw [hget, Except.ok.inj hlookup]
    · cases hlookup

/-- The runs that the queue names are the stored ones that are queued. -/
theorem Orderly.mem_filterMap_queue_iff (hs : s.Orderly) :
    run ∈ s.queue.filterMap s.get? ↔ run ∈ s.runs ∧ run.status = .queued := by
  rw [List.mem_filterMap]
  constructor
  · rintro ⟨id, hid, hget⟩
    obtain ⟨hrun, rfl⟩ := hs.get?_eq_some_iff.mp hget
    exact ⟨hrun, (hs.holds_iff hrun).mp ((hs.mem_queue_iff run.id).mp hid)⟩
  · rintro ⟨hrun, hqueued⟩
    exact ⟨run.id, (hs.mem_queue_iff run.id).mpr ⟨run, hrun, rfl, hqueued⟩,
      hs.get?_eq_some_iff.mpr ⟨hrun, rfl⟩⟩

/-- The run whose turn it is is stored under an id of the queue, and ready. -/
theorem peek?_eq_some (h : s.peek? now = some ready) :
    ready.id ∈ s.queue ∧ s.lookup ready.id = .ok ready ∧ ready.isReady now = true := by
  obtain ⟨id, hid, hget⟩ := List.mem_filterMap.mp (List.mem_of_find?_eq_some h)
  have hlookup : s.lookup id = .ok ready := by rw [lookup, hget]
  obtain ⟨_, rfl⟩ := lookup_eq_ok hlookup
  exact ⟨hid, hlookup, List.find?_some (p := fun r : TestRun => r.isReady now) h⟩

/-- It is nobody's turn exactly when no stored run is ready. -/
theorem Orderly.peek?_eq_none_iff (hs : s.Orderly) :
    s.peek? now = none ↔ ∀ run ∈ s.runs, run.isReady now = false := by
  unfold peek?
  rw [List.find?_eq_none]
  constructor
  · intro hnone run hrun
    by_contra hready
    rw [Bool.not_eq_false] at hready
    -- whoever is ready is queued, so the queue names it
    have hqueued : run.status = .queued := of_decide_eq_true (Bool.and_eq_true_iff.mp hready).1
    exact hnone run (hs.mem_filterMap_queue_iff.mpr ⟨hrun, hqueued⟩) hready
  · intro hnone run hrun hready
    rw [hnone run (hs.mem_filterMap_queue_iff.mp hrun).1] at hready
    cases hready

/-! ## Handing it out -/

theorem checkDelay_of_over {id : RunId} (h : run.delayIsOver now = true) :
    checkDelay id run now = .ok () := by
  unfold checkDelay
  unfold TimedRun.delayIsOver at h
  cases hnext : run.nextDispatchAt with
  | none => rfl
  | some t =>
    rw [hnext] at h
    exact if_neg (Int.not_lt.mpr (of_decide_eq_true h))

/-- What is left in the queue, and what is stored, when one run is out. -/
theorem handOut_put (hid : run.id = ended.id) (s : Scheduler) :
    ({ (s.put run).dequeue run.id with active := some run.id } : Scheduler).put ended =
      s.handOut ended := by
  have hput : (s.put run).put ended = s.put ended := InPlace.put_put hid s
  unfold handOut dequeue
  rw [← hput, ← hid]
  rfl

/-- While the slot is free, the run whose turn it is can be claimed and marked as running. -/
theorem Orderly.claim (hs : s.Orderly) (hactive : s.active = none)
    (hpeek : s.peek? now = some ready) :
    ∃ dispatching s₁, s.markDispatching ready.id now = .ok (dispatching, s₁) ∧
      s₁.markRunning ready.id now = .ok (ready.handedOut now, s.handOut (ready.handedOut now)) ∧
      (s.handOut (ready.handedOut now)).Orderly := by
  obtain ⟨_, hlookup, hready⟩ := peek?_eq_some hpeek
  obtain ⟨hqueued, hover⟩ := Bool.and_eq_true_iff.mp hready
  have hqueued : ready.status = .queued := of_decide_eq_true hqueued
  let dispatching : TestRun :=
    { ready with status := .dispatching, updatedAt := now, nextDispatchAt := none }
  let s₁ : Scheduler := { (s.put dispatching).dequeue ready.id with active := some ready.id }
  have hslot : s.checkSlot ready.id = .ok () := by
    rw [checkSlot, hactive]
    rfl
  have hstep : step ready .dispatching now =
      .ok { ready with status := .dispatching, updatedAt := now } :=
    step_eq_of_mem_next (by rw [hqueued]; decide)
  have hdispatching : s.markDispatching ready.id now = .ok (dispatching, s₁) := by
    rw [markDispatching_eq]
    simp only [bind_eq_ok]
    exact ⟨(), hslot, ready, hlookup, (), checkDelay_of_over hover, _, hstep, rfl⟩
  have hs₁ : s₁.Orderly := (markDispatching_moves hs hdispatching).orderly hs
  have hmem : dispatching ∈ s₁.runs :=
    List.mem_map.mpr ⟨ready, (lookup_eq_ok hlookup).1, if_pos rfl⟩
  have hrunning : s₁.markRunning ready.id now =
      .ok (ready.handedOut now, s.handOut (ready.handedOut now)) := by
    unfold markRunning
    simp only [bind_eq_ok]
    refine ⟨dispatching, hs₁.lookup_of_mem hmem, _,
      step_eq_of_mem_next (show .running ∈ RunStatus.next .dispatching by decide), ?_⟩
    rw [← @handOut_put dispatching (ready.handedOut now) rfl s]
    rfl
  exact ⟨dispatching, s₁, hdispatching, hrunning, (markRunning_moves hs₁ hrunning).orderly hs₁⟩

/-! ## Settling it -/

/-- The run that holds the slot gives it back. -/
theorem clearActive_of_active {id : RunId} (h : s.active = some id) :
    s.clearActive id = { s with active := none } := if_pos h

/-- Of the records of a run that is out, only the last one is stored. -/
theorem runs_put_handOut (hid : run.id = ended.id) (s : Scheduler) :
    ((s.handOut run).put ended).runs = (s.put ended).runs := by
  have hput := congrArg Scheduler.runs (InPlace.put_put hid s)
  exact hput

/-- An outcome that puts a run back asks for a retry. -/
theorem settle_of_queued (s : Scheduler) (h : outcome.statusFor run = .queued) (now : Instant) :
    ∃ reason, s.settle run outcome now = s.queueRetry run.id reason now := by
  obtain ⟨⟨message, result, rfl⟩, hleft⟩ := RunOutcome.statusFor_eq_queued_iff.mp h
  exact ⟨message.getD defaultRetryReason, if_pos (decide_eq_true hleft)⟩

/-- Any other outcome ends the run, in the status that it gives. -/
theorem settle_of_over (s : Scheduler) (h : outcome.statusFor run ≠ .queued) (now : Instant) :
    ∃ message result,
      s.settle run outcome now = s.complete run.id (outcome.statusFor run) message result now := by
  cases outcome with
  | passed message result => exact ⟨message, result, rfl⟩
  | failed message result retryable =>
    have hretry : (retryable && run.canRetry) ≠ true := fun hretry => h (if_pos hretry)
    refine ⟨message, result, ?_⟩
    rw [RunOutcome.statusFor, if_neg hretry]
    exact if_neg hretry
  | aborted message => exact ⟨message, none, rfl⟩

section Settling

variable (hlookup : (s.handOut run).lookup run.id = .ok run) (hrunning : run.status = .running)

include hlookup hrunning

/-- A run that is out can be ended: it leaves the slot, and runs that are over may be forgotten. -/
theorem complete_handOut {status : RunStatus} (hterminal : status.isTerminal = true)
    (message : Option String) (result : Option Json) :
    let ended : TestRun :=
      { run with status, updatedAt := now, finishedAt := some now, message, result }
    (s.handOut run).complete run.id status message result now = .ok (ended,
      { s with
        runs := (s.put ended).prune.runs
        queue := s.queue.filter fun q => decide (q ≠ run.id)
        active := none }) := by
  intro ended
  have hnext : status ∈ run.status.next := by
    rw [hrunning]
    cases status <;> first | decide | cases hterminal
  obtain ⟨⟨new, s'⟩, hgranted⟩ := (exists_complete_iff hterminal).mpr ⟨run, hlookup, hnext⟩
  obtain ⟨old, hlookup', _, _, rfl, rfl⟩ := complete_eq_ok hgranted
  obtain rfl := Except.ok.inj (hlookup.symm.trans hlookup')
  have hruns := @runs_put_handOut run ended rfl s
  rw [hgranted, clearActive_of_active rfl]
  refine congrArg (fun s' => Except.ok (ended, s')) (Scheduler.ext ?_ ?_ rfl rfl rfl)
  · show (prune { s with runs := ((s.handOut run).put ended).runs }).runs = _
    rw [hruns]
    rfl
  · exact List.filter_eq_self.mpr fun q hq => (List.mem_filter.mp hq).2

/-- A run that is out and has attempts left can be tried again: it leaves the slot for the end of
the queue. -/
theorem queueRetry_handOut (hleft : run.canRetry = true) (reason : String) :
    let waiting : TestRun := { run with
      status := .queued
      updatedAt := now
      nextDispatchAt := some (now + run.safety.durationAfter run.attempt)
      attempt := run.attempt + 1
      finishedAt := none
      message := some reason }
    (s.handOut run).queueRetry run.id reason now = .ok (waiting,
      { s with
        runs := (s.put waiting).runs
        queue := (s.queue.filter fun q => decide (q ≠ run.id)) ++ [run.id]
        active := none }) := by
  intro waiting
  have hnext : .queued ∈ run.status.next := by
    rw [hrunning]
    decide
  obtain ⟨⟨new, s'⟩, hgranted⟩ := exists_queueRetry_iff.mpr ⟨run, hlookup, hleft, hnext⟩
  obtain ⟨old, hlookup', _, _, rfl, rfl⟩ := queueRetry_eq_ok hgranted
  obtain rfl := Except.ok.inj (hlookup.symm.trans hlookup')
  rw [hgranted, clearActive_of_active rfl]
  exact congrArg (fun s' => Except.ok (waiting, s'))
    (Scheduler.ext (@runs_put_handOut run waiting rfl s) rfl rfl rfl rfl)

/-- Whatever the outcome of a run that is out, it is recorded: the run gets the status, the attempt
and the wait that the outcome asks for, the slot is free, and of the queue nothing changes but the
place of this run. -/
theorem settle_handOut (outcome : RunOutcome) (now : Instant) :
    let again := outcome.statusFor run = .queued
    ∃ ended, (s.handOut run).settle run outcome now = .ok (ended,
        { s with
          runs := if again then (s.put ended).runs else (s.put ended).prune.runs
          queue := (s.queue.filter fun q => decide (q ≠ run.id)) ++ if again then [run.id] else []
          active := none }) ∧
      ended.id = run.id ∧ ended.status = outcome.statusFor run ∧
      ended.attempt = (if again then run.attempt + 1 else run.attempt) ∧
      ended.nextDispatchAt = if again then some (now + run.safety.durationAfter run.attempt)
        else run.nextDispatchAt := by
  intro again
  by_cases hagain : again
  · obtain ⟨reason, hsettle⟩ := settle_of_queued (s.handOut run) hagain now
    have hwaits := @queueRetry_handOut s run now hlookup hrunning
      (RunOutcome.canRetry_of_statusFor hagain) reason
    simp only [if_pos hagain]
    exact ⟨_, hsettle.trans hwaits, rfl, hagain.symm, rfl, rfl⟩
  · obtain ⟨message, result, hsettle⟩ := settle_of_over (s.handOut run) hagain now
    have hover := @complete_handOut s run now hlookup hrunning _
      (RunOutcome.isTerminal_statusFor hagain) message result
    simp only [if_neg hagain, List.append_nil]
    exact ⟨_, hsettle.trans hover, rfl, rfl, rfl, rfl⟩

end Settling

/-! ## What a turn comes to -/

/-- What a turn of the run `ready` with an outcome at `now` makes of a scheduler, when nothing else
is asked of it. Whatever is not named is what it was. -/
structure Settles (s s' : Scheduler) (ready ended : TestRun) (outcome : RunOutcome)
    (now : Instant) : Prop where
  active : s'.active = none
  /-- The others keep their places; a run that is queued again comes last. -/
  queue : s'.queue = (s.queue.filter fun q => decide (q ≠ ready.id)) ++
    if ended.status = .queued then [ready.id] else []
  id : ended.id = ready.id
  status : ended.status = outcome.statusFor ready
  /-- A run is queued again exactly when it failed, may be retried, and has attempts left. -/
  again : ended.status = .queued ↔
    (∃ message result, outcome = .failed message result true) ∧
      ready.attempt < ready.safety.maxRetries
  attempt : ended.attempt = if ended.status = .queued then ready.attempt + 1 else ready.attempt
  wait : ended.nextDispatchAt = if ended.status = .queued then
    some (now + ready.safety.durationAfter ready.attempt) else none
  /-- The run has its new record in place of the old one. When it is over, it counts among those
  that are, of which the oldest may have to go. -/
  runs : s'.runs = if ended.status = .queued then (s.put ended).runs else (s.put ended).prune.runs
  /-- Nothing else is left of the run. -/
  recorded : ∀ run ∈ s'.runs, run.id = ready.id → run = ended
  /-- The new record is there, unless it had to go. -/
  stored : ended.status = .queued ∨
      (s.put ended).runs.countP (fun r => r.status.isTerminal) ≤ s.historyLimit →
    ended ∈ s'.runs
  /-- All other runs that are not over are what they were. -/
  spared : ∀ run ∈ s.runs, run.id ≠ ready.id → run.status.isTerminal = false → run ∈ s'.runs
  /-- No other run is told anything. -/
  untouched : ∀ run ∈ s'.runs, run.id ≠ ready.id → run ∈ s.runs
  sequence : s'.sequence = s.sequence
  historyLimit : s'.historyLimit = s.historyLimit

/-- A settled run can be told of in dates unless it waits for an instant without one. -/
theorem Settles.isDated_eq_false_iff (h : s.Settles s' ready ended outcome now) :
    ended.isDated = false ↔ outcome.statusFor ready = .queued ∧
      Instant.hasDate (now + ready.safety.durationAfter ready.attempt) = false := by
  rw [TestRun.isDated, h.wait, h.status]
  split
  · next hagain => rw [Option.all_some, and_iff_right hagain]
  · next hover => exact iff_of_false nofun fun hagain => hover hagain.1

/-- When a record is put in place of a stored run, it is all that is stored of it. -/
theorem eq_of_mem_put (h : run ∈ (s.put ended).runs) (hid : run.id = ended.id) : run = ended := by
  obtain ⟨old, _, rfl⟩ := List.mem_map.mp h
  split at hid
  · next hold => exact if_pos hold
  · next hold => exact absurd hid hold

/-- The other runs are neither added nor taken away. -/
theorem mem_put_iff_of_ne (hid : run.id ≠ ended.id) : run ∈ (s.put ended).runs ↔ run ∈ s.runs := by
  constructor
  · intro h
    obtain ⟨old, hold, rfl⟩ := List.mem_map.mp h
    split at hid
    · exact absurd rfl hid
    · next hother => exact (if_neg hother) ▸ hold
  · exact fun h => List.mem_map.mpr ⟨run, h, if_neg hid⟩

/-- The turn of a stored run, told by what its record has become. -/
theorem settles_of_record (hready : ready ∈ s.runs) (hid : ended.id = ready.id)
    (hstatus : ended.status = outcome.statusFor ready)
    (hattempt : ended.attempt =
      if ended.status = .queued then ready.attempt + 1 else ready.attempt)
    (hwait : ended.nextDispatchAt = if ended.status = .queued then
      some (now + ready.safety.durationAfter ready.attempt) else none) :
    s.Settles { s with
      runs := if ended.status = .queued then (s.put ended).runs else (s.put ended).prune.runs
      queue := (s.queue.filter fun q => decide (q ≠ ready.id)) ++
        if ended.status = .queued then [ready.id] else []
      active := none } ready ended outcome now := by
  have hput : ended ∈ (s.put ended).runs := List.mem_map.mpr ⟨ready, hready, if_pos hid.symm⟩
  have hpruned : ∀ {run}, run ∈ (if ended.status = .queued then (s.put ended).runs
      else (s.put ended).prune.runs) → run ∈ (s.put ended).runs := by
    intro run hrun
    split at hrun
    · exact hrun
    · exact (dropFinished_sublist _ _).subset hrun
  refine
    { active := rfl, queue := rfl, id := hid, status := hstatus, attempt := hattempt, wait := hwait
      runs := rfl, sequence := rfl, historyLimit := rfl
      again := hstatus ▸ RunOutcome.statusFor_eq_queued_iff
      recorded := fun run hrun hsame => eq_of_mem_put (hpruned hrun) (hsame.trans hid.symm)
      untouched := fun run hrun hother => (mem_put_iff_of_ne (hid ▸ hother)).mp (hpruned hrun)
      stored := fun hkept => ?_
      spared := fun run hrun hother hlive => ?_ }
  · dsimp only
    split
    · exact hput
    · next hover =>
      show ended ∈ dropFinished (_ - s.historyLimit) (s.put ended).runs
      rw [Nat.sub_eq_zero_of_le (hkept.resolve_left hover), dropFinished]
      exact hput
  · have hkept : run ∈ (s.put ended).runs := (mem_put_iff_of_ne (hid ▸ hother)).mpr hrun
    dsimp only
    split
    · exact hkept
    · exact mem_dropFinished hkept hlive

end Scheduler

end SharedScene
