import SharedScene.Proofs.Run.Lifecycle

/-!
# What becomes of an outcome

An executor gets a run as it was when it was handed out, and reports some time later. By then the
run may stand elsewhere. The copy that was handed out says which status the outcome gives
(`RunOutcome.statusFor`); whether it is recorded depends on where the run stands when it arrives
(`exists_settle_iff`).

A run that was running at some attempt can later be found at a higher attempt, or at the same one
and running or over; it never waits or is claimed at that attempt again (`Since`). That is what ties
an outcome to its attempt as long as no retry comes between.
-/

namespace SharedScene

/-- The status that an outcome gives to a run, as it was when it was handed out. -/
def RunOutcome.statusFor (run : TestRun) : RunOutcome → RunStatus
  | .passed _ _ => .passed
  | .failed _ _ retryable => if retryable && run.canRetry then .queued else .failed
  | .aborted _ => .aborted

/-- From running a run may go wherever an outcome puts it. -/
theorem RunOutcome.statusFor_mem_next (outcome : RunOutcome) (run : TestRun) :
    outcome.statusFor run ∈ RunStatus.next .running := by
  cases outcome with
  | passed message result => simp [statusFor, RunStatus.next]
  | failed message result retryable =>
    rw [statusFor]
    split <;> decide
  | aborted message => simp [statusFor, RunStatus.next]

/-- What is queued again is what failed, may be retried, and has attempts left. -/
theorem RunOutcome.statusFor_eq_queued_iff {outcome : RunOutcome} {run : TestRun} :
    outcome.statusFor run = .queued ↔
      (∃ message result, outcome = .failed message result true) ∧
        run.attempt < run.safety.maxRetries := by
  cases outcome with
  | passed message result => exact iff_of_false nofun fun ⟨⟨_, _, h⟩, _⟩ => nomatch h
  | failed message result retryable =>
    rw [statusFor, TimedRun.canRetry]
    cases retryable with
    | false => exact iff_of_false nofun fun ⟨⟨_, _, h⟩, _⟩ => nomatch h
    | true =>
      rw [Bool.true_and, and_iff_right ⟨message, result, rfl⟩]
      split
      · next hleft => exact iff_of_true rfl (of_decide_eq_true hleft)
      · next hleft => exact iff_of_false nofun fun h => hleft (decide_eq_true h)
  | aborted message => exact iff_of_false nofun fun ⟨⟨_, _, h⟩, _⟩ => nomatch h

/-- Only what has attempts left is queued again. -/
theorem RunOutcome.canRetry_of_statusFor {outcome : RunOutcome} {run : TestRun}
    (h : outcome.statusFor run = .queued) : run.canRetry = true :=
  decide_eq_true (statusFor_eq_queued_iff.mp h).2

/-- Where an outcome does not put a run back into the queue, it ends it. -/
theorem RunOutcome.isTerminal_statusFor {outcome : RunOutcome} {run : TestRun}
    (h : outcome.statusFor run ≠ .queued) : (outcome.statusFor run).isTerminal = true := by
  have hnext := outcome.statusFor_mem_next run
  cases hstatus : outcome.statusFor run with
  | queued => exact absurd hstatus h
  | dispatching | running =>
    rw [hstatus] at hnext
    revert hnext
    decide
  | passed | failed | aborted => rfl

namespace Scheduler

open Success

variable {s s' : Scheduler} {start old new recorded : TestRun} {outcome : RunOutcome}
  {now : Instant}

/-! ## When an outcome is recorded -/

section Settling

variable {id : RunId} {run : TestRun}

/-- A stored run is what a lookup of its id gives. -/
theorem Orderly.lookup_of_mem (h : s.Orderly) (hrun : run ∈ s.runs) :
    s.lookup run.id = .ok run := by
  unfold lookup
  cases hget : s.get? run.id with
  | none => exact absurd (decide_eq_true rfl) (List.find?_eq_none.mp hget run hrun)
  | some found =>
    have hlookup : s.lookup run.id = .ok found := by rw [lookup, hget]
    obtain ⟨hfound, hid⟩ := lookup_eq_ok hlookup
    rw [h.eq_of_id_eq hfound hrun hid]

/-- What is asked of a scheduler when an outcome is to be recorded. -/
def settling (run : TestRun) (outcome : RunOutcome) (now : Instant) : Act :=
  match outcome with
  | .passed message result => .complete run.id .passed message result now
  | .failed message result retryable =>
    if retryable && run.canRetry then .queueRetry run.id (message.getD defaultRetryReason) now
    else .complete run.id .failed message result now
  | .aborted message => .complete run.id .aborted message none now

theorem settle_eq_ask (s : Scheduler) (run : TestRun) (outcome : RunOutcome) (now : Instant) :
    s.settle run outcome now = s.ask (settling run outcome now) := by
  cases outcome with
  | passed message result => rfl
  | failed message result retryable =>
    unfold settle settling
    dsimp only
    by_cases hretry : (retryable && run.canRetry) = true
    · rw [if_pos hretry, if_pos hretry]
      rfl
    · rw [if_neg hretry, if_neg hretry]
      rfl
  | aborted message => rfl

/-- A run may be in any status to which its own one leads. -/
theorem step_eq_of_mem_next {status : RunStatus} (h : status ∈ run.status.next) :
    step run status now = .ok { run with status, updatedAt := now } := by
  unfold step RunStatus.transition
  rw [if_pos (RunStatus.mayBecome_iff.mpr h)]

/-- A run may be ended in a status to which its own one leads. -/
theorem exists_complete_iff {status : RunStatus} {message : Option String} {result : Option Json}
    (hterminal : status.isTerminal = true) :
    (∃ granted, s.complete id status message result now = .ok granted) ↔
      ∃ old, s.lookup id = .ok old ∧ status ∈ old.status.next := by
  constructor
  · rintro ⟨⟨new, s'⟩, h⟩
    obtain ⟨old, hlookup, _, hmay, _⟩ := complete_eq_ok h
    exact ⟨old, hlookup, RunStatus.mayBecome_iff.mp hmay⟩
  · rintro ⟨old, hlookup, hnext⟩
    unfold complete
    rw [hterminal, hlookup, if_neg (by decide)]
    exact ⟨_, bind_eq_ok.mpr ⟨old, rfl, bind_eq_ok.mpr ⟨_, step_eq_of_mem_next hnext, rfl⟩⟩⟩

/-- A run may be queued again from a status that leads there, while attempts are left. -/
theorem exists_queueRetry_iff {reason : String} :
    (∃ granted, s.queueRetry id reason now = .ok granted) ↔
      ∃ old, s.lookup id = .ok old ∧ old.canRetry = true ∧ .queued ∈ old.status.next := by
  constructor
  · rintro ⟨⟨new, s'⟩, h⟩
    obtain ⟨old, hlookup, hleft, hmay, _⟩ := queueRetry_eq_ok h
    exact ⟨old, hlookup, decide_eq_true hleft, RunStatus.mayBecome_iff.mp hmay⟩
  · rintro ⟨old, hlookup, hretry, hnext⟩
    unfold queueRetry
    rw [hlookup]
    show ∃ granted, (if (!old.canRetry) = true then _ else _) = Except.ok granted
    rw [hretry, if_neg (by decide)]
    exact ⟨_, bind_eq_ok.mpr ⟨_, step_eq_of_mem_next hnext, rfl⟩⟩

/-- An outcome is recorded when the status of the stored run leads to the one that it gives, and
for a retry attempts are left. Nothing else is looked at. -/
theorem exists_settle_iff :
    (∃ granted, s.settle run outcome now = .ok granted) ↔
      ∃ current, s.lookup run.id = .ok current ∧
        outcome.statusFor run ∈ current.status.next ∧
        (outcome.statusFor run = .queued → current.canRetry = true) := by
  have hends : ∀ {status : RunStatus} {message : Option String} {result : Option Json},
      status.isTerminal = true →
      ((∃ granted, s.complete run.id status message result now = .ok granted) ↔
        ∃ current, s.lookup run.id = .ok current ∧ status ∈ current.status.next ∧
          (status = .queued → current.canRetry = true)) := by
    intro status message result hterminal
    have hout : status ≠ .queued := by
      rintro rfl
      cases hterminal
    simp only [exists_complete_iff hterminal, hout, false_implies, and_true]
  cases outcome with
  | passed message result => exact @hends .passed _ _ rfl
  | failed message result retryable =>
    unfold settle RunOutcome.statusFor
    dsimp only
    split
    · simp only [exists_queueRetry_iff, true_implies, and_comm]
    · exact @hends .failed _ _ rfl
  | aborted message => exact @hends .aborted _ _ rfl

/-- What is recorded is of the run that was handed out, in the status that the outcome gives. -/
theorem recorded_of_settle (h : s.settle run outcome now = .ok (recorded, s')) :
    recorded.id = run.id ∧ recorded.status = outcome.statusFor run := by
  have hends : ∀ {status : RunStatus} {message : Option String} {result : Option Json},
      s.complete run.id status message result now = .ok (recorded, s') →
      recorded.id = run.id ∧ recorded.status = status := by
    intro status message result hc
    obtain ⟨old, hlookup, _, _, rfl, _⟩ := complete_eq_ok hc
    exact ⟨(lookup_eq_ok hlookup).2, rfl⟩
  cases outcome with
  | passed message result => exact hends h
  | failed message result retryable =>
    rw [settle] at h
    rw [RunOutcome.statusFor]
    split at h
    · next hretry =>
      obtain ⟨old, hlookup, _, _, rfl, _⟩ := queueRetry_eq_ok h
      rw [if_pos hretry]
      exact ⟨(lookup_eq_ok hlookup).2, rfl⟩
    · next hretry =>
      rw [if_neg hretry]
      exact hends h
  | aborted message => exact hends h

/-- What is recorded follows from what is stored of the run, and no other run is touched. -/
theorem follows_of_settle (hs : s.Orderly) (h : s.settle run outcome now = .ok (recorded, s')) :
    s.Moves s' recorded ∧ ∃ current ∈ s.runs, Follows current recorded := by
  rw [settle_eq_ask] at h
  rcases follows_of_ask hs h with ⟨scenario, safety, now', hact⟩ | hmoves
  · exfalso
    unfold settling at hact
    split at hact
    · cases hact
    · split at hact <;> cases hact
    · cases hact
  · exact hmoves

end Settling

/-! ## Since a run was running -/

/-- What a run can be after it was running: at a later attempt, or at the same one and still running
or over. -/
structure Since (start run : TestRun) : Prop where
  safety : run.safety = start.safety
  stands : start.attempt < run.attempt ∨
    run.attempt = start.attempt ∧ (run.status = .running ∨ run.status.isTerminal = true)

theorem Since.next (h : Since start old) (hfollows : Follows old new) : Since start new := by
  refine ⟨hfollows.safety.trans h.safety, ?_⟩
  by_cases hqueued : new.status = .queued
  · -- queued again: a later attempt than before, whichever that was
    have hattempt := (hfollows.retried hqueued).2
    have hstands := h.stands
    omega
  · rw [hfollows.kept hqueued]
    refine h.stands.imp_right fun ⟨hattempt, hstatus⟩ => ⟨hattempt, .inr ?_⟩
    -- the same attempt: from running it can only be ended, and nothing follows the end
    have hnext := hfollows.status
    revert hstatus hnext hqueued
    cases old.status <;> cases new.status <;> decide

/-- Whoever is stored under an id has been running as `start` before. -/
structure HasBegun (s : Scheduler) (start : TestRun) : Prop where
  orderly : s.Orderly
  entered : start.id ∈ firstIds s.sequence
  since : ∀ run ∈ s.runs, run.id = start.id → Since start run

/-- Nobody has put a run back into the queue since it was handed out, nor ended it as failed before
an outcome that asks for a retry. -/
def Unretried (s : Scheduler) (start : TestRun) (outcome : RunOutcome) : Prop :=
  ∀ current ∈ s.runs, current.id = start.id → current.attempt = start.attempt ∧
    (current.status = .failed → outcome.statusFor start ≠ .queued)

namespace HasBegun

/-- A stored run that is running has begun. -/
theorem of_running (hs : s.Orderly) (hrun : start ∈ s.runs) (hrunning : start.status = .running) :
    s.HasBegun start where
  orderly := hs
  entered := hs.arrival.subset (List.mem_map_of_mem hrun)
  since := fun run hmem hid => by
    obtain rfl := hs.eq_of_id_eq hmem hrun hid
    exact ⟨rfl, .inr ⟨rfl, .inl hrunning⟩⟩

theorem ask (h : s.HasBegun start) {act : Act} (ha : s.ask act = .ok (new, s')) :
    s'.HasBegun start := by
  refine ⟨h.orderly.ask ha, ?_, ?_⟩
  · rcases ask_cases h.orderly ha with ⟨scenario, safety, now, rfl, heq⟩ | hm
    · cases heq
      show start.id ∈ firstIds (s.sequence + 1)
      rw [firstIds_succ]
      exact List.mem_append_left _ h.entered
    · exact hm.sequence ▸ h.entered
  · intro run hrun hid
    rcases follows_of_ask h.orderly ha with ⟨scenario, safety, now, rfl⟩ | ⟨hm, old, hold, hfollows⟩
    · cases ha
      rcases List.mem_append.mp hrun with hrun | hrun
      · exact h.since run hrun hid
      · -- ids are not given twice, so a new run is another one
        obtain rfl := List.mem_singleton.mp hrun
        exact absurd (hid ▸ h.entered) (ofSequence_not_mem_firstIds _)
    · rcases hm.eq_or_mem hrun with rfl | ⟨hrun, _⟩
      · exact (h.since old hold (hfollows.id ▸ hid)).next hfollows
      · exact h.since run hrun hid

theorem perform (h : s.HasBegun start) (act : Act) : (s.perform act).HasBegun start := by
  unfold Scheduler.perform
  split
  · next ha => exact h.ask ha
  · exact h

theorem run (h : s.HasBegun start) (acts : List Act) : (s.run acts).HasBegun start := by
  induction acts generalizing s with
  | nil => exact h
  | cons act acts ih => exact ih (h.perform act)

/-- As long as nobody has retried the run, its outcome is recorded exactly when it is still
running. -/
theorem exists_settle_iff_running (h : s.HasBegun start) (hsame : s.Unretried start outcome) :
    (∃ granted, s.settle start outcome now = .ok granted) ↔
      ∃ current ∈ s.runs, current.id = start.id ∧ current.attempt = start.attempt ∧
        current.status = .running := by
  rw [exists_settle_iff]
  constructor
  · rintro ⟨current, hlookup, hnext, _⟩
    obtain ⟨hmem, hid⟩ := lookup_eq_ok hlookup
    obtain ⟨hattempt, hfailed⟩ := hsame current hmem hid
    refine ⟨current, hmem, hid, hattempt, ?_⟩
    rcases (h.since current hmem hid).stands with hlater | ⟨_, hrunning | hover⟩
    · omega
    · exact hrunning
    · -- from what is over only a failure leads on, and only to a retry
      exfalso
      revert hnext hover hfailed
      cases current.status <;> cases outcome.statusFor start <;> decide
  · rintro ⟨current, hmem, hid, hattempt, hrunning⟩
    have hlookup := h.orderly.lookup_of_mem hmem
    rw [hid] at hlookup
    refine ⟨current, hlookup, ?_, fun hqueued => ?_⟩
    · rw [hrunning]
      exact outcome.statusFor_mem_next start
    · -- the limits are those of the run that was handed out, and so are the attempts left
      have hleft := RunOutcome.canRetry_of_statusFor hqueued
      rwa [TimedRun.canRetry, ← hattempt, ← (h.since current hmem hid).safety] at hleft

end HasBegun

end Scheduler

end SharedScene
