import SharedScene.Proofs.Engine.Dispatch
import SharedScene.Proofs.Run.Turn

/-!
# A dispatch that nobody disturbs

When the executor asks nothing of the scheduler, a dispatch cannot fail
(`dispatch_settles_next`): it is over at once when the slot is taken or no run is ready, and
otherwise the run whose turn it was ends in the status that the outcome names, or waits at the end
of the queue for its next attempt.

Every check on the way is passed because the accounts of the scheduler agree, so the scheduler has
to be one that its own operations have brought about. What the executor does to the rest of the
engine, the clock among it, is free.
-/

namespace SharedScene.Engine

open Success

variable {e : Engine} {ready : TestRun}

/-! ## What can be claimed -/

/-- Nothing can be claimed when the slot is taken, or when it is nobody's turn. -/
theorem claimNext_eq_none (h : e.runs.active ≠ none ∨ e.runs.peek? e.now = none) :
    e.claimNext = .ok none := by
  unfold claimNext
  split
  · next hactive hpeek =>
    rcases h with h | h
    · exact absurd hactive h
    · rw [hpeek] at h
      cases h
  · rfl

/-- While the slot is free, the run whose turn it is is claimed. -/
theorem claimNext_eq_handOut (hs : e.runs.Orderly) (hactive : e.runs.active = none)
    (hpeek : e.runs.peek? e.now = some ready) :
    let handed := ready.handedOut e.now
    e.claimNext = .ok (some (handed, { e with runs := e.runs.handOut handed })) := by
  intro handed
  obtain ⟨dispatching, s₁, hdispatching, hrunning, _⟩ := hs.claim hactive hpeek
  unfold claimNext
  rw [hactive, hpeek]
  refine bind_eq_ok.mpr ⟨(dispatching, { e with runs := s₁ }), ?_,
    bind_eq_ok.mpr ⟨(handed, { e with runs := e.runs.handOut handed }), ?_, rfl⟩⟩
  · rw [onRuns_eq, hdispatching]
    rfl
  · rw [onRuns_eq]
    dsimp only
    rw [show Engine.now { e with runs := s₁ } = e.now from rfl, hrunning]
    rfl

/-! ## The whole dispatch -/

/-- A dispatch whose executor leaves the scheduler alone records the outcome of the run whose turn
it was. -/
theorem dispatch_of_ready (hs : e.runs.Orderly) (hactive : e.runs.active = none)
    (hpeek : e.runs.peek? e.now = some ready) {execute : TestRun → Engine → RunOutcome × Engine}
    (hspares : ∀ run there, (execute run there).2.runs = there.runs) :
    let handed := ready.handedOut e.now
    let work := execute handed { e with runs := e.runs.handOut handed }
    ∃ ended runs, Id.run (e.dispatch execute) = (.ok (some ended), { work.2 with runs }) ∧
      e.runs.Settles runs ready ended work.1 work.2.now := by
  intro handed work
  obtain ⟨_, _, _, hrunning, horderly⟩ := hs.claim hactive hpeek
  have hclaim := claimNext_eq_handOut hs hactive hpeek
  have hstored : (e.runs.handOut handed).lookup ready.id = .ok handed := by
    obtain ⟨hmem, _⟩ := hasBegun_of_claimNext hs hclaim
    exact horderly.lookup_of_mem hmem
  have hwork : work.2.runs = e.runs.handOut handed := hspares _ _
  obtain ⟨ended, hsettle, hid, hstatus, hattempt, hwait⟩ :=
    @Scheduler.settle_handOut e.runs handed hstored rfl work.1 work.2.now
  rw [← hstatus] at hsettle hattempt hwait
  have hready : ready ∈ e.runs.runs :=
    (Scheduler.lookup_eq_ok (Scheduler.peek?_eq_some hpeek).2.1).1
  refine ⟨ended, _, ?_, Scheduler.settles_of_record hready hid
    (hstatus.trans (work.1.statusFor_handedOut ready e.now)) hattempt hwait⟩
  rw [dispatch_of_claim hclaim]
  dsimp only
  rw [onRuns_eq, hwork, hsettle]
  rfl

theorem inDates?_of_settled (run : TestRun) (e' : Engine) :
    inDates? (.ok (some run), e') = if run.isDated then some (.ok (some run), e') else none := rfl

/-- A dispatch whose executor leaves the scheduler alone is never refused. It finds no run exactly
when the slot is taken or no queued run is ready, and then nothing changes. Otherwise the executor
gets the first run of the queue that is ready, and the run is settled: it has ended in the status
that the outcome names, or waits at the end of the queue, one attempt later, when the outcome is a
failure that may be retried and attempts were left. There is no answer in one case alone: when the
run would have to wait for an instant without a date. -/
theorem dispatch_settles_next {historyLimit : Nat} {acts : List Scheduler.Act}
    (hruns : e.runs = (Scheduler.empty historyLimit).run acts)
    (execute : TestRun → Engine → RunOutcome × Engine)
    (hspares : ∀ run there, (execute run there).2.runs = there.runs) :
    let done := Id.run (e.dispatch? execute)
    let idle := e.runs.active ≠ none ∨ ∀ run ∈ e.runs.runs, run.isReady e.now = false
    (idle → done = some (.ok none, e)) ∧
    (¬ idle → ∃ ready,
      let handed := ready.handedOut e.now
      let work := execute handed { e with runs := e.runs.handOut handed }
      e.runs.active = none ∧ e.runs.peek? e.now = some ready ∧
      (done = none ↔ work.1.statusFor ready = .queued ∧
        Instant.hasDate (work.2.now + ready.safety.durationAfter ready.attempt) = false) ∧
      ∀ answer, done = some answer → ∃ ended runs,
        answer = (.ok (some ended), { work.2 with runs }) ∧
        e.runs.Settles runs ready ended work.1 work.2.now) := by
  intro done idle
  have hs : e.runs.Orderly := hruns ▸ (Scheduler.orderly_empty historyLimit).run acts
  have hidle : idle ↔ e.runs.active ≠ none ∨ e.runs.peek? e.now = none := by
    rw [hs.peek?_eq_none_iff]
  refine ⟨fun h => ?_, fun h => ?_⟩
  · exact congrArg inDates? (dispatch_of_idle (claimNext_eq_none (hidle.mp h)) execute)
  · rw [hidle, not_or, not_not] at h
    obtain ⟨hactive, hpeek⟩ := h
    obtain ⟨ready, hpeek⟩ := Option.ne_none_iff_exists'.mp hpeek
    obtain ⟨ended, runs, hdone, hsettles⟩ := dispatch_of_ready hs hactive hpeek hspares
    have hdone : done = _ := (congrArg inDates? hdone).trans (inDates?_of_settled ended _)
    clear_value done
    subst hdone
    refine ⟨ready, hactive, hpeek, ?_, fun answer hanswer => ?_⟩
    · refine Iff.trans ?_ hsettles.isDated_eq_false_iff
      cases ended.isDated <;> simp
    · split at hanswer
      · exact ⟨ended, runs, (Option.some.inj hanswer).symm, hsettles⟩
      · cases hanswer

/-- The first of two runs fails while the clock moves on, and may be retried: it waits behind the
other one, at its second attempt. Had it passed, it would be over, and the other one alone would
wait. -/
theorem dispatch_settles_next_either :
    let execute (outcome : RunOutcome) : TestRun → Engine → RunOutcome × Engine := fun _ there =>
      (outcome, there.undergo (.besides (.advance 1000)))
    let done (outcome : RunOutcome) := Id.run (waiting.dispatch? (execute outcome))
    (∃ ended e', done (.failed (some "flaky") none true) = some (.ok (some ended), e') ∧
      e'.runs.active = none ∧ e'.runs.queue = [⟨"run-2"⟩, ⟨"run-1"⟩] ∧
      ended ∈ e'.runs.runs ∧ ended.id = ⟨"run-1"⟩ ∧ ended.status = .queued ∧ ended.attempt = 2) ∧
    (∃ ended e', done (.passed none none) = some (.ok (some ended), e') ∧
      e'.runs.active = none ∧ e'.runs.queue = [⟨"run-2"⟩] ∧
      ended ∈ e'.runs.runs ∧ ended.id = ⟨"run-1"⟩ ∧ ended.status = .passed ∧
      ended.attempt = 1) := by
  intro execute done
  have hruns : waiting.runs = (Scheduler.empty Scheduler.defaultHistoryLimit).run
      [.enqueue .null {} waiting.now, .enqueue .null {} waiting.now] := rfl
  have hfree : ¬ (waiting.runs.active ≠ none ∨
      ∀ run ∈ waiting.runs.runs, run.isReady waiting.now = false) := by decide +kernel
  have hqueue : waiting.runs.queue = [⟨"run-1"⟩, ⟨"run-2"⟩] := by decide +kernel
  have hfirst : (waiting.runs.peek? waiting.now).map (fun r => (r.id, r.attempt, r.canRetry)) =
      some (⟨"run-1"⟩, 1, true) := by decide +kernel
  have hturn : ∀ outcome, (done outcome).isSome = true → ∃ ready ended e' now,
      done outcome = some (.ok (some ended), e') ∧ ready.id = ⟨"run-1"⟩ ∧ ready.attempt = 1 ∧
      ready.canRetry = true ∧ waiting.runs.Settles e'.runs ready ended outcome now := by
    intro outcome hsome
    obtain ⟨answer, hanswer⟩ := Option.isSome_iff_exists.mp hsome
    obtain ⟨ready, _, hpeek, _, hsettled⟩ :=
      (dispatch_settles_next hruns (execute outcome) fun _ _ => rfl).2 hfree
    obtain ⟨ended, runs, rfl, hsettles⟩ := hsettled answer hanswer
    rw [hpeek] at hfirst
    simp only [Option.map_some, Option.some.injEq, Prod.mk.injEq] at hfirst
    obtain ⟨hid, hattempt, hleft⟩ := hfirst
    exact ⟨ready, ended, _, _, hanswer, hid, hattempt, hleft, hsettles⟩
  constructor
  · obtain ⟨ready, ended, e', now, hdone, hid, hone, hleft, h⟩ :=
      hturn (.failed (some "flaky") none true) (by decide +kernel)
    have hagain : ended.status = .queued := h.again.mpr ⟨⟨_, _, rfl⟩, of_decide_eq_true hleft⟩
    refine ⟨ended, e', hdone, h.active, ?_, h.stored (.inl hagain), h.id.trans hid, hagain, ?_⟩
    · rw [h.queue, if_pos hagain, hqueue, hid]
      decide
    · rw [h.attempt, if_pos hagain, hone]
  · obtain ⟨ready, ended, e', now, hdone, hid, hone, _, h⟩ :=
      hturn (.passed none none) (by decide +kernel)
    have hover : ended.status = .passed := h.status
    have hnot : ended.status ≠ .queued := by rw [hover]; decide
    refine ⟨ended, e', hdone, h.active, ?_, h.stored (.inr ?_), h.id.trans hid, hover, ?_⟩
    · rw [h.queue, if_neg hnot, hqueue, hid]
      decide
    · exact List.countP_le_length.trans (by rw [Scheduler.put, List.length_map]; decide +kernel)
    · rw [h.attempt, if_neg hnot, hone]

/-- Limits by which a retry has to wait for longer than there are dates. -/
def patience : SafetyPolicy :=
  { retryDelay := 9000000000000000, maxRetryDelay := 9000000000000000 }

/-- An engine where a run with these limits waits. -/
def patient : Engine := (new {} (.stemmed "id") 0).after [.ask (.enqueue .null patience)]

/-- A dispatch by the calendar may give no answer at all, though the run has failed, may be retried,
and has attempts left. -/
theorem dispatch_breaks_off :
    ¬ ∀ (e : Engine) (execute : TestRun → Engine → RunOutcome × Engine),
      (∃ historyLimit acts, e.runs = (Scheduler.empty historyLimit).run acts) →
      (∀ run there, (execute run there).2.runs = there.runs) →
      ∃ answer, Id.run (e.dispatch? execute) = some answer := by
  intro h
  obtain ⟨answer, hanswer⟩ := h patient (fun _ there => (.failed none none true, there))
    ⟨Scheduler.defaultHistoryLimit, [.enqueue .null patience 0], rfl⟩ fun _ _ => rfl
  have hnone : (Id.run (patient.dispatch? fun _ there =>
      (.failed none none true, there))).isSome = false := by decide +kernel
  rw [hanswer] at hnone
  cases hnone

end SharedScene.Engine
