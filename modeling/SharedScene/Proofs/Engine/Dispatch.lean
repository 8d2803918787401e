import SharedScene.Engine.Runs
import SharedScene.Proofs.Engine.Run
import SharedScene.Proofs.Run.Outcome

/-!
# A dispatch, and what others do meanwhile

A dispatch claims a run, hands it to an executor, and records what the executor reports. While the
executor works, everybody else may use the engine: send requests, move the clock, operate the
scheduler, and begin and end dispatches of their own (`Deed`). A whole dispatch is deeds again, so
they may be nested (`exists_deeds_dispatch`).

What becomes of the outcome is decided by the run as it is stored when the outcome arrives
(`outcome_is_recorded`). If nobody has retried the run by then, the outcome is recorded exactly when
the run is still running.

The attempt itself is not looked at. A run that was queued again and is running once more takes the
outcome of its earlier attempt for one of the later (`outcome_recorded_for_later_attempt`).
-/

namespace SharedScene.Engine

open Success

/-! ## Deeds -/

/-- What anybody may do to an engine while an executor works. -/
inductive Deed where
  /-- An operation of the scheduler, at the time of the clock. -/
  | ask (act : Instant → Scheduler.Act)
  /-- A dispatch begins. -/
  | claim
  /-- A dispatch ends. -/
  | settle (run : TestRun) (outcome : RunOutcome)
  /-- Anything that is not about test runs. -/
  | besides (act : Act)

/-- The engine after an operation, which may be refused. -/
def orStay {α : Type} (e : Engine) : Except SchedulerError (α × Engine) → Engine
  | .ok (_, e') => e'
  | .error _ => e

/-- The engine after a deed. One that is refused leaves it as it is. -/
def undergo (e : Engine) : Deed → Engine
  | .ask act => e.orStay (e.onRuns fun s now => s.ask (act now))
  | .claim =>
    match e.claimNext with
    | .ok (some (_, claimed)) => claimed
    | _ => e
  | .settle run outcome => e.orStay (e.onRuns fun s now => s.settle run outcome now)
  | .besides act => { e.perform act with runs := e.runs }

/-- The engine after several deeds, in their order. -/
def after (e : Engine) (deeds : List Deed) : Engine := deeds.foldl undergo e

variable {e claimed : Engine} {run : TestRun} {outcome : RunOutcome} {deeds meanwhile : List Deed}

theorem after_append (e : Engine) (deeds more : List Deed) :
    e.after (deeds ++ more) = (e.after deeds).after more :=
  List.foldl_append

section Operations

variable {α : Type} {a : α} {e' : Engine}
  {f : Scheduler → Instant → Except SchedulerError (α × Scheduler)}

theorem onRuns_eq (e : Engine) (f : Scheduler → Instant → Except SchedulerError (α × Scheduler)) :
    e.onRuns f = (f e.runs e.now).map (Prod.map id fun runs => { e with runs }) := by
  unfold onRuns
  cases f e.runs e.now with
  | error err => rfl
  | ok done => rfl

theorem onRuns_eq_ok (h : e.onRuns f = .ok (a, e')) :
    ∃ s, f e.runs e.now = .ok (a, s) ∧ e' = { e with runs := s } := by
  rw [onRuns_eq] at h
  cases hf : f e.runs e.now with
  | error err =>
    rw [hf] at h
    cases h
  | ok done =>
    rw [hf] at h
    cases h
    exact ⟨done.2, rfl, rfl⟩

/-- The runs after an operation, granted or not. -/
theorem runs_orStay_onRuns {act : Scheduler.Act}
    {f : Scheduler → Instant → Except SchedulerError (TestRun × Scheduler)}
    (h : f e.runs e.now = e.runs.ask act) :
    (e.orStay (e.onRuns f)).runs = e.runs.perform act := by
  unfold Scheduler.perform
  rw [onRuns_eq, h]
  cases e.runs.ask act with
  | error err => rfl
  | ok done => rfl

end Operations

/-- A claimed run was the first that is ready while the slot was free; it is dispatching, and then
running. -/
theorem claimNext_eq_some (h : e.claimNext = .ok (some (run, claimed))) :
    ∃ ready dispatching s s', e.runs.active = none ∧ e.runs.peek? e.now = some ready ∧
      e.runs.markDispatching ready.id e.now = .ok (dispatching, s) ∧
      s.markRunning ready.id e.now = .ok (run, s') ∧ claimed = { e with runs := s' } := by
  unfold claimNext at h
  split at h
  · next ready hactive hpeek =>
    obtain ⟨⟨dispatching, e₁⟩, hdispatching, h⟩ := bind_eq_ok.mp h
    obtain ⟨⟨running, e₂⟩, hrunning, h⟩ := bind_eq_ok.mp h
    obtain ⟨s, hs, rfl⟩ := onRuns_eq_ok hdispatching
    obtain ⟨s', hs', rfl⟩ := onRuns_eq_ok hrunning
    cases h
    exact ⟨ready, dispatching, s, s', hactive, hpeek, hs, hs', rfl⟩
  · cases h

/-- Whatever a deed is, to the runs it is some operations of the scheduler. -/
theorem exists_acts_undergo (e : Engine) (deed : Deed) :
    ∃ acts, (e.undergo deed).runs = e.runs.run acts := by
  cases deed with
  | ask act => exact ⟨[act e.now], runs_orStay_onRuns rfl⟩
  | claim =>
    rw [undergo]
    split
    · next run claimed hclaim =>
      obtain ⟨ready, _, s, s', _, _, hdispatching, hrunning, rfl⟩ := claimNext_eq_some hclaim
      refine ⟨[.markDispatching ready.id e.now, .markRunning ready.id e.now], ?_⟩
      show s' = (e.runs.perform (.markDispatching ready.id e.now)).perform _
      rw [show e.runs.perform (.markDispatching ready.id e.now) = s by
        rw [Scheduler.perform, Scheduler.ask, hdispatching]]
      rw [Scheduler.perform, Scheduler.ask, hrunning]
    · exact ⟨[], rfl⟩
  | settle run outcome =>
    exact ⟨[Scheduler.settling run outcome e.now],
      runs_orStay_onRuns (Scheduler.settle_eq_ask e.runs run outcome e.now)⟩
  | besides act => exact ⟨[], rfl⟩

theorem exists_acts_after (e : Engine) (deeds : List Deed) :
    ∃ acts, (e.after deeds).runs = e.runs.run acts := by
  induction deeds generalizing e with
  | nil => exact ⟨[], rfl⟩
  | cons deed deeds ih =>
    obtain ⟨acts, hdeed⟩ := exists_acts_undergo e deed
    obtain ⟨more, hdeeds⟩ := ih (e.undergo deed)
    refine ⟨acts ++ more, ?_⟩
    show ((e.undergo deed).after deeds).runs = _
    rw [hdeeds, hdeed]
    exact List.foldl_append.symm

theorem orderly_after (config : Config) (ids : IdSupply) (clock : Int) (deeds : List Deed) :
    ((new config ids clock).after deeds).runs.Orderly := by
  obtain ⟨acts, hacts⟩ := exists_acts_after (new config ids clock) deeds
  rw [hacts]
  exact (Scheduler.orderly_empty _).run acts

/-! ## Dispatches -/

theorem undergo_claim (h : e.claimNext = .ok (some (run, claimed))) :
    e.undergo .claim = claimed := by
  rw [undergo, h]

/-- A claimed run is stored, and running. -/
theorem hasBegun_of_claimNext (hs : e.runs.Orderly)
    (h : e.claimNext = .ok (some (run, claimed))) :
    run ∈ claimed.runs.runs ∧ run.status = .running ∧ claimed.runs.HasBegun run := by
  obtain ⟨ready, dispatching, s, s', _, _, hdispatching, hrunning, rfl⟩ := claimNext_eq_some h
  have hs₁ : s.Orderly := (Scheduler.markDispatching_moves hs hdispatching).orderly hs
  have hs₂ : s'.Orderly := (Scheduler.markRunning_moves hs₁ hrunning).orderly hs₁
  obtain ⟨old, hlookup, _, rfl, rfl⟩ := Scheduler.markRunning_eq_ok hrunning
  have hmem : { old with status := .running, updatedAt := e.now, startedAt := some e.now } ∈
      (s.put { old with status := .running, updatedAt := e.now, startedAt := some e.now }).runs :=
    List.mem_map.mpr ⟨old, (Scheduler.lookup_eq_ok hlookup).1, if_pos rfl⟩
  exact ⟨hmem, rfl, .of_running hs₂ hmem rfl⟩

/-- When nothing can be claimed, a dispatch does nothing. -/
theorem dispatch_of_idle (h : e.claimNext = .ok none)
    (execute : TestRun → Engine → RunOutcome × Engine) :
    Id.run (e.dispatch execute) = (.ok none, e) := by
  unfold dispatch
  rw [h]
  rfl

/-- A dispatch of a claimed run is what its executor does, and then the outcome. -/
theorem dispatch_of_claim (h : e.claimNext = .ok (some (run, claimed)))
    (execute : TestRun → Engine → RunOutcome × Engine) :
    let work := execute run claimed
    Id.run (e.dispatch execute) =
      match work.2.onRuns fun s now => s.settle run work.1 now with
      | .error err => (.error err, work.2)
      | .ok (recorded, e') => (.ok (some recorded), e') := by
  intro work
  unfold dispatch
  rw [h]
  show Id.run (match work.2.onRuns fun s now => s.settle run work.1 now with
    | .error err => _
    | .ok (recorded, e') => _) = _
  split <;> rfl

/-- A dispatch whose executor reports an outcome after others have done their deeds. -/
def dispatchAmid (e : Engine) (meanwhile : List Deed) (outcome : RunOutcome) :
    Except SchedulerError (Option TestRun) × Engine :=
  Id.run (e.dispatch fun _ claimed => (outcome, claimed.after meanwhile))

theorem dispatchAmid_eq (h : e.claimNext = .ok (some (run, claimed))) (meanwhile : List Deed)
    (outcome : RunOutcome) :
    let there := claimed.after meanwhile
    e.dispatchAmid meanwhile outcome =
      match there.onRuns fun s now => s.settle run outcome now with
      | .error err => (.error err, there)
      | .ok (recorded, e') => (.ok (some recorded), e') :=
  dispatch_of_claim h fun _ claimed => (outcome, claimed.after meanwhile)

/-- A dispatch of a claimed run is refused at its end, or records the outcome. -/
theorem dispatchAmid_cases (h : e.claimNext = .ok (some (run, claimed))) (meanwhile : List Deed)
    (outcome : RunOutcome) :
    let there := claimed.after meanwhile
    (∃ err, there.runs.settle run outcome there.now = .error err ∧
      e.dispatchAmid meanwhile outcome = (.error err, there)) ∨
    ∃ recorded s, there.runs.settle run outcome there.now = .ok (recorded, s) ∧
      e.dispatchAmid meanwhile outcome = (.ok (some recorded), { there with runs := s }) := by
  intro there
  rw [dispatchAmid_eq h, onRuns_eq]
  cases hsettle : there.runs.settle run outcome there.now with
  | error err => exact .inl ⟨err, rfl, rfl⟩
  | ok granted => exact .inr ⟨granted.1, granted.2, rfl, rfl⟩

/-- A whole dispatch is deeds: its two halves around those of others. -/
theorem exists_deeds_dispatch (e : Engine) (meanwhile : List Deed) (outcome : RunOutcome) :
    ∃ deeds, (e.dispatchAmid meanwhile outcome).2 = e.after deeds := by
  cases hclaim : e.claimNext with
  | error err =>
    refine ⟨[], ?_⟩
    unfold dispatchAmid dispatch
    rw [hclaim]
    rfl
  | ok found =>
    cases found with
    | none => exact ⟨[], congrArg Prod.snd (dispatch_of_idle hclaim _)⟩
    | some claim =>
      obtain ⟨run, claimed⟩ := claim
      refine ⟨.claim :: (meanwhile ++ [.settle run outcome]), ?_⟩
      rw [dispatchAmid_eq hclaim]
      show _ = (e.undergo .claim).after (meanwhile ++ [.settle run outcome])
      rw [after_append, undergo_claim hclaim]
      show _ = (claimed.after meanwhile).undergo (.settle run outcome)
      unfold undergo
      dsimp only
      cases (claimed.after meanwhile).onRuns fun s now => s.settle run outcome now with
      | error err => rfl
      | ok done => rfl

/-- Whatever others do while an executor works, and whatever it reports: when the outcome is
refused, the engine stays as they have left it. When it is recorded, the stored run gets the next
record of its life, in the status that the outcome gives, and no other run is touched. It is
recorded when the status in which the run is stored then leads there, and for a retry attempts are
left. The stored run is never at an earlier attempt than the one that was handed out; and as long as
nobody has retried it, the outcome is recorded exactly when it is still running at that attempt. -/
theorem outcome_is_recorded (config : Config) (ids : IdSupply) (clock : Int)
    (deeds meanwhile : List Deed) (outcome : RunOutcome)
    (hclaim : ((new config ids clock).after deeds).claimNext = .ok (some (run, claimed))) :
    let there := claimed.after meanwhile
    let done := ((new config ids clock).after deeds).dispatchAmid meanwhile outcome
    run.status = .running ∧
    (∀ err, done.1 = .error err → done.2 = there) ∧
    (∀ answer, done.1 = .ok answer → ∃ recorded, answer = some recorded ∧
      recorded.id = run.id ∧ recorded.status = outcome.statusFor run ∧
      there.runs.Moves done.2.runs recorded ∧
      ∃ current ∈ there.runs.runs, Scheduler.Follows current recorded) ∧
    ((∃ answer, done.1 = .ok answer) ↔ ∃ current, there.runs.lookup run.id = .ok current ∧
      outcome.statusFor run ∈ current.status.next ∧
      (outcome.statusFor run = .queued → current.canRetry = true)) ∧
    (∀ current ∈ there.runs.runs, current.id = run.id → run.attempt ≤ current.attempt) ∧
    (there.runs.Unretried run outcome →
      ((∃ answer, done.1 = .ok answer) ↔ ∃ current ∈ there.runs.runs, current.id = run.id ∧
        current.attempt = run.attempt ∧ current.status = .running)) := by
  intro there done
  obtain ⟨_, hrunning, hclaimed⟩ :=
    hasBegun_of_claimNext (orderly_after config ids clock deeds) hclaim
  have hbegun : there.runs.HasBegun run := by
    obtain ⟨acts, hacts⟩ := exists_acts_after claimed meanwhile
    rw [hacts]
    exact hclaimed.run acts
  have hdone : (∃ err, there.runs.settle run outcome there.now = .error err ∧
        done = (.error err, there)) ∨
      ∃ recorded s, there.runs.settle run outcome there.now = .ok (recorded, s) ∧
        done = (.ok (some recorded), { there with runs := s }) :=
    dispatchAmid_cases hclaim meanwhile outcome
  clear_value there done
  have hlater : ∀ current ∈ there.runs.runs,
      current.id = run.id → run.attempt ≤ current.attempt := by
    intro current hmem hid
    have hstands := (hbegun.since current hmem hid).stands
    omega
  have hgranted : (∃ answer, done.1 = .ok answer) ↔
      ∃ granted, there.runs.settle run outcome there.now = .ok granted := by
    rcases hdone with ⟨err, hsettle, hdone⟩ | ⟨recorded, s, hsettle, hdone⟩
    · rw [hsettle, hdone]
      simp only [reduceCtorEq, exists_false]
    · rw [hsettle, hdone]
      exact ⟨fun _ => ⟨_, rfl⟩, fun _ => ⟨_, rfl⟩⟩
  refine ⟨hrunning, fun err herr => ?_, fun answer hanswer => ?_,
    hgranted.trans Scheduler.exists_settle_iff, hlater,
    fun hsame => hgranted.trans (hbegun.exists_settle_iff_running hsame)⟩
  · rcases hdone with ⟨_, _, hdone⟩ | ⟨recorded, s, _, hdone⟩
    · rw [hdone]
    · rw [hdone] at herr
      cases herr
  · rcases hdone with ⟨_, _, hdone⟩ | ⟨recorded, s, hsettle, hdone⟩
    · rw [hdone] at hanswer
      cases hanswer
    · obtain ⟨hid, hstatus⟩ := Scheduler.recorded_of_settle hsettle
      obtain ⟨hmoves, hfollows⟩ := Scheduler.follows_of_settle hbegun.orderly hsettle
      rw [hdone] at hanswer ⊢
      exact ⟨recorded, (Except.ok.inj hanswer).symm, hid, hstatus, hmoves, hfollows⟩

/-- An engine where two runs wait. -/
def waiting : Engine :=
  (new {} (.stemmed "id") 0).after [.ask (.enqueue .null {}), .ask (.enqueue .null {})]

/-- What is handed out of them. -/
theorem exists_claim_waiting : ∃ run claimed, waiting.claimNext = .ok (some (run, claimed)) ∧
    waiting.undergo .claim = claimed ∧ run.id = ⟨"run-1"⟩ ∧ run.attempt = 1 := by
  have hfound : waiting.claimNext.toOption.join.isSome = true := by decide +kernel
  obtain ⟨⟨run, claimed⟩, hsome⟩ := Option.isSome_iff_exists.mp hfound
  have hclaim : waiting.claimNext = .ok (some (run, claimed)) := by
    cases hnext : waiting.claimNext with
    | error err => rw [hnext] at hsome; cases hsome
    | ok found => rw [hnext] at hsome; exact congrArg Except.ok hsome
  obtain ⟨hmem, hrunning, _⟩ := hasBegun_of_claimNext (orderly_after _ _ _ _) hclaim
  have hstored : ∀ r ∈ (waiting.undergo .claim).runs.runs,
      r.status = .running → r.id = ⟨"run-1"⟩ ∧ r.attempt = 1 := by decide +kernel
  rw [undergo_claim hclaim] at hstored
  exact ⟨run, claimed, hclaim, undergo_claim hclaim, hstored run hmem hrunning⟩

/-- The run that was handed out is aborted meanwhile, and the next one begins. The outcome comes too
late, and changes nothing. -/
theorem outcome_is_recorded_aborted :
    let meanwhile : List Deed := [.ask (.complete ⟨"run-1"⟩ .aborted none none), .claim]
    let there := (waiting.undergo .claim).after meanwhile
    let done := waiting.dispatchAmid meanwhile (.passed none none)
    there.runs.active = some ⟨"run-2"⟩ ∧ (∃ err, done.1 = .error err) ∧ done.2 = there := by
  intro meanwhile there done
  obtain ⟨run, claimed, hclaim, hclaimed, hid, hattempt⟩ := exists_claim_waiting
  have hstored : ∀ r ∈ there.runs.runs, r.attempt = 1 ∧
      (r.id = ⟨"run-1"⟩ → r.status = .aborted) := by decide +kernel
  obtain ⟨_, hrefused, _, _, _, hrecorded⟩ :=
    outcome_is_recorded {} (.stemmed "id") 0 _ meanwhile (.passed none none) hclaim
  rw [← hclaimed] at hrefused hrecorded
  have hunretried : there.runs.Unretried run (.passed none none) := fun current hmem _ =>
    ⟨(hstored current hmem).1.trans hattempt.symm, fun _ => nofun⟩
  have herr : ∃ err, done.1 = .error err := by
    cases hanswer : done.1 with
    | error err => exact ⟨err, rfl⟩
    | ok answer =>
      obtain ⟨current, hmem, hsame, _, hrunning⟩ := (hrecorded hunretried).mp ⟨answer, hanswer⟩
      have haborted := (hstored current hmem).2 (hsame.trans hid)
      rw [hrunning] at haborted
      cases haborted
  exact ⟨by decide +kernel, herr, hrefused _ herr.choose_spec⟩

/-- An outcome may be recorded though the run is no longer at the attempt that was handed out: when
it was queued again meanwhile and is running once more, it takes the outcome as one of its later
attempt. -/
theorem outcome_recorded_for_later_attempt :
    ¬ ∀ (deeds meanwhile : List Deed) (outcome : RunOutcome) (run : TestRun) (claimed : Engine),
      ((new {} (.stemmed "id") 0).after deeds).claimNext = .ok (some (run, claimed)) →
      (∃ answer,
        (((new {} (.stemmed "id") 0).after deeds).dispatchAmid meanwhile outcome).1 = .ok answer) →
      ∃ current ∈ (claimed.after meanwhile).runs.runs, current.id = run.id ∧
        current.attempt = run.attempt ∧ current.status = .running := by
  intro h
  obtain ⟨run, claimed, hclaim, hclaimed, hid, hattempt⟩ := exists_claim_waiting
  let meanwhile : List Deed :=
    [.ask (.queueRetry ⟨"run-1"⟩ "again"), .besides (.advance 1000),
      .ask (.markDispatching ⟨"run-1"⟩), .ask (.markRunning ⟨"run-1"⟩)]
  have hrecorded : (waiting.dispatchAmid meanwhile (.passed none none)).1.isOk = true := by
    decide +kernel
  have hanswer : ∃ answer, (waiting.dispatchAmid meanwhile (.passed none none)).1 = .ok answer := by
    cases hdone : (waiting.dispatchAmid meanwhile (.passed none none)).1 with
    | ok answer => exact ⟨answer, rfl⟩
    | error err => rw [hdone] at hrecorded; cases hrecorded
  obtain ⟨current, hmem, hsame, hsameAttempt, _⟩ := h _ meanwhile _ run claimed hclaim hanswer
  have hstored : ∀ r ∈ ((waiting.undergo .claim).after meanwhile).runs.runs,
      r.id = ⟨"run-1"⟩ → r.attempt = 2 := by decide +kernel
  rw [hclaimed] at hstored
  have hlater := hstored current hmem (hsame.trans hid)
  omega

end SharedScene.Engine
