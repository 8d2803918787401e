import SharedScene.Proofs.Run.Outcome

/-!
# The dates in a run

A run says when it was over, and while it waits for another attempt, when that may begin. Each
operation writes these dates by hand beside the status. The date of the end agrees with the status
whatever is asked (`dates_follow_status`): a run has one exactly when it is over.

The date of the next attempt does not. A run that waits for a retry loses it when it is claimed, and
when it is aborted in the queue. But a run may also be ended as aborted by a report, and a report
that comes while the run waits leaves the date in place. That is the only way in which a run that
does not wait has one, and it keeps it for good (`aborted_run_keeps_dispatch_date`).
-/

namespace SharedScene

/-- Whether a run waits in the queue for an attempt that is not its first. -/
def TimedRun.AwaitsRetry (run : TestRun) : Prop := run.status = .queued ∧ 1 < run.attempt

namespace Scheduler

variable {s s' : Scheduler} {act : Act} {acts : List Act} {id : RunId} {old new run : TestRun}
  {ended : RunId → Prop} {now : Instant} {historyLimit : Nat}

/-! ## Reports about runs that wait -/

/-- What is asked reports the end of a run, as aborted, while the run waits for a retry. -/
def EndsWaiting (s : Scheduler) (act : Act) (id : RunId) : Prop :=
  (∃ message result now, act = .complete id .aborted message result now) ∧
    ∃ waiting ∈ s.runs, waiting.id = id ∧ waiting.AwaitsRetry

/-- Somewhere in a history the end of a run is reported, as aborted, while the run waits for a
retry. -/
def EndedWaiting (historyLimit : Nat) (acts : List Act) (id : RunId) : Prop :=
  ∃ before act after, acts = before ++ act :: after ∧
    ((empty historyLimit).run before).EndsWaiting act id

theorem endedWaiting_nil : ¬ EndedWaiting historyLimit [] id := by
  rintro ⟨before, act, after, hacts, _⟩
  exact List.append_ne_nil_of_right_ne_nil before (List.cons_ne_nil act after) hacts.symm

theorem endedWaiting_concat : EndedWaiting historyLimit (acts ++ [act]) id ↔
    EndedWaiting historyLimit acts id ∨ ((empty historyLimit).run acts).EndsWaiting act id := by
  constructor
  · rintro ⟨before, other, after, hacts, hends⟩
    rcases List.eq_nil_or_concat after with rfl | ⟨rest, last, rfl⟩
    · obtain ⟨rfl, hact⟩ := List.append_inj' hacts rfl
      cases hact
      exact .inr hends
    · rw [List.concat_eq_append, ← List.cons_append, ← List.append_assoc] at hacts
      exact .inl ⟨before, other, rest, (List.append_inj' hacts rfl).1, hends⟩
  · rintro (⟨before, other, after, rfl, hends⟩ | hends)
    · exact ⟨before, other, after ++ [act], by simp, hends⟩
    · exact ⟨acts, act, [], rfl, hends⟩

/-- Whoever waits can be ended: the report is granted. -/
theorem EndsWaiting.granted (hs : s.Orderly) (h : s.EndsWaiting act id) :
    ∃ answer, s.ask act = .ok answer := by
  obtain ⟨⟨message, result, now, rfl⟩, waiting, hwaiting, rfl, hqueued, _⟩ := h
  have hnext : .aborted ∈ waiting.status.next := by
    rw [hqueued]
    decide
  exact (exists_complete_iff (by decide)).mpr ⟨waiting, hs.lookup_of_mem hwaiting, hnext⟩

/-! ## Dates -/

/-- The dates in a run agree with its status, but for the runs that were ended while they waited. -/
structure Dated (ended : RunId → Prop) (run : TestRun) : Prop where
  attempt : 1 ≤ run.attempt
  finished : run.finishedAt.isSome = true ↔ run.status.isTerminal = true
  waits : run.nextDispatchAt.isSome = true ↔ run.AwaitsRetry ∨ ended run.id
  aborted : ended run.id → run.status = .aborted

namespace Dated

/-- The dates of a run that was not ended while it waited. -/
theorem of_not_ended (hattempt : 1 ≤ run.attempt)
    (hfinished : run.finishedAt.isSome = true ↔ run.status.isTerminal = true)
    (hwaits : run.nextDispatchAt.isSome = true ↔ run.AwaitsRetry) (hended : ¬ ended run.id) :
    Dated ended run :=
  ⟨hattempt, hfinished, by rw [hwaits, or_iff_left hended], fun h => absurd h hended⟩

/-- Among the runs that may go on none was ended, so those that wait for a retry have a date for
it. -/
theorem of_mayBecome (h : Dated ended old) {status : RunStatus}
    (hmay : old.status.mayBecome status = true) :
    ¬ ended old.id ∧ (old.nextDispatchAt.isSome = true ↔ old.AwaitsRetry) := by
  have hended : ¬ ended old.id := by
    intro hended
    rw [h.aborted hended] at hmay
    cases status <;> cases hmay
  exact ⟨hended, by rw [h.waits, or_iff_left hended]⟩

theorem congr {ended' : RunId → Prop} (h : Dated ended run) (hsame : ended' run.id ↔ ended run.id) :
    Dated ended' run :=
  ⟨h.attempt, h.finished, by rw [hsame]; exact h.waits, fun hended => h.aborted (hsame.mp hended)⟩

end Dated

/-- The dates in all stored runs agree with their statuses. -/
structure DatesAgree (s : Scheduler) (ended : RunId → Prop) : Prop where
  orderly : s.Orderly
  known : ∀ id, ended id → id ∈ firstIds s.sequence
  dated : ∀ run ∈ s.runs, Dated ended run

/-- Whoever may go anywhere but back to the queue is not over. -/
theorem isTerminal_eq_false_of_mayBecome {source target : RunStatus}
    (hmay : source.mayBecome target = true) (hout : target ≠ .queued) :
    source.isTerminal = false := by
  cases source <;> cases target <;> first | rfl | exact absurd rfl hout | exact nomatch hmay

/-- Only a report of an end, as aborted, can end a run that waits. -/
theorem not_ended_of_ne (hended : ¬ ended id)
    (hact : ∀ message result now, act ≠ .complete id .aborted message result now) :
    ¬ (ended id ∨ s.EndsWaiting act id) := by
  rintro (h | ⟨⟨message, result, now, h⟩, _⟩)
  · exact hended h
  · exact hact message result now h

/-- The run that comes back from an act has the dates that its status calls for. -/
theorem DatesAgree.dated_of_ask (h : s.DatesAgree ended) (ha : s.ask act = .ok (new, s')) :
    Dated (fun id => ended id ∨ s.EndsWaiting act id) new := by
  cases act with
  | enqueue scenario safety now =>
    cases ha
    have hended : ¬ ended (Identifier.ofSequence (s.sequence + 1)) := fun hended =>
      ofSequence_not_mem_firstIds _ (h.known _ hended)
    exact .of_not_ended (Nat.le_refl 1) (iff_of_false nofun nofun)
      (iff_of_false nofun fun hawaits => Nat.lt_irrefl 1 hawaits.2)
      (not_ended_of_ne hended fun _ _ _ => nofun)
  | markDispatching id now =>
    obtain ⟨old, hlookup, _, _, hmay, rfl, _⟩ := markDispatching_eq_ok ha
    have hold := h.dated old (lookup_eq_ok hlookup).1
    have hlive := isTerminal_eq_false_of_mayBecome hmay nofun
    refine .of_not_ended hold.attempt ?_ (iff_of_false nofun fun hawaits => nomatch hawaits.1)
      (not_ended_of_ne (hold.of_mayBecome hmay).1 fun _ _ _ => nofun)
    rw [hold.finished, hlive]
    exact iff_of_false nofun nofun
  | markRunning id now =>
    obtain ⟨old, hlookup, hmay, rfl, _⟩ := markRunning_eq_ok ha
    have hold := h.dated old (lookup_eq_ok hlookup).1
    have hlive := isTerminal_eq_false_of_mayBecome hmay nofun
    obtain ⟨hended, hwaits⟩ := hold.of_mayBecome hmay
    -- only a claimed run begins, and that one does not wait
    have hclaimed : ¬ old.AwaitsRetry := fun hawaits => by
      rw [hawaits.1] at hmay
      cases hmay
    refine .of_not_ended hold.attempt ?_ ?_ (not_ended_of_ne hended fun _ _ _ => nofun)
    · rw [hold.finished, hlive]
      exact iff_of_false nofun nofun
    · exact iff_of_false (fun hset => hclaimed (hwaits.mp hset)) fun hawaits => nomatch hawaits.1
  | complete id status message result now =>
    obtain ⟨old, hlookup, hterminal, hmay, rfl, _⟩ := complete_eq_ok ha
    obtain ⟨hmem, rfl⟩ := lookup_eq_ok hlookup
    have hold := h.dated old hmem
    obtain ⟨hended, hwaits⟩ := hold.of_mayBecome hmay
    refine ⟨hold.attempt, iff_of_true rfl hterminal, ?_, ?_⟩
    · refine hwaits.trans ⟨fun hawaits => ?_, ?_⟩
      · -- from the queue a run can only be ended as aborted
        have hnext := RunStatus.mayBecome_iff.mp (hawaits.1 ▸ hmay)
        rcases List.mem_pair.mp hnext with rfl | rfl
        · cases hterminal
        · exact .inr (.inr ⟨⟨message, result, now, rfl⟩, old, hmem, rfl, hawaits⟩)
      · rintro (hawaits | hended' | ⟨_, waiting, hwaiting, hid, hawaits⟩)
        · obtain ⟨rfl, _⟩ := hawaits
          cases hterminal
        · exact absurd hended' hended
        · rwa [← h.orderly.eq_of_id_eq hwaiting hmem hid]
    · rintro (hended' | ⟨⟨_, _, _, hact⟩, _⟩)
      · exact absurd hended' hended
      · cases hact
        rfl
  | queueRetry id reason now =>
    obtain ⟨old, hlookup, _, hmay, rfl, _⟩ := queueRetry_eq_ok ha
    have hold := h.dated old (lookup_eq_ok hlookup).1
    have hnext : 1 < old.attempt + 1 := Nat.lt_succ_of_le hold.attempt
    exact .of_not_ended (Nat.le_of_lt hnext) (iff_of_false nofun nofun)
      (iff_of_true rfl ⟨rfl, hnext⟩)
      (not_ended_of_ne (hold.of_mayBecome hmay).1 fun _ _ _ => nofun)
  | abortQueued id reason now =>
    obtain ⟨old, hlookup, hqueued, rfl, _⟩ := abortQueued_eq_ok ha
    have hold := h.dated old (lookup_eq_ok hlookup).1
    have hmay : old.status.mayBecome .aborted = true := by
      rw [hqueued]
      rfl
    exact .of_not_ended hold.attempt (iff_of_true rfl rfl)
      (iff_of_false nofun fun hawaits => nomatch hawaits.1)
      (not_ended_of_ne (hold.of_mayBecome hmay).1 fun _ _ _ => nofun)

theorem firstIds_subset {m n : Nat} (h : m ≤ n) : firstIds m ⊆ firstIds n := by
  intro id hid
  obtain ⟨i, hi, rfl⟩ := List.mem_map.mp hid
  exact List.mem_map_of_mem (List.mem_range.mpr ((List.mem_range.mp hi).trans_le h))

/-- An act leaves the dates of all stored runs in agreement with their statuses. -/
theorem DatesAgree.perform (h : s.DatesAgree ended) (act : Act) :
    (s.perform act).DatesAgree fun id => ended id ∨ s.EndsWaiting act id := by
  refine ⟨h.orderly.perform act, fun id hid => ?_, fun run hrun => ?_⟩
  · have hold : id ∈ firstIds s.sequence := by
      rcases hid with hended | ⟨_, waiting, hwaiting, rfl, _⟩
      · exact h.known id hended
      · exact h.orderly.arrival.subset (List.mem_map_of_mem hwaiting)
    refine firstIds_subset ?_ hold
    rcases (h.orderly.sequence_perform act).2 with ⟨scenario, safety, now, rfl⟩ | hsequence
    · exact Nat.le_succ _
    · exact hsequence.ge
  · -- whoever is stored as before was not ended by this act
    have hkept : run ∈ s.runs → ¬ s.EndsWaiting act run.id →
        Dated (fun id => ended id ∨ s.EndsWaiting act id) run := fun hmem hnot =>
      (h.dated run hmem).congr (or_iff_left hnot)
    unfold Scheduler.perform at hrun
    split at hrun
    · next new s' ha =>
      have hnew := h.dated_of_ask ha
      rcases ask_cases h.orderly ha with ⟨scenario, safety, now, rfl, heq⟩ | hm
      · cases heq
        rcases List.mem_append.mp hrun with hrun | hrun
        · exact hkept hrun fun ⟨⟨_, _, _, hact⟩, _⟩ => nomatch hact
        · rwa [List.mem_singleton.mp hrun]
      · rcases hm.eq_or_mem hrun with rfl | ⟨hrun, hne⟩
        · exact hnew
        · refine hkept hrun fun ⟨⟨message, result, now, hact⟩, _⟩ => hne ?_
          rw [hact] at ha
          obtain ⟨old, hlookup, _, _, hnew, _⟩ :=
            complete_eq_ok (show s.complete run.id .aborted message result now = _ from ha)
          rw [hnew]
          exact (lookup_eq_ok hlookup).2.symm
    · next e hrefused =>
      refine hkept hrun fun hends => ?_
      obtain ⟨answer, ha⟩ := hends.granted h.orderly
      cases hrefused.symm.trans ha

theorem datesAgree_run (historyLimit : Nat) (acts : List Act) :
    ((empty historyLimit).run acts).DatesAgree (EndedWaiting historyLimit acts) := by
  induction acts using List.reverseRecOn with
  | nil =>
    exact ⟨orderly_empty historyLimit, fun _ hended => absurd hended endedWaiting_nil,
      fun _ hrun => absurd hrun List.not_mem_nil⟩
  | append_singleton acts act ih =>
    have hended : EndedWaiting historyLimit (acts ++ [act]) = fun id =>
        EndedWaiting historyLimit acts id ∨ ((empty historyLimit).run acts).EndsWaiting act id :=
      funext fun _ => propext endedWaiting_concat
    rw [hended, Scheduler.run, List.foldl_concat]
    exact ih.perform act

/-- Whatever is asked of a scheduler, a stored run says when it was over exactly when it is over. It
says when its next attempt may begin exactly when it waits in the queue for a retry, or when its end
was reported, as aborted, while it did; and then it is aborted and no longer in the queue. -/
theorem dates_follow_status (historyLimit : Nat) (acts : List Act) :
    ∀ run ∈ ((empty historyLimit).run acts).runs,
      (run.finishedAt.isSome = true ↔ run.status.isTerminal = true) ∧
      (run.nextDispatchAt.isSome = true ↔
        (run.status = .queued ∧ 1 < run.attempt) ∨ EndedWaiting historyLimit acts run.id) ∧
      (EndedWaiting historyLimit acts run.id → run.status = .aborted) := by
  intro run hrun
  have hdated := (datesAgree_run historyLimit acts).dated run hrun
  exact ⟨hdated.finished, hdated.waits, hdated.aborted⟩

/-- Two runs wait for a retry, and the end of the first one is reported, as aborted. -/
def reportedHistory : List Act :=
  [.enqueue .null {} 0, .enqueue .null {} 0, .markDispatching ⟨"run-1"⟩ 1,
    .queueRetry ⟨"run-1"⟩ "again" 2, .markDispatching ⟨"run-2"⟩ 3,
    .queueRetry ⟨"run-2"⟩ "again" 4, .complete ⟨"run-1"⟩ .aborted none none 5]

/-- Of the two runs that have a date for a retry, one waits for it, and the other one is over. -/
theorem dates_follow_status_reported :
    let s := (empty 5).run reportedHistory
    s.runs.map (fun run => (run.status, run.nextDispatchAt.isSome, run.finishedAt.isSome)) =
        [(.aborted, true, true), (.queued, true, false)] ∧
      ∃ run ∈ s.runs, run.nextDispatchAt.isSome = true ∧ run.status = .aborted ∧
        EndedWaiting 5 reportedHistory run.id := by
  intro s
  have hfirst : (s.runs.head?.map fun run => (run.status, run.nextDispatchAt.isSome)) =
      some (.aborted, true) := by decide +kernel
  obtain ⟨run, hrun, hdates⟩ := Option.map_eq_some_iff.mp hfirst
  obtain ⟨haborted, hset⟩ := Prod.ext_iff.mp hdates
  have hmem := List.mem_of_mem_head? hrun
  obtain ⟨_, hwaits, _⟩ := dates_follow_status 5 reportedHistory run hmem
  refine ⟨by decide +kernel, run, hmem, hset, haborted, ?_⟩
  refine (hwaits.mp hset).resolve_left fun hqueued => ?_
  cases haborted.symm.trans hqueued.1

/-- A run that does not wait any more may say when its next attempt begins. -/
theorem aborted_run_keeps_dispatch_date :
    ¬ ∀ (historyLimit : Nat) (acts : List Act), ∀ run ∈ ((empty historyLimit).run acts).runs,
      run.nextDispatchAt.isSome = true → run.status = .queued := by
  intro h
  have hall := h 5 reportedHistory
  revert hall
  decide +kernel

end Scheduler

end SharedScene
