import Mathlib
import SharedScene.Proofs.Success
import SharedScene.Run.Scheduler

/-!
# Runs, queue and slot fit together

A scheduler keeps three accounts: the stored runs, the queue, and the active slot. No account is
computed from another; every operation changes each of them by hand. They agree all the same
(`Scheduler.accounts_agree`): the queue has the ids of the queued runs, the slot the one that is
dispatching or running, and only runs that are over are ever forgotten.

Every operation but `enqueue` **moves** one stored run to another status (`Scheduler.Moves`): it
says where the run has to be afterwards, and leaves what it says about all others. The agreement of
the accounts follows from that alone.
-/

namespace SharedScene

/-- Whether a run holds the active slot. -/
def RunStatus.isActive : RunStatus → Bool
  | .dispatching => true
  | .running => true
  | _ => false

theorem RunStatus.isTerminal_eq_false_of_isActive {status : RunStatus}
    (h : status.isActive = true) : status.isTerminal = false := by
  cases status <;> first | rfl | cases h

namespace Scheduler

open Success

/-! ## Histories -/

/-- What can be asked of a scheduler. -/
inductive Act where
  | enqueue (scenario : Json) (safety : SafetyPolicy) (now : Instant)
  | markDispatching (id : RunId) (now : Instant)
  | markRunning (id : RunId) (now : Instant)
  | complete (id : RunId) (status : RunStatus) (message : Option String) (result : Option Json)
    (now : Instant)
  | queueRetry (id : RunId) (reason : String) (now : Instant)
  | abortQueued (id : RunId) (reason : String) (now : Instant)

/-- The answer to what is asked: a run and the scheduler after it, or a refusal. -/
def ask (s : Scheduler) : Act → Except SchedulerError (TestRun × Scheduler)
  | .enqueue scenario safety now => .ok (s.enqueue scenario safety now)
  | .markDispatching id now => s.markDispatching id now
  | .markRunning id now => s.markRunning id now
  | .complete id status message result now => s.complete id status message result now
  | .queueRetry id reason now => s.queueRetry id reason now
  | .abortQueued id reason now => s.abortQueued id reason now

/-- The scheduler after something was asked of it. A refusal leaves it as it is. -/
def perform (s : Scheduler) (act : Act) : Scheduler :=
  match s.ask act with
  | .ok (_, s') => s'
  | .error _ => s

/-- The scheduler after several things were asked of it, in their order. -/
def run (s : Scheduler) (acts : List Act) : Scheduler := acts.foldl perform s

/-- The ids of the runs that enter, in order of arrival. -/
def arrivals (s : Scheduler) : List Act → List RunId
  | [] => []
  | .enqueue scenario safety now :: acts =>
    let (entered, s') := s.enqueue scenario safety now
    entered.id :: arrivals s' acts
  | act :: acts => arrivals (s.perform act) acts

/-! ## The ids -/

theorem ofSequence_injective : Function.Injective Identifier.ofSequence := by
  intro m n h
  have htext : "run-" ++ Nat.repr m = "run-" ++ Nat.repr n := Identifier.mk.inj h
  exact Nat.repr_injective ((String.append_right_inj _).mp htext)

/-- The ids of the first `n` runs, in order of arrival. -/
def firstIds (n : Nat) : List RunId := (List.range n).map fun i => Identifier.ofSequence (i + 1)

theorem firstIds_succ (n : Nat) :
    firstIds (n + 1) = firstIds n ++ [Identifier.ofSequence (n + 1)] := by
  rw [firstIds, List.range_succ, List.map_append]
  rfl

theorem nodup_firstIds (n : Nat) : (firstIds n).Nodup := by
  refine List.Nodup.map (fun i j hij => ?_) List.nodup_range
  exact Nat.succ.inj (ofSequence_injective hij)

/-- The next id is a new one. -/
theorem ofSequence_not_mem_firstIds (n : Nat) : Identifier.ofSequence (n + 1) ∉ firstIds n := by
  intro h
  obtain ⟨i, hi, heq⟩ := List.mem_map.mp h
  have hlt := List.mem_range.mp hi
  have hin := ofSequence_injective heq
  omega

/-! ## Lookups -/

section Lookups

variable {s : Scheduler} {id : RunId} {run new : TestRun} {p : RunStatus → Prop}

/-- Whether the run of an id is stored, in a status of a kind. -/
def Holds (s : Scheduler) (id : RunId) (p : RunStatus → Prop) : Prop :=
  ∃ run ∈ s.runs, run.id = id ∧ p run.status

theorem lookup_eq_ok (h : s.lookup id = .ok run) : run ∈ s.runs ∧ run.id = id := by
  unfold lookup at h
  split at h
  · next hget =>
    cases h
    exact ⟨List.mem_of_find?_eq_some hget,
      of_decide_eq_true (List.find?_some (p := fun r : TestRun => decide (r.id = id)) hget)⟩
  · cases h

/-- A run in another status, when it may be there. -/
theorem step_eq_ok {status : RunStatus} {now : Instant} (h : step run status now = .ok new) :
    run.status.mayBecome status = true ∧ new = { run with status, updatedAt := now } := by
  unfold step RunStatus.transition at h
  by_cases hmay : run.status.mayBecome status = true
  · rw [if_pos hmay] at h
    cases h
    exact ⟨hmay, rfl⟩
  · rw [if_neg hmay] at h
    cases h

theorem map_id_put (s : Scheduler) (new : TestRun) :
    (s.put new).runs.map (·.id) = s.runs.map (·.id) := by
  simp only [put, List.map_map]
  refine List.map_congr_left fun r _ => ?_
  show (if r.id = new.id then new else r).id = r.id
  split
  · next hr => exact hr.symm
  · rfl

/-- A stored run that gives way to another one of its id. -/
theorem holds_put (hstored : ∃ old ∈ s.runs, old.id = new.id) :
    (s.put new).Holds id p ↔ if id = new.id then p new.status else s.Holds id p := by
  constructor
  · rintro ⟨r, hr, hid, hp⟩
    obtain ⟨old, hold, rfl⟩ := List.mem_map.mp hr
    by_cases hnew : old.id = new.id
    · rw [if_pos hnew] at hid hp
      rw [if_pos hid.symm]
      exact hp
    · rw [if_neg hnew] at hid hp
      rw [if_neg (hid ▸ hnew)]
      exact ⟨old, hold, hid, hp⟩
  · intro h
    split at h
    · next hid =>
      obtain ⟨old, hold, hnew⟩ := hstored
      exact ⟨new, List.mem_map.mpr ⟨old, hold, if_pos hnew⟩, hid.symm, h⟩
    · next hid =>
      obtain ⟨old, hold, rfl, hp⟩ := h
      exact ⟨old, List.mem_map.mpr ⟨old, hold, if_neg hid⟩, rfl, hp⟩

end Lookups

/-! ## Forgetting runs that are over -/

section Forgetting

variable {s : Scheduler} {id : RunId} {run : TestRun}

theorem dropFinished_sublist (excess : Nat) (runs : List TestRun) :
    (dropFinished excess runs).Sublist runs := by
  fun_induction dropFinished excess runs with
  | case1 runs => exact .refl _
  | case2 => exact .refl _
  | case3 excess r rest _ ih => exact ih.cons r
  | case4 excess r rest _ ih => exact ih.cons_cons r

/-- Only runs that are over are dropped. -/
theorem mem_dropFinished {excess : Nat} {runs : List TestRun} (hrun : run ∈ runs)
    (hlive : run.status.isTerminal = false) : run ∈ dropFinished excess runs := by
  fun_induction dropFinished excess runs with
  | case1 runs => exact hrun
  | case2 => exact hrun
  | case3 excess r rest hover ih =>
    rcases List.mem_cons.mp hrun with rfl | hrun
    · rw [hover] at hlive
      cases hlive
    · exact ih hrun
  | case4 excess r rest _ ih =>
    rcases List.mem_cons.mp hrun with rfl | hrun
    · exact List.mem_cons_self
    · exact List.mem_cons_of_mem _ (ih hrun)

/-- As many runs that are over are dropped as are asked for. -/
theorem countP_dropFinished (excess : Nat) (runs : List TestRun) :
    (dropFinished excess runs).countP (fun r => r.status.isTerminal) =
      runs.countP (fun r => r.status.isTerminal) - excess := by
  fun_induction dropFinished excess runs with
  | case1 runs => rfl
  | case2 excess => exact (Nat.zero_sub excess).symm
  | case3 excess r rest hover ih =>
    rw [ih, List.countP_cons_of_pos (p := fun r : TestRun => r.status.isTerminal) hover]
    omega
  | case4 excess r rest hlive ih =>
    rw [List.countP_cons_of_neg (p := fun r : TestRun => r.status.isTerminal) hlive,
      List.countP_cons_of_neg (p := fun r : TestRun => r.status.isTerminal) hlive, ih]

theorem countP_prune_le (s : Scheduler) :
    s.prune.runs.countP (fun r => r.status.isTerminal) ≤ s.historyLimit := by
  rw [prune, countP_dropFinished]
  omega

/-- What is not over is stored before and after. -/
theorem holds_prune {p : RunStatus → Prop} (hp : ∀ status, p status → status.isTerminal = false) :
    s.prune.Holds id p ↔ s.Holds id p := by
  constructor
  · rintro ⟨r, hr, hid, hstatus⟩
    exact ⟨r, (dropFinished_sublist _ _).subset hr, hid, hstatus⟩
  · rintro ⟨r, hr, hid, hstatus⟩
    exact ⟨r, mem_dropFinished hr (hp _ hstatus), hid, hstatus⟩

end Forgetting

/-! ## The agreement -/

/-- The accounts of a scheduler agree. -/
structure Orderly (s : Scheduler) : Prop where
  /-- The stored runs are in order of arrival. -/
  arrival : (s.runs.map (·.id)).Sublist (firstIds s.sequence)
  nodup_queue : s.queue.Nodup
  mem_queue_iff : ∀ id, id ∈ s.queue ↔ s.Holds id (· = .queued)
  active_iff : ∀ id, s.active = some id ↔ s.Holds id (·.isActive = true)
  finished_le : s.runs.countP (fun r => r.status.isTerminal) ≤ s.historyLimit

/-- One stored run is in another status: the queue and the slot say where it is now, and nothing
else changes but for the runs that are forgotten when this one is over. -/
structure Moves (s s' : Scheduler) (new : TestRun) : Prop where
  stored : ∃ old ∈ s.runs, old.id = new.id
  runs : s'.runs = if new.status.isTerminal then (s.put new).prune.runs else (s.put new).runs
  nodup_queue : s'.queue.Nodup
  mem_queue_iff : ∀ id, id ∈ s'.queue ↔ if id = new.id then new.status = .queued else id ∈ s.queue
  active_iff : ∀ id,
    s'.active = some id ↔ if id = new.id then new.status.isActive = true else s.active = some id
  sequence : s'.sequence = s.sequence
  historyLimit : s'.historyLimit = s.historyLimit

section Agreement

variable {s s' : Scheduler} {id : RunId} {run new old : TestRun} {now : Instant} {reason : String}

theorem orderly_empty (historyLimit : Nat) : (empty historyLimit).Orderly where
  arrival := .slnil
  nodup_queue := .nil
  mem_queue_iff := fun id => ⟨fun h => (by cases h), fun ⟨_, h, _⟩ => (by cases h)⟩
  active_iff := fun id => ⟨fun h => (by cases h), fun ⟨_, h, _⟩ => (by cases h)⟩
  finished_le := Nat.zero_le _

theorem Orderly.nodup_ids (h : s.Orderly) : (s.runs.map (·.id)).Nodup :=
  h.arrival.nodup (nodup_firstIds _)

theorem Orderly.eq_of_id_eq (h : s.Orderly) (hrun : run ∈ s.runs) (hold : old ∈ s.runs)
    (hid : run.id = old.id) : run = old :=
  List.inj_on_of_nodup_map h.nodup_ids hrun hold hid

/-- A stored run is the one that its id holds. -/
theorem Orderly.holds_iff (h : s.Orderly) (hrun : run ∈ s.runs) {p : RunStatus → Prop} :
    s.Holds run.id p ↔ p run.status := by
  refine ⟨?_, fun hp => ⟨run, hrun, rfl, hp⟩⟩
  rintro ⟨other, hother, hid, hp⟩
  exact h.eq_of_id_eq hother hrun hid ▸ hp

/-! ## What each operation does -/

/-- Whether a run may have the slot: not while another one holds it. -/
def checkSlot (s : Scheduler) (id : RunId) : Except SchedulerError Unit :=
  match s.active with
  | some active => if active = id then pure () else throw (.slotBusy active)
  | none => pure ()

/-- Whether the delay of a run is over. -/
def checkDelay (id : RunId) (run : TestRun) (now : Instant) : Except SchedulerError Unit :=
  match run.nextDispatchAt with
  | some t => if now < t then throw (.notReady id t) else pure ()
  | none => pure ()

/-- A run is claimed after a check of the slot, a lookup and a check of the delay. -/
theorem markDispatching_eq (s : Scheduler) (id : RunId) (now : Instant) :
    s.markDispatching id now = (do
      s.checkSlot id
      let old ← s.lookup id
      checkDelay id old now
      let run := { (← step old .dispatching now) with nextDispatchAt := none }
      return (run, { (s.put run).dequeue id with active := some id })) := by
  -- whether the slot was free or its own, what is left is to check the delay before the step
  have claimed : (do
      let old ← s.lookup id
      match old.nextDispatchAt with
      | some t => if now < t then throw (.notReady id t) else pure ()
      | none => pure ()
      let run := { (← step old .dispatching now) with nextDispatchAt := none }
      return (run, { (s.put run).dequeue id with active := some id })) = (do
        let old ← s.lookup id
        checkDelay id old now
        let run := { (← step old .dispatching now) with nextDispatchAt := none }
        return (run, { (s.put run).dequeue id with active := some id })) := by
    refine bind_congr fun old => ?_
    unfold checkDelay
    cases old.nextDispatchAt with
    | none => rfl
    | some t =>
      dsimp only
      split <;> rfl
  unfold markDispatching checkSlot
  cases s.active with
  | none => exact claimed
  | some active =>
    dsimp only
    split
    · exact claimed
    · rfl

theorem checkSlot_eq_ok (h : s.checkSlot id = .ok ()) :
    ∀ active, s.active = some active → active = id := by
  intro active hactive
  rw [checkSlot, hactive] at h
  dsimp only at h
  split at h
  · assumption
  · cases h

theorem checkDelay_eq_ok (h : checkDelay id old now = .ok ()) : old.delayIsOver now = true := by
  unfold checkDelay at h
  unfold TimedRun.delayIsOver
  cases hnext : old.nextDispatchAt with
  | none => rfl
  | some t =>
    rw [hnext] at h
    dsimp only at h
    split at h
    · cases h
    · next hlt => exact decide_eq_true (Int.not_lt.mp hlt)

/-- A claimed run was queued, had waited for its delay, and nobody else had the slot. -/
theorem markDispatching_eq_ok (h : s.markDispatching id now = .ok (new, s')) :
    ∃ old, s.lookup id = .ok old ∧ (∀ active, s.active = some active → active = id) ∧
      old.delayIsOver now = true ∧ old.status.mayBecome .dispatching = true ∧
      new = { old with status := .dispatching, updatedAt := now, nextDispatchAt := none } ∧
      s' = { (s.put new).dequeue id with active := some id } := by
  simp only [markDispatching_eq, bind_eq_ok, pure_eq_ok] at h
  obtain ⟨_, hslot, old, hlookup, _, hdelay, stepped, hstep, h⟩ := h
  obtain ⟨hmay, rfl⟩ := step_eq_ok hstep
  cases h
  exact ⟨old, hlookup, checkSlot_eq_ok hslot, checkDelay_eq_ok hdelay, hmay, rfl, rfl⟩

theorem markRunning_eq_ok (h : s.markRunning id now = .ok (new, s')) :
    ∃ old, s.lookup id = .ok old ∧ old.status.mayBecome .running = true ∧
      new = { old with status := .running, updatedAt := now, startedAt := some now } ∧
      s' = s.put new := by
  simp only [markRunning, bind_eq_ok, pure_eq_ok] at h
  obtain ⟨old, hlookup, stepped, hstep, h⟩ := h
  obtain ⟨hmay, rfl⟩ := step_eq_ok hstep
  cases h
  exact ⟨old, hlookup, hmay, rfl, rfl⟩

theorem complete_eq_ok {status : RunStatus} {message : Option String} {result : Option Json}
    (h : s.complete id status message result now = .ok (new, s')) :
    ∃ old, s.lookup id = .ok old ∧ status.isTerminal = true ∧
      old.status.mayBecome status = true ∧
      new = { old with status, updatedAt := now, finishedAt := some now, message, result } ∧
      s' = (((s.put new).dequeue id).clearActive id).prune := by
  unfold complete at h
  split at h
  · cases h
  · next hterminal =>
    simp only [bind_eq_ok, pure_eq_ok] at h
    obtain ⟨old, hlookup, stepped, hstep, h⟩ := h
    obtain ⟨hmay, rfl⟩ := step_eq_ok hstep
    cases h
    rw [Bool.not_eq_true', Bool.not_eq_false] at hterminal
    exact ⟨old, hlookup, hterminal, hmay, rfl, rfl⟩

theorem queueRetry_eq_ok (h : s.queueRetry id reason now = .ok (new, s')) :
    ∃ old, s.lookup id = .ok old ∧ old.attempt < old.safety.maxRetries ∧
      old.status.mayBecome .queued = true ∧
      new = { old with
        status := .queued
        updatedAt := now
        nextDispatchAt := some (now + old.safety.durationAfter old.attempt)
        attempt := old.attempt + 1
        finishedAt := none
        message := some reason } ∧
      s' = { s.put new with queue := s.queue ++ [id] }.clearActive id := by
  unfold queueRetry at h
  obtain ⟨old, hlookup, h⟩ := bind_eq_ok.mp h
  split at h
  · cases h
  · next hretry =>
    obtain ⟨stepped, hstep, h⟩ := bind_eq_ok.mp h
    obtain ⟨hmay, rfl⟩ := step_eq_ok hstep
    cases h
    rw [Bool.not_eq_true', Bool.not_eq_false] at hretry
    exact ⟨old, hlookup, of_decide_eq_true hretry, hmay, rfl, rfl⟩

theorem abortQueued_eq_ok (h : s.abortQueued id reason now = .ok (new, s')) :
    ∃ old, s.lookup id = .ok old ∧ old.status = .queued ∧
      new = { old with
        status := .aborted
        updatedAt := now
        nextDispatchAt := none
        finishedAt := some now
        message := some reason } ∧
      s' = ((s.put new).dequeue id).prune := by
  unfold abortQueued at h
  obtain ⟨old, hlookup, h⟩ := bind_eq_ok.mp h
  split at h
  · cases h
  · next hqueued =>
    obtain ⟨stepped, hstep, h⟩ := bind_eq_ok.mp h
    obtain ⟨_, rfl⟩ := step_eq_ok hstep
    cases h
    exact ⟨old, hlookup, not_not.mp hqueued, rfl, rfl⟩

/-! ## What each operation moves -/

/-- The queue that a run leaves. -/
theorem mem_filter_queue_iff (hnew : new.status ≠ .queued) (id : RunId) :
    id ∈ s.queue.filter (fun q => decide (q ≠ new.id)) ↔
      if id = new.id then new.status = .queued else id ∈ s.queue := by
  rw [List.mem_filter, decide_eq_true_iff]
  by_cases hid : id = new.id
  · rw [if_pos hid]
    exact ⟨fun hmem => absurd hid hmem.2, fun hqueued => absurd hqueued hnew⟩
  · rw [if_neg hid]
    exact and_iff_left hid

/-- The slot that a run gives up. -/
theorem clearActive_active_iff (hnew : new.status.isActive = false) (id : RunId) :
    (s.clearActive new.id).active = some id ↔
      if id = new.id then new.status.isActive = true else s.active = some id := by
  rw [hnew]
  unfold clearActive
  by_cases hid : id = new.id
  · rw [if_pos hid, hid]
    split
    · exact ⟨fun h => (by cases h), fun h => (by cases h)⟩
    · next hactive => exact ⟨fun h => absurd h hactive, fun h => (by cases h)⟩
  · rw [if_neg hid]
    split
    · next hactive =>
      rw [hactive]
      exact ⟨fun h => (by cases h), fun h => absurd (Option.some.inj h).symm hid⟩
    · exact Iff.rfl

/-- Freeing the slot changes nothing else. -/
theorem clearActive_eq (s : Scheduler) (id : RunId) :
    s.clearActive id = { s with active := (s.clearActive id).active } := by
  unfold clearActive
  split <;> rfl

/-- A run that is claimed leaves the queue for the slot, when nobody else has it. -/
theorem Orderly.moves_claimed (h : s.Orderly) (hold : old ∈ s.runs) (hid : old.id = new.id)
    (hnew : new.status = .dispatching)
    (hfree : ∀ active, s.active = some active → active = new.id) :
    s.Moves { (s.put new).dequeue new.id with active := some new.id } new where
  stored := ⟨old, hold, hid⟩
  runs := by rw [hnew]; rfl
  nodup_queue := h.nodup_queue.filter _
  mem_queue_iff := mem_filter_queue_iff (by rw [hnew]; exact fun heq => by cases heq)
  active_iff := fun id => by
    rw [hnew]
    by_cases hx : id = new.id
    · rw [if_pos hx, hx]
      exact ⟨fun _ => rfl, fun _ => rfl⟩
    · rw [if_neg hx]
      exact ⟨fun heq => absurd (Option.some.inj heq).symm hx, fun heq => absurd (hfree id heq) hx⟩
  sequence := rfl
  historyLimit := rfl

/-- A run that begins keeps the slot. -/
theorem Orderly.moves_begun (h : s.Orderly) (hold : old ∈ s.runs) (hid : old.id = new.id)
    (hclaimed : old.status = .dispatching) (hnew : new.status = .running) :
    s.Moves (s.put new) new where
  stored := ⟨old, hold, hid⟩
  runs := by rw [hnew]; rfl
  nodup_queue := h.nodup_queue
  mem_queue_iff := fun id => by
    by_cases hx : id = new.id
    · rw [if_pos hx, hx, hnew, ← hid]
      refine ⟨fun hmem => ?_, fun heq => by cases heq⟩
      have hqueued := (h.holds_iff hold).mp ((h.mem_queue_iff old.id).mp hmem)
      rw [hclaimed] at hqueued
      cases hqueued
    · rw [if_neg hx]
      exact Iff.rfl
  active_iff := fun id => by
    by_cases hx : id = new.id
    · rw [if_pos hx, hx, hnew, ← hid]
      exact ⟨fun _ => rfl, fun _ => (h.active_iff old.id).mpr
        ((h.holds_iff hold).mpr (by rw [hclaimed]; rfl))⟩
    · rw [if_neg hx]
      exact Iff.rfl
  sequence := rfl
  historyLimit := rfl

/-- A run that is over leaves the queue and the slot. -/
theorem Orderly.moves_over (h : s.Orderly) (hold : old ∈ s.runs) (hid : old.id = new.id)
    (hnew : new.status.isTerminal = true) :
    s.Moves (((s.put new).dequeue new.id).clearActive new.id).prune new := by
  have hqueued : new.status ≠ .queued := fun heq => by rw [heq] at hnew; cases hnew
  have hinactive : new.status.isActive = false := by
    cases hactive : new.status.isActive with
    | false => rfl
    | true => rw [RunStatus.isTerminal_eq_false_of_isActive hactive] at hnew; cases hnew
  have hslot := clearActive_active_iff (s := (s.put new).dequeue new.id) hinactive
  rw [clearActive_eq]
  exact ⟨⟨old, hold, hid⟩, (if_pos hnew).symm, h.nodup_queue.filter _,
    mem_filter_queue_iff hqueued, hslot, rfl, rfl⟩

/-- A run that is over before it was claimed never had the slot. -/
theorem Orderly.moves_aborted (h : s.Orderly) (hold : old ∈ s.runs) (hid : old.id = new.id)
    (hqueued : old.status = .queued) (hnew : new.status.isTerminal = true) :
    s.Moves ((s.put new).dequeue new.id).prune new := by
  have hslot : ((s.put new).dequeue new.id).active ≠ some new.id := fun hactive => by
    have hstatus := (h.holds_iff hold).mp (hid ▸ (h.active_iff new.id).mp hactive)
    rw [hqueued] at hstatus
    cases hstatus
  have hmoves := h.moves_over hold hid hnew
  rwa [clearActive, if_neg hslot] at hmoves

/-- A run that is tried again gives up the slot and goes to the end of the queue. -/
theorem Orderly.moves_back (h : s.Orderly) (hold : old ∈ s.runs) (hid : old.id = new.id)
    (hout : old.status ≠ .queued) (hnew : new.status = .queued) :
    s.Moves ({ s.put new with queue := s.queue ++ [new.id] }.clearActive new.id) new := by
  have hinactive : new.status.isActive = false := by
    rw [hnew]
    rfl
  have hslot := clearActive_active_iff (s := { s.put new with queue := s.queue ++ [new.id] })
    hinactive
  have hfresh : new.id ∉ s.queue := fun hmem =>
    hout ((h.holds_iff hold).mp ((h.mem_queue_iff old.id).mp (hid ▸ hmem)))
  rw [clearActive_eq]
  refine ⟨⟨old, hold, hid⟩, by rw [hnew]; rfl, ?_, fun id => ?_, hslot, rfl, rfl⟩
  · show (s.queue ++ [new.id]).Nodup
    rw [← List.concat_eq_append]
    exact h.nodup_queue.concat hfresh
  · rw [List.mem_append, List.mem_singleton]
    by_cases hx : id = new.id
    · rw [if_pos hx]
      exact ⟨fun _ => hnew, fun _ => .inr hx⟩
    · rw [if_neg hx]
      exact or_iff_left hx

theorem markDispatching_moves (h : s.Orderly) (ha : s.markDispatching id now = .ok (new, s')) :
    s.Moves s' new := by
  obtain ⟨old, hlookup, hfree, _, _, rfl, rfl⟩ := markDispatching_eq_ok ha
  obtain ⟨hold, rfl⟩ := lookup_eq_ok hlookup
  exact h.moves_claimed hold rfl rfl hfree

theorem markRunning_moves (h : s.Orderly) (ha : s.markRunning id now = .ok (new, s')) :
    s.Moves s' new := by
  obtain ⟨old, hlookup, hmay, rfl, rfl⟩ := markRunning_eq_ok ha
  obtain ⟨hold, rfl⟩ := lookup_eq_ok hlookup
  have hclaimed : old.status = .dispatching := by
    generalize old.status = status at hmay
    cases status <;> first | rfl | cases hmay
  exact h.moves_begun hold rfl hclaimed rfl

theorem complete_moves (h : s.Orderly) {status : RunStatus} {message : Option String}
    {result : Option Json} (ha : s.complete id status message result now = .ok (new, s')) :
    s.Moves s' new := by
  obtain ⟨old, hlookup, hterminal, _, rfl, rfl⟩ := complete_eq_ok ha
  obtain ⟨hold, rfl⟩ := lookup_eq_ok hlookup
  exact h.moves_over hold rfl hterminal

theorem queueRetry_moves (h : s.Orderly) (ha : s.queueRetry id reason now = .ok (new, s')) :
    s.Moves s' new := by
  obtain ⟨old, hlookup, _, hmay, rfl, rfl⟩ := queueRetry_eq_ok ha
  obtain ⟨hold, rfl⟩ := lookup_eq_ok hlookup
  have hout : old.status ≠ .queued := fun heq => by
    rw [heq] at hmay
    cases hmay
  exact h.moves_back hold rfl hout rfl

theorem abortQueued_moves (h : s.Orderly) (ha : s.abortQueued id reason now = .ok (new, s')) :
    s.Moves s' new := by
  obtain ⟨old, hlookup, hqueued, rfl, rfl⟩ := abortQueued_eq_ok ha
  obtain ⟨hold, rfl⟩ := lookup_eq_ok hlookup
  exact h.moves_aborted hold rfl hqueued rfl

/-! ## The accounts after each operation -/

/-- A new run is the last one to have arrived, and the last one in the queue. -/
theorem Orderly.enqueue (h : s.Orderly) (scenario : Json) (safety : SafetyPolicy) (now : Instant) :
    (s.enqueue scenario safety now).2.Orderly := by
  let entering : TestRun :=
    TimedRun.new (Identifier.ofSequence (s.sequence + 1)) scenario safety now
  have hids : ∀ run ∈ s.runs, run.id ≠ Identifier.ofSequence (s.sequence + 1) := by
    intro run hrun heq
    have hmem : run.id ∈ firstIds s.sequence := h.arrival.subset (List.mem_map_of_mem hrun)
    exact ofSequence_not_mem_firstIds _ (heq ▸ hmem)
  have hfresh : Identifier.ofSequence (s.sequence + 1) ∉ s.queue := fun hmem => by
    obtain ⟨run, hrun, hid, _⟩ := (h.mem_queue_iff _).mp hmem
    exact hids run hrun hid
  -- a new run is queued, and holds nothing else
  have hholds {p : RunStatus → Prop} (id : RunId) :
      (s.enqueue scenario safety now).2.Holds id p ↔
        s.Holds id p ∨ (id = Identifier.ofSequence (s.sequence + 1) ∧ p .queued) := by
    constructor
    · rintro ⟨run, hrun, rfl, hp⟩
      rcases List.mem_append.mp hrun with hrun | hrun
      · exact .inl ⟨run, hrun, rfl, hp⟩
      · obtain rfl := List.mem_singleton.mp hrun
        exact .inr ⟨rfl, hp⟩
    · rintro (⟨run, hrun, rfl, hp⟩ | ⟨rfl, hp⟩)
      · exact ⟨run, List.mem_append_left _ hrun, rfl, hp⟩
      · exact ⟨_, List.mem_append_right _ List.mem_cons_self, rfl, hp⟩
  refine ⟨?_, ?_, fun id => ?_, fun id => ?_, ?_⟩
  · show ((s.runs ++ [entering]).map (·.id)).Sublist (firstIds (s.sequence + 1))
    rw [firstIds_succ, List.map_append]
    exact h.arrival.append (.refl _)
  · show (s.queue ++ [entering.id]).Nodup
    rw [← List.concat_eq_append]
    exact h.nodup_queue.concat hfresh
  · rw [hholds, ← h.mem_queue_iff, and_iff_left rfl, ← List.mem_singleton, ← List.mem_append]
    rfl
  · rw [hholds, ← h.active_iff]
    exact ⟨.inl, fun hactive => hactive.resolve_right fun hqueued => by cases hqueued.2⟩
  · show (s.runs ++ [entering]).countP _ ≤ s.historyLimit
    rw [List.countP_append]
    exact h.finished_le

/-- Whoever is not over is stored under the move of another run, and the moved run is where its
status says. -/
theorem Moves.holds_iff (hm : s.Moves s' new) {p : RunStatus → Prop}
    (hp : ∀ status, p status → status.isTerminal = false) (id : RunId) :
    s'.Holds id p ↔ if id = new.id then p new.status else s.Holds id p := by
  rw [← holds_put hm.stored]
  have hruns := hm.runs
  split at hruns
  · rw [← holds_prune (s := s.put new) hp, Holds, hruns]
    rfl
  · rw [Holds, hruns]
    rfl

theorem Moves.orderly (hm : s.Moves s' new) (h : s.Orderly) : s'.Orderly where
  arrival := by
    have hput : ((s.put new).runs.map (·.id)).Sublist (firstIds s'.sequence) := by
      rw [map_id_put, hm.sequence]
      exact h.arrival
    rw [hm.runs]
    split
    · exact ((dropFinished_sublist _ _).map _).trans hput
    · exact hput
  nodup_queue := hm.nodup_queue
  mem_queue_iff := fun id => by
    rw [hm.holds_iff (fun status heq => by rw [heq]; rfl), hm.mem_queue_iff, h.mem_queue_iff]
  active_iff := fun id => by
    rw [hm.holds_iff (fun _ => RunStatus.isTerminal_eq_false_of_isActive), hm.active_iff,
      h.active_iff]
  finished_le := by
    rw [hm.runs, hm.historyLimit]
    split
    · exact countP_prune_le (s.put new)
    · next hlive =>
      -- the moved run is not over, so no more runs are than before
      show (s.runs.map _).countP _ ≤ s.historyLimit
      rw [List.countP_map]
      refine (List.countP_mono_left fun run _ hover => ?_).trans h.finished_le
      simp only [Function.comp_apply] at hover
      split at hover
      · exact absurd hover hlive
      · exact hover

/-- What is asked of a scheduler brings a new run, or moves a stored one. -/
theorem ask_cases (h : s.Orderly) {act : Act} (ha : s.ask act = .ok (new, s')) :
    (∃ scenario safety now, act = .enqueue scenario safety now ∧
      (new, s') = s.enqueue scenario safety now) ∨ s.Moves s' new := by
  cases act with
  | enqueue scenario safety now => exact .inl ⟨scenario, safety, now, rfl, (Except.ok.inj ha).symm⟩
  | markDispatching id now => exact .inr (markDispatching_moves h ha)
  | markRunning id now => exact .inr (markRunning_moves h ha)
  | complete id status message result now => exact .inr (complete_moves h ha)
  | queueRetry id reason now => exact .inr (queueRetry_moves h ha)
  | abortQueued id reason now => exact .inr (abortQueued_moves h ha)

theorem Orderly.ask (h : s.Orderly) {act : Act} (ha : s.ask act = .ok (new, s')) : s'.Orderly := by
  rcases ask_cases h ha with ⟨scenario, safety, now, _, heq⟩ | hm
  · obtain ⟨_, rfl⟩ := Prod.ext_iff.mp heq
    exact h.enqueue scenario safety now
  · exact hm.orderly h

theorem Orderly.perform (h : s.Orderly) (act : Act) : (s.perform act).Orderly := by
  unfold Scheduler.perform
  split
  · next ha => exact h.ask ha
  · exact h

/-- A run that is not over stays stored, but for one that the act itself ends. -/
theorem Orderly.keeps (h : s.Orderly) (act : Act) (hrun : run ∈ s.runs)
    (hlive : run.status.isTerminal = false) :
    ∃ after, after.id = run.id ∧ (after ∈ (s.perform act).runs ∨
      after.status.isTerminal = true ∧ ∃ s', s.ask act = .ok (after, s')) := by
  unfold Scheduler.perform
  split
  · next new s' ha =>
    rcases ask_cases h ha with ⟨scenario, safety, now, _, heq⟩ | hm
    · obtain ⟨_, rfl⟩ := Prod.ext_iff.mp heq
      exact ⟨run, rfl, .inl (List.mem_append_left _ hrun)⟩
    · by_cases hover : new.status.isTerminal = true ∧ run.id = new.id
      · exact ⟨new, hover.2.symm, .inr ⟨hover.1, s', ha⟩⟩
      · have hholds := (hm.holds_iff (p := (·.isTerminal = false)) (fun _ h => h) run.id).mpr (by
          split
          · next hid => exact Bool.not_eq_true _ ▸ fun hterminal => hover ⟨hterminal, hid⟩
          · exact ⟨run, hrun, rfl, hlive⟩)
        obtain ⟨after, hafter, hid, _⟩ := hholds
        exact ⟨after, hid, .inl hafter⟩
  · exact ⟨run, rfl, .inl hrun⟩

end Agreement

/-! ## Histories of any length -/

section Histories

variable {s : Scheduler}

theorem Orderly.run (h : s.Orderly) (acts : List Act) : (s.run acts).Orderly := by
  induction acts generalizing s with
  | nil => exact h
  | cons act acts ih => exact ih (h.perform act)

/-- What moves a stored run brings no new one, and nothing changes the limit. -/
theorem Orderly.sequence_perform (h : s.Orderly) (act : Act) :
    (s.perform act).historyLimit = s.historyLimit ∧
      ((∃ scenario safety now, act = .enqueue scenario safety now) ∨
        (s.perform act).sequence = s.sequence) := by
  unfold Scheduler.perform
  split
  · next new s' ha =>
    rcases ask_cases h ha with ⟨scenario, safety, now, hact, heq⟩ | hm
    · obtain ⟨_, rfl⟩ := Prod.ext_iff.mp heq
      exact ⟨rfl, .inl ⟨scenario, safety, now, hact⟩⟩
    · exact ⟨hm.historyLimit, .inr hm.sequence⟩
  · exact ⟨rfl, .inr rfl⟩

theorem Orderly.historyLimit_run (h : s.Orderly) (acts : List Act) :
    (s.run acts).historyLimit = s.historyLimit := by
  induction acts generalizing s with
  | nil => rfl
  | cons act acts ih => exact (ih (h.perform act)).trans (h.sequence_perform act).1

/-- The ids of all runs that ever entered: those before, then those that arrive. -/
theorem Orderly.firstIds_run (h : s.Orderly) (acts : List Act) :
    firstIds (s.run acts).sequence = firstIds s.sequence ++ s.arrivals acts := by
  induction acts generalizing s with
  | nil => exact (List.append_nil _).symm
  | cons act acts ih =>
    have hrest := ih (h.perform act)
    rw [show s.run (act :: acts) = (s.perform act).run acts from rfl, hrest]
    rcases (h.sequence_perform act).2 with ⟨scenario, safety, now, rfl⟩ | hsequence
    · show firstIds (s.sequence + 1) ++ _ = _
      rw [firstIds_succ, List.append_assoc]
      rfl
    · rw [hsequence]
      cases act with
      | enqueue scenario safety now => exact absurd hsequence (Nat.succ_ne_self _)
      | _ => rfl

end Histories

/-- Whatever is asked of a scheduler, refused or not: the queue has the ids of the stored runs that
are queued, each once; the active slot has the id of the run that is dispatching or running, and
there is at most one; the stored runs are in order of arrival, each under an id of its own; at most
`historyLimit` of them are over. A run that is not over stays stored under its id whatever is asked
next, unless that very act ends it. -/
theorem accounts_agree (historyLimit : Nat) (acts : List Act) :
    let s := (empty historyLimit).run acts
    (s.queue.Nodup ∧ ∀ id, id ∈ s.queue ↔ ∃ run ∈ s.runs, run.id = id ∧ run.status = .queued) ∧
    (∀ id, s.active = some id ↔ ∃ run ∈ s.runs, run.id = id ∧ run.status.isActive = true) ∧
    (∀ run ∈ s.runs, ∀ other ∈ s.runs,
      run.status.isActive = true → other.status.isActive = true → run = other) ∧
    (s.runs.map (·.id)).Nodup ∧
    (s.runs.map (·.id)).Sublist ((empty historyLimit).arrivals acts) ∧
    s.runs.countP (fun run => run.status.isTerminal) ≤ historyLimit ∧
    ∀ act, ∀ run ∈ s.runs, run.status.isTerminal = false →
      ∃ after, after.id = run.id ∧ (after ∈ (s.perform act).runs ∨
        after.status.isTerminal = true ∧ ∃ s', s.ask act = .ok (after, s')) := by
  intro s
  have hempty := orderly_empty historyLimit
  have h : s.Orderly := hempty.run acts
  refine ⟨⟨h.nodup_queue, h.mem_queue_iff⟩, h.active_iff, ?_, h.nodup_ids, ?_, ?_,
    fun act run hrun hlive => h.keeps act hrun hlive⟩
  · intro run hrun other hother hactive hactive'
    have hslot := (h.active_iff run.id).mpr ⟨run, hrun, rfl, hactive⟩
    have hslot' := (h.active_iff other.id).mpr ⟨other, hother, rfl, hactive'⟩
    exact h.eq_of_id_eq hrun hother (Option.some.inj (hslot.symm.trans hslot'))
  · have harrival := h.arrival
    rwa [hempty.firstIds_run acts] at harrival
  · have hle := h.finished_le
    rwa [hempty.historyLimit_run acts] at hle

/-- Three runs enter: the first fails and is queued again, the second is aborted, and the third
passes while only one run that is over is kept. -/
def retriedHistory : List Act :=
  [.enqueue .null {} 0, .enqueue .null {} 0, .enqueue .null {} 0,
    .markDispatching ⟨"run-1"⟩ 1, .markRunning ⟨"run-1"⟩ 2,
    .complete ⟨"run-1"⟩ .failed none none 3, .queueRetry ⟨"run-1"⟩ "again" 4,
    .abortQueued ⟨"run-2"⟩ "stop" 5, .markDispatching ⟨"run-3"⟩ 6,
    .complete ⟨"run-3"⟩ .passed none none 7]

theorem accounts_agree_retried :
    let s := (empty 1).run retriedHistory
    s.runs.map (fun run => (run.id.text, run.status)) =
        [("run-1", .queued), ("run-3", .passed)] ∧
      s.queue = [⟨"run-1"⟩] ∧ s.active = none ∧
      ∃ run ∈ s.runs, run.id = ⟨"run-1"⟩ ∧ ∃ after, after.id = run.id ∧
        (after ∈ (s.perform (.markDispatching ⟨"run-1"⟩ 8)).runs ∨
          after.status.isTerminal = true ∧
            ∃ s', s.ask (.markDispatching ⟨"run-1"⟩ 8) = .ok (after, s')) := by
  intro s
  obtain ⟨⟨_, hqueue⟩, _, _, _, _, _, hkeeps⟩ := accounts_agree 1 retriedHistory
  have hmem : (⟨"run-1"⟩ : RunId) ∈ s.queue := by decide +kernel
  obtain ⟨run, hrun, hid, hqueued⟩ := (hqueue _).mp hmem
  refine ⟨by decide +kernel, by decide +kernel, by decide +kernel, run, hrun, hid, ?_⟩
  exact hkeeps _ run hrun (by rw [hqueued]; rfl)

end Scheduler

end SharedScene
