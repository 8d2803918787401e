import SharedScene.Proofs.Run.InPlace

/-!
# The life of a run

Every act that a scheduler grants gives back a run as it is from then on (`granted`). Those that
come back under one id are the **life** of a run (`life`): it begins when the run enters, queued and
at its first attempt, and every later record follows from the one before (`Follows`). The last one
is what the scheduler has stored, until it forgets a run that is over.

A retry adds an attempt, and only while attempts are left; nothing else touches the attempt. Before
it is claimed a run waits in the queue, and it gets back there by a retry alone, so it is claimed
once for each attempt at most (`Life.dispatches_le`). This is what bounds how often a run is
dispatched, however long the history is (`lives_are_walks`).
-/

namespace SharedScene

/-- The statuses to which a status may lead. -/
def RunStatus.next : RunStatus → List RunStatus
  | .queued => [.dispatching, .aborted]
  | .dispatching => [.running, .queued, .passed, .failed, .aborted]
  | .running => [.queued, .passed, .failed, .aborted]
  | .failed => [.queued]
  | .passed => []
  | .aborted => []

theorem RunStatus.mayBecome_iff {source target : RunStatus} :
    source.mayBecome target = true ↔ target ∈ source.next := by
  cases source <;> cases target <;> decide

namespace Scheduler

variable {s s' : Scheduler} {act : Act} {acts : List Act} {id : RunId} {old new run : TestRun}
  {past lived : List TestRun} {log : List (Act × TestRun)}

/-! ## Lives -/

/-- What is granted of what is asked, in its order: each act with the run that it gives back. -/
def granted (s : Scheduler) : List Act → List (Act × TestRun)
  | [] => []
  | act :: acts =>
    match s.ask act with
    | .ok (run, s') => (act, run) :: granted s' acts
    | .error _ => granted s acts

/-- The records of one run, in the order of the log. -/
def life (id : RunId) (log : List (Act × TestRun)) : List TestRun :=
  (log.map Prod.snd).filter fun run => decide (run.id = id)

/-- Whether an act marks a run as dispatching. -/
def Act.dispatches (id : RunId) : Act → Bool
  | .markDispatching other _ => decide (other = id)
  | _ => false

/-- What one record of a run says of the next one. -/
structure Follows (old new : TestRun) : Prop where
  id : new.id = old.id
  scenario : new.scenario = old.scenario
  safety : new.safety = old.safety
  createdAt : new.createdAt = old.createdAt
  status : new.status ∈ old.status.next
  /-- A run that is queued again had attempts left, and is at the next one. -/
  retried : new.status = .queued →
    old.attempt < old.safety.maxRetries ∧ new.attempt = old.attempt + 1
  /-- In any other status it is at the same attempt. -/
  kept : new.status ≠ .queued → new.attempt = old.attempt

/-- The records of a run from its entry on, the latest one first. -/
inductive Life : List TestRun → Prop where
  | entered {run : TestRun} (status : run.status = .queued) (attempt : run.attempt = 1) : Life [run]
  | followed {new old : TestRun} {past : List TestRun} :
    Life (old :: past) → Follows old new → Life (new :: old :: past)

namespace Life

/-- Up to each of its records a life is one. -/
theorem of_mem (h : Life lived) (hrun : run ∈ lived) : ∃ past, Life (run :: past) := by
  induction h with
  | entered status attempt =>
    obtain rfl := List.mem_singleton.mp hrun
    exact ⟨[], .entered status attempt⟩
  | followed hpast hfollows ih =>
    rcases List.mem_cons.mp hrun with rfl | hrun
    · exact ⟨_, .followed hpast hfollows⟩
    · exact ih hrun

/-- A run keeps its limits. -/
theorem safety_eq (h : Life (new :: past)) (hrun : run ∈ new :: past) :
    run.safety = new.safety := by
  generalize hlived : new :: past = lived at h hrun
  induction h generalizing new past with
  | entered status attempt =>
    cases hlived
    rw [List.mem_singleton.mp hrun]
  | followed hpast hfollows ih =>
    cases hlived
    rcases List.mem_cons.mp hrun with rfl | hrun
    · rfl
    · exact (ih rfl hrun).trans hfollows.safety.symm

theorem isChain (h : Life lived) : lived.IsChain fun new old => new.status ∈ old.status.next := by
  induction h with
  | entered => exact .singleton _
  | followed hpast hfollows ih => exact .cons_cons hfollows.status ih

theorem getLast?_eq (h : Life lived) :
    ∃ first, lived.getLast? = some first ∧ first.status = .queued ∧ first.attempt = 1 := by
  induction h with
  | @entered run status attempt => exact ⟨run, rfl, status, attempt⟩
  | followed hpast hfollows ih => rwa [List.getLast?_cons_cons]

/-- A run is dispatched once for each of its attempts at most, and not yet for the one for which it
waits. -/
theorem dispatches_le (h : Life (run :: past)) :
    (run :: past).countP (fun r => decide (r.status = .dispatching)) +
      (if run.status = .queued then 1 else 0) ≤ run.attempt ∧
    1 ≤ run.attempt ∧ run.attempt ≤ max 1 run.safety.maxRetries := by
  generalize hlived : run :: past = lived at h
  induction h generalizing run past with
  | entered status attempt =>
    cases hlived
    simp [status, attempt]
  | @followed _ old before hpast hfollows ih =>
    obtain ⟨rfl, rfl⟩ := List.cons.inj hlived
    obtain ⟨hcount, hone, hmax⟩ := ih rfl
    rw [List.countP_cons, hfollows.safety]
    by_cases hqueued : run.status = .queued
    · -- queued again: one more attempt, and no more dispatches than before
      obtain ⟨hleft, hattempt⟩ := hfollows.retried hqueued
      rw [if_pos hqueued, hqueued, hattempt]
      simp only [reduceCtorEq, decide_false, Bool.false_eq_true, if_false]
      omega
    · rw [if_neg hqueued, hfollows.kept hqueued]
      by_cases hclaimed : run.status = .dispatching
      · -- claimed: it waited for this dispatch, which was not counted yet
        have hwaited : old.status = .queued := by
          have hedge := hfollows.status
          rw [hclaimed] at hedge
          cases hstatus : old.status <;> simp [hstatus, RunStatus.next] at hedge ⊢
        rw [if_pos hwaited] at hcount
        simp only [hclaimed, decide_true, if_true]
        omega
      · simp only [hclaimed, decide_false, Bool.false_eq_true, if_false]
        omega

/-- The attempts and the dispatches of a life stay within the limits of its run. -/
theorem bounds (h : Life lived) (hrun : run ∈ lived) :
    1 ≤ run.attempt ∧ run.attempt ≤ max 1 run.safety.maxRetries ∧
      lived.countP (fun r => decide (r.status = .dispatching)) ≤ max 1 run.safety.maxRetries := by
  obtain ⟨_, hupto⟩ := h.of_mem hrun
  obtain ⟨_, hone, hmax⟩ := hupto.dispatches_le
  refine ⟨hone, hmax, ?_⟩
  cases lived with
  | nil => cases hrun
  | cons last past =>
    obtain ⟨hcount, _, hlast⟩ := h.dispatches_le
    rw [h.safety_eq hrun]
    omega

end Life

/-! ## What an act adds to a life -/

/-- What is granted brings a new run, or moves a stored one to the next record of its life. -/
theorem follows_of_ask (hs : s.Orderly) (h : s.ask act = .ok (new, s')) :
    (∃ scenario safety now, act = .enqueue scenario safety now) ∨
      s.Moves s' new ∧ ∃ old ∈ s.runs, Follows old new := by
  cases act with
  | enqueue scenario safety now => exact .inl ⟨scenario, safety, now, rfl⟩
  | markDispatching id now =>
    refine .inr ⟨markDispatching_moves hs h, ?_⟩
    obtain ⟨old, hlookup, _, _, hmay, rfl, _⟩ := markDispatching_eq_ok h
    refine ⟨old, (lookup_eq_ok hlookup).1, rfl, rfl, rfl, rfl, ?_, nofun, fun _ => rfl⟩
    exact RunStatus.mayBecome_iff.mp hmay
  | markRunning id now =>
    refine .inr ⟨markRunning_moves hs h, ?_⟩
    obtain ⟨old, hlookup, hmay, rfl, _⟩ := markRunning_eq_ok h
    refine ⟨old, (lookup_eq_ok hlookup).1, rfl, rfl, rfl, rfl, ?_, nofun, fun _ => rfl⟩
    exact RunStatus.mayBecome_iff.mp hmay
  | complete id status message result now =>
    refine .inr ⟨complete_moves hs h, ?_⟩
    obtain ⟨old, hlookup, hterminal, hmay, rfl, _⟩ := complete_eq_ok h
    refine ⟨old, (lookup_eq_ok hlookup).1, rfl, rfl, rfl, rfl, ?_, ?_, fun _ => rfl⟩
    · exact RunStatus.mayBecome_iff.mp hmay
    · rintro rfl
      cases hterminal
  | queueRetry id reason now =>
    refine .inr ⟨queueRetry_moves hs h, ?_⟩
    obtain ⟨old, hlookup, hleft, hmay, rfl, _⟩ := queueRetry_eq_ok h
    refine ⟨old, (lookup_eq_ok hlookup).1, rfl, rfl, rfl, rfl, ?_, fun _ => ⟨hleft, rfl⟩, ?_⟩
    · exact RunStatus.mayBecome_iff.mp hmay
    · exact fun hout => absurd rfl hout
  | abortQueued id reason now =>
    refine .inr ⟨abortQueued_moves hs h, ?_⟩
    obtain ⟨old, hlookup, hqueued, rfl, _⟩ := abortQueued_eq_ok h
    refine ⟨old, (lookup_eq_ok hlookup).1, rfl, rfl, rfl, rfl, ?_, nofun, fun _ => rfl⟩
    rw [hqueued]
    exact List.mem_cons_of_mem _ List.mem_cons_self

/-- A run comes back as dispatching from the acts that mark it so, and from no other. -/
theorem dispatches_iff_of_ask (h : s.ask act = .ok (new, s')) :
    act.dispatches id = true ↔ new.id = id ∧ new.status = .dispatching := by
  cases act with
  | enqueue scenario safety now =>
    cases h
    exact iff_of_false nofun nofun
  | markDispatching other now =>
    obtain ⟨old, hlookup, _, _, _, rfl, _⟩ := markDispatching_eq_ok h
    obtain ⟨_, rfl⟩ := lookup_eq_ok hlookup
    simp [Act.dispatches]
  | markRunning other now =>
    obtain ⟨old, _, _, rfl, _⟩ := markRunning_eq_ok h
    exact iff_of_false nofun nofun
  | complete other status message result now =>
    obtain ⟨old, _, hterminal, _, rfl, _⟩ := complete_eq_ok h
    refine iff_of_false nofun ?_
    rintro ⟨_, rfl⟩
    cases hterminal
  | queueRetry other reason now =>
    obtain ⟨old, _, _, _, rfl, _⟩ := queueRetry_eq_ok h
    exact iff_of_false nofun nofun
  | abortQueued other reason now =>
    obtain ⟨old, _, _, rfl, _⟩ := abortQueued_eq_ok h
    exact iff_of_false nofun nofun

theorem life_cons (id : RunId) (act : Act) (run : TestRun) (log : List (Act × TestRun)) :
    life id ((act, run) :: log) = if run.id = id then run :: life id log else life id log := by
  simp [life, List.filter_cons]

/-- What is stored after a move: the moved run, or what was stored under another id. -/
theorem Moves.eq_or_mem (hm : s.Moves s' new) (hrun : run ∈ s'.runs) :
    run = new ∨ run ∈ s.runs ∧ run.id ≠ new.id := by
  have hput : run ∈ (s.put new).runs := by
    have hruns := hm.runs
    split at hruns
    · exact (dropFinished_sublist _ _).subset (hruns ▸ hrun)
    · exact hruns ▸ hrun
  obtain ⟨old, hold, heq⟩ := List.mem_map.mp hput
  split at heq
  · exact .inl heq.symm
  · next hid => exact .inr ⟨heq ▸ hold, heq ▸ hid⟩

/-- What a log says of the runs of a scheduler: every run that entered has a life, which ends with
the record that is stored, while the run is stored. The latest record comes first. -/
structure Recorded (s : Scheduler) (log : List (Act × TestRun)) : Prop where
  orderly : s.Orderly
  lives : ∀ id ∈ firstIds s.sequence, Life (life id log)
  nobody : ∀ id ∉ firstIds s.sequence, life id log = []
  stored : ∀ run ∈ s.runs, (life run.id log).head? = some run

namespace Recorded

theorem empty (historyLimit : Nat) : Recorded (empty historyLimit) [] where
  orderly := orderly_empty historyLimit
  lives _ hid := absurd hid List.not_mem_nil
  nobody _ _ := rfl
  stored _ hrun := absurd hrun List.not_mem_nil

/-- A run that enters begins a life. -/
theorem enqueue (h : Recorded s log) (scenario : Json) (safety : SafetyPolicy) (now : Instant) :
    Recorded (s.enqueue scenario safety now).2
      ((.enqueue scenario safety now, (s.enqueue scenario safety now).1) :: log) := by
  let entering : TestRun :=
    TimedRun.new (Identifier.ofSequence (s.sequence + 1)) scenario safety now
  have hnew : entering.id ∉ firstIds s.sequence := ofSequence_not_mem_firstIds _
  have hids : ∀ id,
      id ∈ firstIds (s.sequence + 1) ↔ id ∈ firstIds s.sequence ∨ entering.id = id := by
    intro id
    rw [firstIds_succ, List.mem_append, List.mem_singleton, eq_comm (a := id)]
    rfl
  have hlife : ∀ id,
      life id ((.enqueue scenario safety now, (s.enqueue scenario safety now).1) :: log) =
        if entering.id = id then [entering] else life id log := by
    intro id
    refine (life_cons _ _ _ _).trans ?_
    show (if entering.id = id then entering :: life id log else life id log) = _
    split
    · next hid => rw [h.nobody id (hid ▸ hnew)]
    · rfl
  refine ⟨h.orderly.enqueue scenario safety now, fun id hid => ?_, fun id hid => ?_,
    fun run hrun => ?_⟩
  · rw [hlife]
    split
    · exact .entered rfl rfl
    · next hne => exact h.lives id (((hids id).mp hid).resolve_right hne)
  · obtain ⟨hid, hne⟩ := not_or.mp fun hmem => hid ((hids id).mpr hmem)
    rw [hlife, if_neg hne]
    exact h.nobody id hid
  · rw [hlife]
    rcases List.mem_append.mp hrun with hrun | hrun
    · have hold : run.id ∈ firstIds s.sequence :=
        h.orderly.arrival.subset (List.mem_map_of_mem hrun)
      rw [if_neg fun heq : entering.id = run.id => hnew (heq ▸ hold)]
      exact h.stored run hrun
    · obtain rfl := List.mem_singleton.mp hrun
      exact congrArg List.head? (if_pos rfl)

/-- A run that moves goes on with its life. -/
theorem move (h : Recorded s log) (hm : s.Moves s' new) (hold : old ∈ s.runs)
    (hfollows : Follows old new) : Recorded s' ((act, new) :: log) := by
  have hid : new.id ∈ firstIds s.sequence := by
    rw [hfollows.id]
    exact h.orderly.arrival.subset (List.mem_map_of_mem hold)
  have hnext : Life (new :: life new.id log) := by
    have hlife := h.lives new.id hid
    have hlast := h.stored old hold
    rw [← hfollows.id] at hlast
    cases hlived : life new.id log with
    | nil => rw [hlived] at hlast; cases hlast
    | cons last past =>
      rw [hlived] at hlast hlife
      obtain rfl := Option.some.inj hlast
      exact .followed hlife hfollows
  refine ⟨hm.orderly h.orderly, fun id hmem => ?_, fun id hmem => ?_, fun run hrun => ?_⟩
  · rw [life_cons]
    split
    · next heq => exact heq ▸ hnext
    · exact h.lives id (hm.sequence ▸ hmem)
  · rw [hm.sequence] at hmem
    rw [life_cons, if_neg fun heq : new.id = id => hmem (heq ▸ hid)]
    exact h.nobody id hmem
  · rw [life_cons]
    rcases hm.eq_or_mem hrun with rfl | ⟨hrun, hne⟩
    · rw [if_pos rfl]
      rfl
    · rw [if_neg hne.symm]
      exact h.stored run hrun

theorem ask (h : Recorded s log) (ha : s.ask act = .ok (new, s')) :
    Recorded s' ((act, new) :: log) := by
  rcases follows_of_ask h.orderly ha with ⟨scenario, safety, now, rfl⟩ | ⟨hm, old, hold, hfollows⟩
  · obtain ⟨rfl, rfl⟩ := Prod.ext_iff.mp (Except.ok.inj ha)
    exact h.enqueue scenario safety now
  · exact h.move hm hold hfollows

/-- The log of a history: what was granted, the latest first. -/
theorem history (h : Recorded s log) (acts : List Act) :
    Recorded (s.run acts) ((s.granted acts).reverse ++ log) := by
  induction acts generalizing s log with
  | nil => exact h
  | cons act acts ih =>
    show Recorded ((s.perform act).run acts) _
    cases hask : s.ask act with
    | error e =>
      simp only [perform, granted, hask]
      exact ih h
    | ok answer =>
      obtain ⟨new, s'⟩ := answer
      simp only [perform, granted, hask]
      rw [List.reverse_cons, List.append_assoc]
      exact ih (h.ask hask)

end Recorded

/-! ## Lives in histories of any length -/

theorem life_reverse (id : RunId) (log : List (Act × TestRun)) :
    life id log.reverse = (life id log).reverse := by
  rw [life, List.map_reverse, List.filter_reverse]
  rfl

/-- The log of what is granted from the beginning, turned round. -/
theorem recorded_granted (historyLimit : Nat) (acts : List Act) :
    Recorded ((empty historyLimit).run acts) ((empty historyLimit).granted acts).reverse := by
  have h := (Recorded.empty historyLimit).history acts
  rwa [List.append_nil] at h

/-- Whoever has records in a log has a life there. -/
theorem Recorded.nil_or_life (h : Recorded s log.reverse) (id : RunId) :
    life id log = [] ∨ Life (life id log).reverse := by
  rw [← life_reverse]
  by_cases hid : id ∈ firstIds s.sequence
  · exact .inr (h.lives id hid)
  · refine .inl (List.reverse_eq_nil_iff.mp ?_)
    rw [← life_reverse]
    exact h.nobody id hid

theorem Recorded.isChain_life (h : Recorded s log.reverse) (id : RunId) :
    (life id log).IsChain fun old new => new.status ∈ old.status.next := by
  rcases h.nil_or_life id with hnil | hlife
  · rw [hnil]
    exact .nil
  · exact List.isChain_reverse.mp hlife.isChain

/-- Nothing follows a run that has passed or was aborted. -/
theorem eq_nil_of_over {before after : List TestRun}
    (h : (before ++ run :: after).IsChain fun old new => new.status ∈ old.status.next)
    (hover : run.status = .passed ∨ run.status = .aborted) : after = [] := by
  cases after with
  | nil => rfl
  | cons later rest =>
    have hnext := (List.isChain_append_cons_cons.mp h).2.1
    rcases hover with hover | hover
    · rw [hover] at hnext
      cases hnext
    · rw [hover] at hnext
      cases hnext

/-- What is granted was asked of the scheduler as it was when its turn came. -/
theorem exists_ask_of_mem_granted {e : Act × TestRun} (he : e ∈ s.granted acts) :
    ∃ before after, ask before e.1 = .ok (e.2, after) := by
  induction acts generalizing s with
  | nil => cases he
  | cons act acts ih =>
    unfold granted at he
    split at he
    · next hask =>
      rcases List.mem_cons.mp he with rfl | he
      · exact ⟨_, _, hask⟩
      · exact ih he
    · exact ih he

/-- A run comes back as dispatching as often as it is marked so. -/
theorem countP_dispatches_granted (s : Scheduler) (acts : List Act) (id : RunId) :
    (s.granted acts).countP (fun e => e.1.dispatches id) =
      (life id (s.granted acts)).countP fun run => decide (run.status = .dispatching) := by
  rw [life, List.countP_filter, List.countP_map]
  refine List.countP_congr fun e he => ?_
  obtain ⟨_, _, hask⟩ := exists_ask_of_mem_granted he
  rw [dispatches_iff_of_ask hask]
  simp [and_comm]

/-- Whatever is asked of a scheduler, refused or not: a run that enters begins a life, queued and at
its first attempt; its statuses follow one another as the life of a run allows, and nothing follows
once it has passed or was aborted; it is marked as dispatching at most once for each attempt that
its limits allow, and its attempt stays between one and that number. What is stored of a run is the
last record of its life. And an act that is refused leaves the scheduler as it was, though the
scheduler is changed where it stands. -/
theorem lives_are_walks (historyLimit : Nat) (acts : List Act) :
    let s := (empty historyLimit).run acts
    let log := (empty historyLimit).granted acts
    (∀ id ∈ (empty historyLimit).arrivals acts, ∃ first, (life id log).head? = some first ∧
      first.status = .queued ∧ first.attempt = 1) ∧
    (∀ run ∈ s.runs, (life run.id log).getLast? = some run) ∧
    (∀ id, ((life id log).map (·.status)).IsChain fun source target => target ∈ source.next) ∧
    (∀ id before run after, life id log = before ++ run :: after →
      run.status = .passed ∨ run.status = .aborted → after = []) ∧
    (∀ id, ∀ run ∈ life id log, 1 ≤ run.attempt ∧ run.attempt ≤ max 1 run.safety.maxRetries ∧
      log.countP (fun e => e.1.dispatches id) ≤ max 1 run.safety.maxRetries) ∧
    ∀ act e s', (InPlace.carryOut act).run s = .error e s' → s.ask act = .error e ∧ s' = s := by
  intro s log
  have h : Recorded s log.reverse := recorded_granted historyLimit acts
  refine ⟨fun id hid => ?_, fun run hrun => ?_, fun id => ?_,
    fun id before run after heq hover => ?_, fun id run hrun => ?_,
    fun act e s' hrefused => InPlace.eq_of_refused hrefused⟩
  · have hentered : id ∈ firstIds s.sequence := by
      rw [(orderly_empty historyLimit).firstIds_run acts]
      exact List.mem_append_right _ hid
    have hlife := h.lives id hentered
    rw [life_reverse] at hlife
    rw [← List.getLast?_reverse]
    exact hlife.getLast?_eq
  · rw [← List.head?_reverse, ← life_reverse]
    exact h.stored run hrun
  · exact (List.isChain_map _).mpr (h.isChain_life id)
  · have hchain := h.isChain_life id
    rw [heq] at hchain
    exact eq_nil_of_over hchain hover
  · rcases h.nil_or_life id with hnil | hlife
    · rw [hnil] at hrun
      cases hrun
    · obtain ⟨hone, hmax, hcount⟩ := hlife.bounds (List.mem_reverse.mpr hrun)
      refine ⟨hone, hmax, ?_⟩
      rwa [countP_dispatches_granted, ← List.countP_reverse]

/-- One run fails, is queued again, is asked for too early, fails once more and has no attempt left;
another one is aborted. -/
def failingHistory : List Act :=
  [.enqueue .null {} 0, .enqueue .null {} 0, .markDispatching ⟨"run-1"⟩ 1,
    .markRunning ⟨"run-1"⟩ 2, .complete ⟨"run-1"⟩ .failed none none 3,
    .queueRetry ⟨"run-1"⟩ "again" 4, .markDispatching ⟨"run-1"⟩ 5, .abortQueued ⟨"run-2"⟩ "stop" 6,
    .markDispatching ⟨"run-1"⟩ 9000, .complete ⟨"run-1"⟩ .failed none none 9001]

theorem lives_are_walks_failing :
    let s := (empty 5).run failingHistory
    let log := (empty 5).granted failingHistory
    (life ⟨"run-1"⟩ log).map (fun run => (run.status, run.attempt)) =
        [(.queued, 1), (.dispatching, 1), (.running, 1), (.failed, 1), (.queued, 2),
          (.dispatching, 2), (.failed, 2)] ∧
      (∃ first, (life ⟨"run-1"⟩ log).head? = some first ∧ first.status = .queued ∧
        log.countP (fun e => e.1.dispatches ⟨"run-1"⟩) ≤ max 1 first.safety.maxRetries) ∧
      (∃ run ∈ s.runs, (life run.id log).getLast? = some run) ∧
      (∃ before run after, life ⟨"run-2"⟩ log = before ++ run :: after ∧ run.status = .aborted ∧
        after = []) ∧
      ∃ e s', (InPlace.carryOut (.queueRetry ⟨"run-1"⟩ "again" 9002)).run s = .error e s' ∧
        s' = s := by
  intro s log
  obtain ⟨hentered, hstored, _, hover, hbounds, hrefused⟩ := lives_are_walks 5 failingHistory
  refine ⟨by decide +kernel, ?_, ?_, ?_, ?_⟩
  · have hmem : (⟨"run-1"⟩ : RunId) ∈ (empty 5).arrivals failingHistory := by decide +kernel
    obtain ⟨first, hfirst, hqueued, _⟩ := hentered _ hmem
    exact ⟨first, hfirst, hqueued, (hbounds _ first (List.mem_of_mem_head? hfirst)).2.2⟩
  · have hsome : s.runs.head?.isSome = true := by decide +kernel
    obtain ⟨run, hrun⟩ := Option.isSome_iff_exists.mp hsome
    exact ⟨run, List.mem_of_mem_head? hrun, hstored run (List.mem_of_mem_head? hrun)⟩
  · have hstatuses : (life ⟨"run-2"⟩ log).map (·.status) = [.queued, .aborted] := by
      decide +kernel
    obtain ⟨entered, rest, hlife, _, hrest⟩ := List.map_eq_cons_iff.mp hstatuses
    obtain ⟨last, after, rfl, haborted, _⟩ := List.map_eq_cons_iff.mp hrest
    refine ⟨[entered], last, after, hlife, haborted, ?_⟩
    exact hover _ [entered] last after hlife (.inr haborted)
  · have hasked : (s.ask (.queueRetry ⟨"run-1"⟩ "again" 9002)).isOk = false := by decide +kernel
    cases hanswer : s.ask (.queueRetry ⟨"run-1"⟩ "again" 9002) with
    | ok answer =>
      rw [hanswer] at hasked
      cases hasked
    | error e =>
      have hresult := InPlace.run_of_refused hanswer
      exact ⟨e, s, hresult, (hrefused _ e s hresult).2⟩

end Scheduler

end SharedScene
