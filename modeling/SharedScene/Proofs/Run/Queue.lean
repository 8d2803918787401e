import SharedScene.Proofs.Run.Turn

/-!
# The order of the queue, and how long it is quiet

A run enters the queue when it arrives, and again with every retry. The queue holds those that are
queued in the order in which each of them entered last (`CameBefore`), whatever left it in between:
so the run whose turn it is came before all others that are ready
(`Orderly.peek?_eq_some_iff`), and one that waits for its delay is passed over and keeps its place.

How long it takes until a run is ready is the least that is left of the delays in the queue. Until
then no run is ready, and then one is (`Orderly.quiet_until`).
-/

namespace SharedScene.Scheduler

variable {s s' : Scheduler} {act : Act} {acts : List Act} {id other : RunId} {new run : TestRun}
  {log : List (Act × TestRun)} {entered : List RunId} {now later : Instant}

/-! ## Who came first -/

/-- Whether an act puts a run at the end of the queue. -/
def Act.enters : Act → Bool
  | .enqueue _ _ _ => true
  | .queueRetry _ _ _ => true
  | _ => false

/-- The runs that entered the queue, in the order in which they did; a run that is tried again is
there once more. -/
def entrances (log : List (Act × TestRun)) : List RunId :=
  (log.filter fun e => e.1.enters).map fun e => e.2.id

theorem entrances_cons (e : Act × TestRun) (log : List (Act × TestRun)) :
    entrances (e :: log) = entrances [e] ++ entrances log := by
  rw [entrances, ← List.singleton_append, List.filter_append, List.map_append]
  rfl

/-- One run entered for the last time before another one did. -/
def CameBefore (entered : List RunId) (id other : RunId) : Prop :=
  ∃ before after, entered = before ++ other :: after ∧ id ∈ before ∧ id ∉ other :: after

namespace CameBefore

/-- Who enters next changes nothing for all others. -/
theorem concat (h : CameBefore entered id other) {next : RunId} (hne : id ≠ next) :
    CameBefore (entered ++ [next]) id other := by
  obtain ⟨before, after, rfl, hbefore, hafter⟩ := h
  refine ⟨before, after ++ [next], by simp, hbefore, ?_⟩
  rw [← List.cons_append, List.mem_append, List.mem_singleton, not_or]
  exact ⟨hafter, hne⟩

/-- All others that ever entered came before who enters next. -/
theorem of_mem (h : id ∈ entered) {next : RunId} (hne : id ≠ next) :
    CameBefore (entered ++ [next]) id next :=
  ⟨entered, [], rfl, h, by simpa using hne⟩

/-- No two runs came before each other. -/
theorem asymm (h : CameBefore entered id other) : ¬ CameBefore entered other id := by
  rintro ⟨before', after', heq', _, hafter'⟩
  obtain ⟨before, after, heq, _, hafter⟩ := h
  -- of the two entrances one stands behind the other
  rcases List.append_eq_append_iff.mp (heq.symm.trans heq') with ⟨l, _, hl⟩ | ⟨l, _, hl⟩
  · exact hafter (hl ▸ List.mem_append_right l List.mem_cons_self)
  · exact hafter' (hl ▸ List.mem_append_right l List.mem_cons_self)

end CameBefore

/-! ## The queue is in this order -/

/-- What an act does to the queue: the run that comes back is added at the end, or runs leave. -/
theorem queue_of_ask (ha : s.ask act = .ok (new, s')) :
    (act.enters = true ∧ s'.queue = s.queue ++ [new.id]) ∨
      (act.enters = false ∧ s'.queue.Sublist s.queue) := by
  cases act with
  | enqueue scenario safety now =>
    cases ha
    exact .inl ⟨rfl, rfl⟩
  | markDispatching id now =>
    obtain ⟨old, _, _, _, _, _, rfl⟩ := markDispatching_eq_ok ha
    exact .inr ⟨rfl, List.filter_sublist⟩
  | markRunning id now =>
    obtain ⟨old, _, _, _, rfl⟩ := markRunning_eq_ok ha
    exact .inr ⟨rfl, .refl _⟩
  | complete id status message result now =>
    obtain ⟨old, _, _, _, _, rfl⟩ := complete_eq_ok ha
    rw [clearActive_eq]
    exact .inr ⟨rfl, List.filter_sublist⟩
  | queueRetry id reason now =>
    obtain ⟨old, hlookup, _, _, rfl, rfl⟩ := queueRetry_eq_ok ha
    obtain ⟨_, rfl⟩ := lookup_eq_ok hlookup
    rw [clearActive_eq]
    exact .inl ⟨rfl, rfl⟩
  | abortQueued id reason now =>
    obtain ⟨old, _, _, _, rfl⟩ := abortQueued_eq_ok ha
    exact .inr ⟨rfl, List.filter_sublist⟩

/-- The runs in the queue all entered it, and stand in the order in which they did last. -/
structure Lined (s : Scheduler) (entered : List RunId) : Prop where
  orderly : s.Orderly
  subset : s.queue ⊆ entered
  inOrder : s.queue.Pairwise (CameBefore entered)

namespace Lined

theorem ask (h : Lined s entered) (ha : s.ask act = .ok (new, s')) :
    Lined s' (entered ++ entrances [(act, new)]) := by
  have hs' := h.orderly.ask ha
  rcases queue_of_ask ha with ⟨henters, hqueue⟩ | ⟨henters, hqueue⟩
  · -- who enters is not in the queue yet, so all who are came before
    have hadded : entrances [(act, new)] = [new.id] := by simp [entrances, henters]
    have hnew : ∀ id ∈ s.queue, id ≠ new.id := by
      have hnodup := hs'.nodup_queue
      rw [hqueue] at hnodup
      exact fun id hid => (List.nodup_append.mp hnodup).2.2 id hid new.id List.mem_cons_self
    rw [hadded]
    refine ⟨hs', fun id hid => ?_, ?_⟩
    · rw [hqueue] at hid
      exact (List.mem_append.mp hid).elim (fun hid => List.mem_append_left _ (h.subset hid))
        (List.mem_append_right _)
    · rw [hqueue]
      refine List.pairwise_append.mpr
        ⟨?_, List.pairwise_singleton _ _, fun id hid other hother => ?_⟩
      · exact h.inOrder.imp_of_mem fun hid _ hbefore => hbefore.concat (hnew _ hid)
      · rw [List.mem_singleton.mp hother]
        exact .of_mem (h.subset hid) (hnew id hid)
  · have hadded : entrances [(act, new)] = [] := by simp [entrances, henters]
    rw [hadded, List.append_nil]
    exact ⟨hs', fun id hid => h.subset (hqueue.subset hid), h.inOrder.sublist hqueue⟩

theorem history (h : Lined s entered) (acts : List Act) :
    Lined (s.run acts) (entered ++ entrances (s.granted acts)) := by
  induction acts generalizing s entered with
  | nil =>
    rw [granted, entrances, List.filter_nil, List.map_nil, List.append_nil]
    exact h
  | cons act acts ih =>
    show Lined ((s.perform act).run acts) _
    cases hask : s.ask act with
    | error e =>
      simp only [perform, granted, hask]
      exact ih h
    | ok answer =>
      obtain ⟨new, s'⟩ := answer
      have hrest := ih (h.ask hask)
      simp only [perform, granted, hask]
      rwa [List.append_assoc, ← entrances_cons] at hrest

end Lined

/-! ## Whose turn it is -/

/-- The run whose turn it is came before all others that are ready. -/
theorem Lined.cameBefore_of_peek? (h : Lined s entered) (hpeek : s.peek? now = some run)
    {second : TestRun} (hsecond : second ∈ s.runs) (hready : second.isReady now = true)
    (hne : second ≠ run) : CameBefore entered run.id second.id := by
  -- those before it in the queue are not ready, so the other one is behind it
  obtain ⟨_, skipped, rest, hqueue, hskipped⟩ := List.find?_eq_some_iff_append.mp hpeek
  have hqueued : second.status = .queued := of_decide_eq_true (Bool.and_eq_true_iff.mp hready).1
  have hmem := h.orderly.mem_filterMap_queue_iff.mpr ⟨hsecond, hqueued⟩
  rw [hqueue, List.mem_append, List.mem_cons] at hmem
  have hrest : second ∈ rest := by
    rcases hmem with hmem | hmem | hmem
    · have hnot := hskipped second hmem
      rw [hready] at hnot
      cases hnot
    · exact absurd hmem hne
    · exact hmem
  have hordered : (s.queue.filterMap s.get?).Pairwise
      fun r r' => CameBefore entered r.id r'.id := by
    refine List.Pairwise.filterMap s.get? (fun id id' hbefore r hr r' hr' => ?_) h.inOrder
    rw [(h.orderly.get?_eq_some_iff.mp hr).2, (h.orderly.get?_eq_some_iff.mp hr').2]
    exact hbefore
  rw [hqueue] at hordered
  exact (List.pairwise_cons.mp (List.pairwise_append.mp hordered).2.1).1 second hrest

/-- It is the turn of the run that is ready and came before all others that are. -/
theorem Lined.peek?_eq_some_iff (h : Lined s entered) :
    s.peek? now = some run ↔ run ∈ s.runs ∧ run.isReady now = true ∧
      ∀ second ∈ s.runs, second.isReady now = true → second = run ∨
        CameBefore entered run.id second.id := by
  constructor
  · intro hpeek
    obtain ⟨_, hlookup, hready⟩ := peek?_eq_some hpeek
    refine ⟨(lookup_eq_ok hlookup).1, hready, fun second hsecond hready' => ?_⟩
    exact or_iff_not_imp_left.mpr (h.cameBefore_of_peek? hpeek hsecond hready')
  · rintro ⟨hrun, hready, hfirst⟩
    cases hpeek : s.peek? now with
    | none =>
      rw [h.orderly.peek?_eq_none_iff.mp hpeek run hrun] at hready
      cases hready
    | some first =>
      obtain ⟨_, hlookup, hready'⟩ := peek?_eq_some hpeek
      rcases hfirst first (lookup_eq_ok hlookup).1 hready' with rfl | hbefore
      · rfl
      · by_contra hne
        have hother : run ≠ first := fun heq => hne (heq ▸ rfl)
        exact hbefore.asymm (h.cameBefore_of_peek? hpeek hrun hready hother)

/-! ## How long it is quiet -/

/-- What is left of the delay of a run. -/
def remaining (run : TestRun) (now : Instant) : Int :=
  match run.nextDispatchAt with
  | none => 0
  | some t => max (t - now) 0

theorem remaining_nonneg (run : TestRun) (now : Instant) : 0 ≤ remaining run now := by
  unfold remaining
  split
  · exact Int.le_refl 0
  · exact Int.le_max_right _ _

theorem le_iff_max_sub_le {t now later : Int} (h : now ≤ later) :
    t ≤ later ↔ max (t - now) 0 ≤ later - now := by
  omega

/-- A delay is over once what was left of it has passed, and not before. -/
theorem delayIsOver_iff (h : now ≤ later) :
    run.delayIsOver later = true ↔ remaining run now ≤ later - now := by
  unfold TimedRun.delayIsOver remaining
  cases run.nextDispatchAt with
  | none => exact iff_of_true rfl (Int.sub_nonneg_of_le h)
  | some t =>
    rw [decide_eq_true_iff]
    exact le_iff_max_sub_le h

/-- A queued run is ready once what was left of its delay has passed, and not before. -/
theorem isReady_iff (h : now ≤ later) :
    run.isReady later = true ↔ run.status = .queued ∧ remaining run now ≤ later - now := by
  rw [TimedRun.isReady, Bool.and_eq_true, decide_eq_true_iff, delayIsOver_iff h]

theorem nextReadyIn?_eq (s : Scheduler) (now : Instant) :
    s.nextReadyIn? now = ((s.queue.filterMap s.get?).map fun run => remaining run now).min? := rfl

/-- The scheduler has something to wait for when a run is queued. -/
theorem Orderly.nextReadyIn?_eq_none_iff (hs : s.Orderly) :
    s.nextReadyIn? now = none ↔ ∀ run ∈ s.runs, run.status ≠ .queued := by
  rw [nextReadyIn?_eq, List.min?_eq_none_iff, List.map_eq_nil_iff, List.eq_nil_iff_forall_not_mem]
  refine forall_congr' fun run => ?_
  rw [hs.mem_filterMap_queue_iff, not_and]

/-- The time that the scheduler names is what is left of the delay of a queued run, and no more is
left of any other one. -/
theorem Orderly.nextReadyIn?_eq_some_iff (hs : s.Orderly) {d : Int} :
    s.nextReadyIn? now = some d ↔
      (∃ run ∈ s.runs, run.status = .queued ∧ remaining run now = d) ∧
        ∀ run ∈ s.runs, run.status = .queued → d ≤ remaining run now := by
  rw [nextReadyIn?_eq, List.min?_eq_some_iff]
  simp only [List.mem_map, hs.mem_filterMap_queue_iff]
  constructor
  · rintro ⟨⟨run, ⟨hrun, hqueued⟩, hd⟩, hleast⟩
    exact ⟨⟨run, hrun, hqueued, hd⟩, fun run hrun hqueued =>
      hleast _ ⟨run, ⟨hrun, hqueued⟩, rfl⟩⟩
  · rintro ⟨⟨run, hrun, hqueued, hd⟩, hleast⟩
    refine ⟨⟨run, ⟨hrun, hqueued⟩, hd⟩, ?_⟩
    rintro _ ⟨run, ⟨hrun, hqueued⟩, rfl⟩
    exact hleast run hrun hqueued

/-- For the time that the scheduler names it is nobody's turn, and then it is somebody's. -/
theorem Orderly.quiet_until (hs : s.Orderly) {d : Int} (h : s.nextReadyIn? now = some d) :
    0 ≤ d ∧ (s.peek? (now + d)).isSome = true ∧
      ∀ t, now ≤ t → t < now + d → s.peek? t = none := by
  obtain ⟨⟨first, hfirst, hqueued, hd⟩, hleast⟩ := hs.nextReadyIn?_eq_some_iff.mp h
  have hnonneg : 0 ≤ d := hd ▸ remaining_nonneg first now
  refine ⟨hnonneg, ?_, fun t hle hlt => ?_⟩
  · have hready : first.isReady (now + d) = true :=
      (isReady_iff (Int.le_add_of_nonneg_right hnonneg)).mpr ⟨hqueued, by omega⟩
    rw [← Option.not_isNone, Bool.not_eq_true', ← Bool.not_eq_true, Option.isNone_iff_eq_none,
      hs.peek?_eq_none_iff]
    intro hnone
    rw [hnone first hfirst] at hready
    cases hready
  · refine hs.peek?_eq_none_iff.mpr fun run hrun => ?_
    by_contra hready
    rw [Bool.not_eq_false, isReady_iff hle] at hready
    obtain ⟨hqueued, hover⟩ := hready
    have hpassed : t - now < d := Int.sub_left_lt_of_lt_add hlt
    exact absurd ((hleast run hrun hqueued).trans hover) (Int.not_le.mpr hpassed)

/-- Whatever was asked of a scheduler, at any time: it is the turn of the run that entered the queue
first, at its last entrance, among those that are queued and have waited for their delay, and
nobody's exactly when there is none. The scheduler names no time exactly when no run is queued. For
the time that it names it is nobody's turn, and then it is somebody's. -/
theorem next_run_is_earliest_ready (historyLimit : Nat) (acts : List Act) (now : Instant) :
    let s := (empty historyLimit).run acts
    let entered := entrances ((empty historyLimit).granted acts)
    (∀ run, s.peek? now = some run ↔ run ∈ s.runs ∧ run.isReady now = true ∧
      ∀ second ∈ s.runs, second.isReady now = true → second = run ∨
        CameBefore entered run.id second.id) ∧
    (s.peek? now = none ↔ ∀ run ∈ s.runs, run.isReady now = false) ∧
    (s.nextReadyIn? now = none ↔ ∀ run ∈ s.runs, run.status ≠ .queued) ∧
    ∀ d, s.nextReadyIn? now = some d → 0 ≤ d ∧ (s.peek? (now + d)).isSome = true ∧
      ∀ t, now ≤ t → t < now + d → s.peek? t = none := by
  intro s entered
  have hempty : Lined (empty historyLimit) [] :=
    ⟨orderly_empty historyLimit, List.nil_subset _, .nil⟩
  have hlined : Lined s entered := hempty.history acts
  have hs := hlined.orderly
  exact ⟨fun run => hlined.peek?_eq_some_iff, hs.peek?_eq_none_iff, hs.nextReadyIn?_eq_none_iff,
    fun d hd => hs.quiet_until hd⟩

/-- The second of two runs is tried again before the first one is. -/
def delayedHistory : List Act :=
  [.enqueue .null {} 0, .enqueue .null {} 0, .markDispatching ⟨"run-1"⟩ 1,
    .complete ⟨"run-1"⟩ .failed none none 2, .markDispatching ⟨"run-2"⟩ 3,
    .queueRetry ⟨"run-2"⟩ "again" 4, .queueRetry ⟨"run-1"⟩ "again" 5]

/-- Both runs wait; the second one is ready first, and when both are it is its turn, since it came
back before the other one. -/
theorem next_run_is_earliest_ready_delayed :
    let s := (empty 5).run delayedHistory
    s.nextReadyIn? 10 = some 994 ∧ (s.peek? 1004).isSome = true ∧ s.peek? 1003 = none ∧
      ∃ first ∈ s.runs, ∃ second ∈ s.runs, first.id = ⟨"run-2"⟩ ∧ second.id = ⟨"run-1"⟩ ∧
        s.peek? 5000 = some first ∧ second.isReady 5000 = true ∧
        CameBefore (entrances ((empty 5).granted delayedHistory)) first.id second.id := by
  intro s
  have hquiet : s.nextReadyIn? 10 = some 994 := by decide +kernel
  obtain ⟨_, _, _, htime⟩ := next_run_is_earliest_ready 5 delayedHistory 10
  obtain ⟨_, hthen, hbefore⟩ := htime 994 hquiet
  obtain ⟨hturn, _⟩ := next_run_is_earliest_ready 5 delayedHistory 5000
  have hpeek : (s.peek? 5000).map (·.id) = some ⟨"run-2"⟩ := by decide +kernel
  obtain ⟨first, hfirst, hid⟩ := Option.map_eq_some_iff.mp hpeek
  have hwaiting : (s.runs.head?.map fun run => (run.id, run.isReady 5000)) =
      some (⟨"run-1"⟩, true) := by decide +kernel
  obtain ⟨second, hsecond, hready⟩ := Option.map_eq_some_iff.mp hwaiting
  obtain ⟨hid', hready⟩ := Prod.ext_iff.mp hready
  have hmem := List.mem_of_mem_head? hsecond
  obtain ⟨hstored, _, hall⟩ := (hturn first).mp hfirst
  refine ⟨hquiet, hthen, hbefore 1003 (by decide) (by decide), first, hstored, second, hmem, hid,
    hid', hfirst, hready, (hall second hmem hready).resolve_left ?_⟩
  rintro rfl
  exact absurd (hid.symm.trans hid') (by decide)

end SharedScene.Scheduler
