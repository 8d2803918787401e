import SharedScene.Proofs.Scene.Outbox
import SharedScene.Proofs.Scene.Reachable

/-!
# Back to a snapshot

Whatever happens to a store after a snapshot was taken of it, the way back to it gives the same
forest, the same revision and the same waiting changes (`restore_of_snapshot`). Of the events a
snapshot keeps their number only. They are the same again as long as nobody has taken events in the
meantime: what happens adds events behind those that are there, and never looks at them
(`outbox_run`).

Once events were taken, the number counts those that came later. Then the way back leaves events of
changes that it takes back, unless there were no events when the snapshot was taken, or none came
since (`restore_leaves_undone_event`).
-/

namespace SharedScene.Store

variable {s : Store} {events : List Event} {act : Act} {acts : List Act}

/-! ## Histories -/

/-- What can happen to a store. -/
inductive Act where
  | apply (message : Message) (origin : Origin)
  | replaceAll (reports : List Report)
  | takeEvents
  | takePending

/-- The store after something happened. A message that is refused leaves it as it is. -/
def perform (s : Store) : Act → Store
  | .apply message origin =>
    match s.apply message origin with
    | .ok (_, s') => s'
    | .error _ => s
  | .replaceAll reports => (s.replaceAll reports).2
  | .takeEvents => s.takeEvents
  | .takePending => s.takePending

/-- The store after several things happened, in their order. -/
def run (s : Store) (acts : List Act) : Store := acts.foldl perform s

theorem run_append (s : Store) (acts more : List Act) :
    s.run (acts ++ more) = (s.run acts).run more :=
  List.foldl_append

theorem Reachable.perform (h : s.Reachable) (act : Act) : (s.perform act).Reachable := by
  cases act with
  | apply message origin =>
    rw [Store.perform]
    split
    · next ha => exact .apply h ha
    · exact h
  | replaceAll reports => exact .replaceAll reports h
  | takeEvents => exact .takeEvents h
  | takePending => exact .takePending h

/-! ## What is told -/

theorem replaceAll_preceded (s : Store) (events : List Event) (reports : List Report) :
    ((s.preceded events).replaceAll reports).2 = (s.replaceAll reports).2.preceded events := by
  unfold replaceAll
  dsimp only
  have hforest : (s.preceded events).forest = s.forest := rfl
  rw [hforest]
  split
  · rfl
  · unfold preceded
    rw [List.append_assoc]

/-- What happens does not depend on the events of before, unless it takes them. -/
theorem perform_preceded (hkeep : act ≠ .takeEvents) :
    (s.preceded events).perform act = (s.perform act).preceded events := by
  cases act with
  | apply message origin =>
    simp only [perform, apply_preceded]
    cases s.apply message origin with
    | ok done => rfl
    | error e => rfl
  | replaceAll reports => exact replaceAll_preceded s events reports
  | takeEvents => exact absurd rfl hkeep
  | takePending => rfl

/-- What happens adds its events behind those of before, unless it takes them. -/
theorem outbox_perform (hkeep : act ≠ .takeEvents) :
    (s.perform act).outbox = s.outbox ++ (s.takeEvents.perform act).outbox := by
  conv_lhs => rw [← takeEvents_preceded s, perform_preceded hkeep]
  rfl

/-- All that is told by what happens, whether somebody takes it or not. -/
def told (s : Store) : List Act → List Event
  | [] => []
  | act :: acts => (s.takeEvents.perform act).outbox ++ (s.perform act).told acts

theorem outbox_run (hkeep : .takeEvents ∉ acts) :
    (s.run acts).outbox = s.outbox ++ s.told acts := by
  induction acts generalizing s with
  | nil => exact (List.append_nil _).symm
  | cons act acts ih =>
    obtain ⟨hact, hacts⟩ := not_or.mp fun h => hkeep (List.mem_cons.mpr h)
    show ((s.perform act).run acts).outbox = _
    rw [ih hacts, outbox_perform (Ne.symm hact), List.append_assoc]
    rfl

/-! ## The way back -/

/-- Whatever happens after a snapshot, the way back to it gives the forest, the revision and the
waiting changes of then. The events are those of then when nobody has taken any since, and when
there were none. Otherwise they are the first of those that were told since the last time, as many
as there were then: so no event of what was undone is left exactly when there were none, or none was
told. -/
theorem restore_of_snapshot (s : Store) (acts : List Act) :
    let back := (s.run acts).restore s.snapshot
    back.forest = s.forest ∧ back.revision = s.revision ∧ back.pending = s.pending ∧
    (s.outbox = [] ∨ .takeEvents ∉ acts → back.outbox = s.outbox) ∧
    ∀ before after, acts = before ++ .takeEvents :: after → .takeEvents ∉ after →
      back.outbox = ((s.run before).takeEvents.told after).take s.outbox.length ∧
      (back.outbox = [] ↔ s.outbox = [] ∨ (s.run before).takeEvents.told after = []) := by
  intro back
  have hback : back.outbox = (s.run acts).outbox.take s.outbox.length := rfl
  refine ⟨rfl, rfl, rfl, ?_, fun before after hacts hkeep => ?_⟩
  · rintro (hnone | hkeep)
    · rw [hback, hnone]
      rfl
    · rw [hback, outbox_run hkeep, List.take_left]
  · have htold : (s.run acts).outbox = (s.run before).takeEvents.told after := by
      rw [hacts, run_append]
      exact outbox_run hkeep
    rw [hback, htold]
    exact ⟨rfl, by rw [List.take_eq_nil_iff, List.length_eq_zero_iff]⟩

/-- A request for a part with a fixed id. -/
def newPart (id name : String) : Act := .apply (.create [] ⟨some ⟨id⟩, "Part", name, .empty⟩) .agent

/-- A store with a box, of which nobody has heard yet. -/
def boxed : Store := (empty (.stemmed "id")).run [newPart "a" "Box"]

/-- A lid comes, and goes with everything else in a resync: the box is back, and the event of it.
When the events are taken and nothing is told later, no event is left. -/
theorem restore_of_snapshot_boxed :
    let undone : List Act := [newPart "b" "Lid", .takePending, .replaceAll []]
    ((boxed.run undone).restore boxed.snapshot).forest = boxed.forest ∧
      (boxed.run undone).outbox.length = 4 ∧
      ((boxed.run undone).restore boxed.snapshot).outbox = boxed.outbox ∧
      ((boxed.run [newPart "b" "Lid", .takeEvents, .takePending]).restore boxed.snapshot).outbox =
        [] := by
  intro undone
  obtain ⟨hforest, _, _, hkept, _⟩ := restore_of_snapshot boxed undone
  obtain ⟨_, _, _, _, htaken⟩ :=
    restore_of_snapshot boxed [newPart "b" "Lid", .takeEvents, .takePending]
  refine ⟨hforest, by decide +kernel, hkept (.inr ?_), ?_⟩
  · simp [undone, newPart]
  · exact (htaken [newPart "b" "Lid"] [.takePending] rfl (by simp)).2.mpr (.inr rfl)

/-- The way back may leave an event of what it undoes: the one of the box was taken, the one of the
lid is in its place, and the lid is gone. -/
theorem restore_leaves_undone_event :
    ¬ ∀ (s : Store) (acts : List Act),
      ((s.run acts).restore s.snapshot).outbox.Sublist s.outbox := by
  intro h
  have hsub := (h boxed [.takeEvents, newPart "b" "Lid"]).map Event.id
  revert hsub
  decide +kernel

end SharedScene.Store
