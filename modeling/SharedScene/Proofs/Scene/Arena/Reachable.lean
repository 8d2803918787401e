import SharedScene.Proofs.Scene.Arena.Consistent
import SharedScene.Proofs.Scene.Arena.Resync

/-!
# Tables that can come about

From empty tables, by messages that are applied or refused, resyncs, deliveries and returns to
snapshots, come those tables that show a store which comes about in the same way
(`ArenaStore.Reachable.exists_shows`). What is proved of stores so holds of the tables as well; and
the tables never contradict each other (`ArenaStore.reachable_consistent`).
-/

namespace SharedScene.ArenaStore

/-- The stores on tables that come about from an empty one. A refused message may leave what it had
written; a snapshot may be one of any store that comes about. -/
inductive Reachable : ArenaStore → Prop where
  | empty (supply : IdSupply) : Reachable (empty supply)
  | apply {t t' : ArenaStore} {message : Message} {origin : Origin} {outcome : Outcome} :
    Reachable t → (apply message origin).run t = .ok outcome t' → Reachable t'
  | refuse {t t' : ArenaStore} {message : Message} {origin : Origin} {e : SceneError} :
    Reachable t → (apply message origin).run t = .error e t' → Reachable t'
  | replaceAll {t : ArenaStore} (reports : List Report) :
    Reachable t → Reachable (t.replaceAll reports).2
  | takeEvents {t : ArenaStore} : Reachable t → Reachable t.takeEvents
  | takePending {t : ArenaStore} : Reachable t → Reachable t.takePending
  | restore {t u : ArenaStore} : Reachable t → Reachable u → Reachable (t.restore u.snapshot)

variable {s r : Store} {t t' u : ArenaStore}

/-! ## Step by step -/

namespace Answers

variable {β : Type} {answer : Except SceneError (β × Store)}
  {run : EStateM.Result SceneError ArenaStore β}

/-- A run that succeeds gives the answer, and tables that show what it leads to. -/
theorem exists_of_ok {b : β} (h : t.Answers answer run) (hrun : run = .ok b t') :
    ∃ s', answer = .ok (b, s') ∧ t'.Shows s' := by
  cases h with
  | ok h =>
    cases hrun
    exact ⟨_, rfl, h⟩
  | error => cases hrun

/-- A run that is refused has the reason of the answer, and leaves the tables alone. -/
theorem of_error {e : SceneError} (h : t.Answers answer run) (hrun : run = .error e t') :
    answer = .error e ∧ t' = t := by
  cases h with
  | ok h => cases hrun
  | error =>
    cases hrun
    exact ⟨rfl, rfl⟩

end Answers

theorem Shows.takeEvents (h : t.Shows s) : t.takeEvents.Shows s.takeEvents := by
  obtain ⟨h⟩ := h
  exact .onArena (s := s.takeEvents) h

theorem Shows.takePending (h : t.Shows s) : t.takePending.Shows s.takePending := by
  obtain ⟨h⟩ := h
  exact .onArena (s := s.takePending) h

/-- The way back to a snapshot is the way back of the store. -/
theorem Shows.restore (h : t.Shows s) (k : u.Shows r) :
    (t.restore u.snapshot).Shows (s.restore r.snapshot) := by
  obtain ⟨_⟩ := h
  obtain ⟨k⟩ := k
  exact .onArena (s := s.restore r.snapshot) k

/-- Tables that come about show a store that comes about. -/
theorem Reachable.exists_shows (h : t.Reachable) : ∃ s : Store, s.Reachable ∧ t.Shows s := by
  induction h with
  | empty supply => exact ⟨_, .empty supply, shows_empty supply⟩
  | apply _ hrun ih =>
    obtain ⟨s, hs, hshows⟩ := ih
    obtain ⟨s', ha, hshows'⟩ := (run_apply hshows hs.wellFormed _).exists_of_ok hrun
    exact ⟨s', hs.apply ha, hshows'⟩
  | refuse _ hrun ih =>
    obtain ⟨s, hs, hshows⟩ := ih
    obtain ⟨_, rfl⟩ := (run_apply hshows hs.wellFormed _).of_error hrun
    exact ⟨s, hs, hshows⟩
  | replaceAll reports _ ih =>
    obtain ⟨s, hs, hshows⟩ := ih
    exact ⟨_, hs.replaceAll reports, (replaceAll_shows hshows hs.wellFormed reports).2⟩
  | takeEvents _ ih =>
    obtain ⟨_, hs, hshows⟩ := ih
    exact ⟨_, hs.takeEvents, hshows.takeEvents⟩
  | takePending _ ih =>
    obtain ⟨_, hs, hshows⟩ := ih
    exact ⟨_, hs.takePending, hshows.takePending⟩
  | restore _ _ iht ihu =>
    obtain ⟨_, hs, hshows⟩ := iht
    obtain ⟨_, hr, kshows⟩ := ihu
    exact ⟨_, hs.restore hr, hshows.restore kshows⟩

/-! ## No contradictions -/

/-- In tables that come about all ways to find an instance lead to the same, and a check finds no
fault. -/
theorem reachable_consistent (h : t.Reachable) :
    t.arena.Consistent ∧ t.arena.check = .ok () := by
  obtain ⟨s, hs, hshows⟩ := h.exists_shows
  have hconsistent := hshows.stores.consistent hs.wellFormed
  exact ⟨hconsistent, hconsistent.check_eq_ok⟩

/-- Tables after a resync with everything that can be wrong in it. -/
def tangled : ArenaStore := ((empty (.stemmed "id")).replaceAll Store.tangledReports).2

/-- The first shelf, moved below the second one, which has a box already. -/
theorem reachable_consistent_tangled : ∃ change t',
    (apply (.reparent ["Shelf"] ["Shelf_2"] (some "Box")) .agent).run tangled =
      .ok (.applied change) t' ∧
    t'.arena.Consistent ∧ t'.arena.check = .ok () ∧
    t'.arena.paths.get? ["Shelf_2", "Box_2"] = some ⟨"a"⟩ := by
  have hreachable : tangled.Reachable := .replaceAll _ (.empty _)
  obtain ⟨change, t', hrun, hpath⟩ : ∃ change t',
      (apply (.reparent ["Shelf"] ["Shelf_2"] (some "Box")) .agent).run tangled =
        .ok (.applied change) t' ∧ t'.arena.paths.get? ["Shelf_2", "Box_2"] = some ⟨"a"⟩ :=
    ⟨_, _, rfl, by decide +kernel⟩
  obtain ⟨hconsistent, hcheck⟩ := reachable_consistent (.apply hreachable hrun)
  exact ⟨change, t', hrun, hconsistent, hcheck, hpath⟩

end SharedScene.ArenaStore
