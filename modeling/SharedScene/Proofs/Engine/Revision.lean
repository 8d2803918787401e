import SharedScene.Proofs.Engine.Run

/-!
# A revision names one scene

In a run the revision never goes back, and it stands for one forest: whenever it is the same, so are
the instances, their names, parents and properties, and the order of siblings. A transaction that is
taken back returns to a revision, but to its forest as well.

A request that names a revision has an effect at that revision only. So of all the requests that
name one revision at most one changes the scene, and the scene that it changes is the one that its
caller has seen (`Engine.revision_names_scene`).
-/

namespace SharedScene

/-- The revision that a request is made for: none when it names none or cannot be read. -/
def CommandRoute.baseRevision? (route : CommandRoute) (request : Json) : Option Nat :=
  match route with
  | .command =>
    match CommandRequest.ofJson request with
    | .ok request => request.baseRevision
    | .error _ => none
  | .commands =>
    match BatchRequest.ofJson request with
    | .ok request => request.baseRevision
    | .error _ => none

namespace LeasedScene

variable {s : LeasedScene} {base : Nat}

/-- A request for another revision is refused as stale. -/
theorem staleConflict?_of_ne (hne : base ≠ s.store.revision) :
    s.staleConflict? (some base) = some (.stale base s.store.revision) :=
  if_neg hne

theorem command_of_stale {request : CommandRequest} (hbase : request.baseRevision = some base)
    (hne : base ≠ s.store.revision) (owner : Owner) (now : Instant) :
    s.command request owner now =
      (⟨.error (.stale base s.store.revision), s.store.revision⟩, s) := by
  unfold command
  rw [hbase, staleConflict?_of_ne hne]

theorem batch_of_stale {request : BatchRequest} (hbase : request.baseRevision = some base)
    (hne : base ≠ s.store.revision) (owners : Nat → Owner) (now : Instant) :
    s.batch request owners now =
      (⟨request.transactional, request.commands.length,
        .rejected (.stale base s.store.revision), s.store.revision⟩, s) := by
  unfold batch
  rw [hbase, staleConflict?_of_ne hne]

end LeasedScene

namespace Engine

open LeasedScene

variable {e : Engine} {act : Act} {base : Nat}

namespace Act

/-- The revision that a request is made for. -/
def baseRevision? : Act → Option Nat
  | .answer route request _ => route.baseRevision? request
  | _ => none

/-- A request that an engine carries out, and does not answer with a reply that it keeps. -/
def IsExecuted (e : Engine) : Act → Prop
  | .answer route _ key => (e.replies.get (route.scopedKey key) e.now).1 = none
  | _ => True

/-- What leaves an engine with another forest. -/
def ChangesScene (act : Act) (e : Engine) : Prop :=
  (e.perform act).scene.store.forest ≠ e.scene.store.forest

end Act

/-- The engine right before the `i`-th of several things that happen, counted from zero. -/
def before (e : Engine) (acts : List Act) (i : Nat) : Engine := e.run (acts.take i)

/-! ## No revision is used twice -/

/-- Whatever happens to a settled engine, no revision is used twice. -/
theorem Settled.perform_grows (h : e.Settled) (act : Act) :
    e.scene.store.Grows (e.perform act).scene.store := by
  cases act with
  | answer route request key =>
    show e.scene.store.Grows (e.answer route request key).2.scene.store
    rcases hkept : e.replies.get (route.scopedKey key) e.now with ⟨kept | kept, replies⟩
    · rw [answer_of_executed request hkept]
      have hleads := (runRoute_leads (e := { e with replies }) h.wellFormed route request).1
      exact ⟨hleads.grows.revision, hleads.grows.forest⟩
    · rw [answer_of_kept request hkept]
      exact .refl _
  | change message origin =>
    rcases perform_change e message origin with heq | ⟨outcome, store, ha, heq⟩
    · rw [heq]
      exact .refl _
    · rw [heq]
      have hgrows := (Store.Leads.apply h.wellFormed ha).grows
      exact ⟨hgrows.revision, hgrows.forest⟩
  | resync reports =>
    have hgrows := Store.grows_replaceAll e.scene.store reports
    exact ⟨hgrows.revision, hgrows.forest⟩
  | takePending => exact ⟨Nat.le_refl _, fun _ => rfl⟩
  | acquire owner paths => exact .refl _
  | release owner => exact .refl _
  | readLeases => exact .refl _
  | advance ms => exact .refl _
  | setClock ms => exact .refl _
  | setRuns runs => exact .refl _

/-- So does a run. -/
theorem Settled.run_grows (h : e.Settled) (acts : List Act) :
    e.scene.store.Grows (e.run acts).scene.store := by
  induction acts generalizing e with
  | nil => exact .refl _
  | cons act acts ih => exact (h.perform_grows act).trans (ih (h.perform act).1)

theorem Settled.before_grows (h : e.Settled) (acts : List Act) {i j : Nat} (hij : i ≤ j) :
    (e.before acts i).scene.store.Grows (e.before acts j).scene.store := by
  obtain ⟨k, rfl⟩ := Nat.exists_eq_add_of_le hij
  have hsplit : e.before acts (i + k) = (e.before acts i).run ((acts.drop i).take k) := by
    unfold before Engine.run
    rw [List.take_add, List.foldl_append]
  rw [hsplit]
  exact (h.run (acts.take i)).1.run_grows _

theorem before_succ {acts : List Act} {i : Nat} (hact : acts[i]? = some act) :
    e.before acts (i + 1) = (e.before acts i).perform act := by
  unfold before Engine.run
  rw [List.take_add_one, hact, Option.toList_some, List.foldl_append]
  rfl

/-! ## Requests made for a revision -/

/-- A request that is made for another revision leaves the scene as it is. -/
theorem runRoute_of_stale {route : CommandRoute} {request : Json}
    (hbase : route.baseRevision? request = some base) (hne : base ≠ e.revision) :
    (e.runRoute route request).2.scene = e.scene := by
  cases route with
  | command =>
    show (e.runCommand request).2.scene = e.scene
    unfold runCommand
    simp only [CommandRoute.baseRevision?] at hbase
    split at hbase
    · next r hread =>
      rw [hread]
      dsimp only
      rw [command_of_stale hbase hne]
    · cases hbase
  | commands =>
    show (e.runBatch request).2.scene = e.scene
    unfold runBatch
    simp only [CommandRoute.baseRevision?] at hbase
    split at hbase
    · next r hread =>
      rw [hread]
      dsimp only
      rw [batch_of_stale hbase hne]
    · cases hbase

/-- A request that is made for a revision and changes the scene is carried out, at that revision. -/
theorem executed_of_changesScene (hbase : act.baseRevision? = some base)
    (hchanges : act.ChangesScene e) : act.IsExecuted e ∧ e.revision = base := by
  cases act with
  | answer route request key =>
    rcases hkept : e.replies.get (route.scopedKey key) e.now with ⟨kept | kept, replies⟩
    · refine ⟨congrArg Prod.fst hkept, ?_⟩
      by_contra hne
      refine hchanges ?_
      show (e.answer route request key).2.scene.store.forest = _
      rw [answer_of_executed request hkept]
      show (Engine.runRoute { e with replies } route request).2.scene.store.forest = _
      rw [runRoute_of_stale (e := { e with replies }) hbase (Ne.symm hne)]
    · refine absurd ?_ hchanges
      show (e.answer route request key).2.scene.store.forest = _
      rw [answer_of_kept request hkept]
  | change | resync | takePending | acquire | release | readLeases | advance | setClock
  | setRuns => cases hbase

/-- A settled engine that changes its scene gets a higher revision. -/
theorem Settled.revision_lt (h : e.Settled) (hchanges : act.ChangesScene e) :
    e.revision < (e.perform act).revision := by
  have hgrows := h.perform_grows act
  refine Nat.lt_of_le_of_ne hgrows.revision fun heq => ?_
  exact hchanges (hgrows.forest heq.symm)

/-- In every run of a new engine the revision never goes back, and at equal revisions the forests
are equal. Of the requests that are made for one revision at most one changes the scene; it is
carried out and not answered with a reply of before, at that revision, so at the one forest that
ever had it. -/
theorem revision_names_scene (config : Config) (ids : IdSupply) (clock : Int) (acts : List Act) :
    let before := (new config ids clock).before acts
    (∀ i j, i ≤ j → (before i).revision ≤ (before j).revision) ∧
    (∀ i j, (before i).revision = (before j).revision →
      (before i).scene.store.forest = (before j).scene.store.forest) ∧
    (∀ base i j (first second : Act), acts[i]? = some first → acts[j]? = some second →
      first.baseRevision? = some base → second.baseRevision? = some base →
      first.ChangesScene (before i) → second.ChangesScene (before j) → i = j) ∧
    (∀ base i (act : Act), acts[i]? = some act → act.baseRevision? = some base →
      act.ChangesScene (before i) →
      act.IsExecuted (before i) ∧ (before i).revision = base ∧
      ∀ k, (before k).revision = base →
        (before k).scene.store.forest = (before i).scene.store.forest) := by
  intro before
  have hnew := settled_new config ids clock
  have hgrows : ∀ i j, i ≤ j → (before i).scene.store.Grows (before j).scene.store :=
    fun i j hij => hnew.before_grows acts hij
  have hforest : ∀ i j, (before i).revision = (before j).revision →
      (before i).scene.store.forest = (before j).scene.store.forest := by
    intro i j heq
    rcases Nat.le_total i j with hij | hji
    · exact ((hgrows i j hij).forest heq.symm).symm
    · exact (hgrows j i hji).forest heq
  -- The earlier of two changes leaves no chance to the later one: the revision is gone.
  have hlater : ∀ base i j (first second : Act), acts[i]? = some first →
      first.baseRevision? = some base → first.ChangesScene (before i) →
      second.baseRevision? = some base → second.ChangesScene (before j) → ¬ i < j := by
    intro base i j first second hfirst hbase hchanges hbase' hchanges' hij
    have hi : (before i).revision = base := (executed_of_changesScene hbase hchanges).2
    have hj : (before j).revision = base := (executed_of_changesScene hbase' hchanges').2
    have hrises : (before i).revision < (before (i + 1)).revision := by
      rw [show before (i + 1) = (before i).perform first from before_succ hfirst]
      exact (hnew.run (acts.take i)).1.revision_lt hchanges
    have hstays : (before (i + 1)).revision ≤ (before j).revision := (hgrows (i + 1) j hij).revision
    omega
  refine ⟨fun i j hij => (hgrows i j hij).revision, hforest, ?_, ?_⟩
  · intro base i j first second hfirst hsecond hbase hbase' hchanges hchanges'
    rcases Nat.lt_trichotomy i j with hij | heq | hji
    · exact absurd hij (hlater base i j first second hfirst hbase hchanges hbase' hchanges')
    · exact heq
    · exact absurd hji (hlater base j i second first hsecond hbase' hchanges' hbase hchanges)
  · intro base i act hact hbase hchanges
    obtain ⟨hexecuted, hrevision⟩ := executed_of_changesScene hbase hchanges
    exact ⟨hexecuted, hrevision, fun k hk => hforest k i (hk.trans hrevision.symm)⟩

/-- A request to create a box, made for the first revision. -/
def createBox : Json :=
  (CommandRequest.mk (some 0) (.obj [("op", .str "create"), ("parentPath", .arr []),
    ("className", .str "Part"), ("name", .str "Box")])).toJson

/-- A transaction that deletes the box and then what is not there, made for the second revision. -/
def deleteBoxAndMore : Json :=
  (BatchRequest.mk (some 1) true false
    [.obj [("op", .str "delete"), ("targetPath", .arr [.str "Box"])],
      .obj [("op", .str "delete"), ("targetPath", .arr [.str "Nowhere"])]]).toJson

/-- Two callers who want a box at once, and a transaction that is taken back. -/
def racing : List Act :=
  [.answer .command createBox none, .answer .command createBox none,
    .answer .commands deleteBoxAndMore none]

/-- The first of the two gets the box, and the second one nothing; after the transaction the
revision and the forest are those of before. -/
theorem revision_names_scene_racing :
    let before := (new {} (.stemmed "id") 0).before racing
    (Act.answer .command createBox none).ChangesScene (before 0) ∧
      (Act.answer .command createBox none).IsExecuted (before 0) ∧
      ¬ (Act.answer .command createBox none).ChangesScene (before 1) ∧
      (before 1).revision = 1 ∧ (before 3).revision = 1 ∧
      (before 1).scene.store.forest = (before 3).scene.store.forest ∧
      (before 0).revision ≤ (before 3).revision := by
  intro before
  have hbase : (Act.answer .command createBox none).baseRevision? = some 0 := rfl
  have hchanges : (Act.answer .command createBox none).ChangesScene (before 0) := by
    intro heq
    have hsize := congrArg Forest.size heq
    revert hsize
    decide +kernel
  have hfirst : (before 1).revision = 1 := by decide +kernel
  have hthird : (before 3).revision = 1 := by decide +kernel
  obtain ⟨hmono, hsame, hone, hexecuted⟩ := revision_names_scene {} (.stemmed "id") 0 racing
  refine ⟨hchanges, (hexecuted 0 0 _ rfl hbase hchanges).1, fun hagain => ?_, hfirst, hthird,
    hsame 1 3 (hfirst.trans hthird.symm), hmono 0 3 (by decide)⟩
  exact absurd (hone 0 0 1 _ _ rfl rfl hbase hbase hchanges hagain) (by decide)

end Engine

end SharedScene
