import SharedScene.Proofs.Engine.Turn

/-!
# A lease that a caller holds

A caller's lease is in the table beside those that requests take for themselves. A request takes
and releases leases under owners that it makes up, so it leaves a live lease of any other owner as
it is (`holds_answer`), and so does whatever else happens unless the owner of the lease gives it up
(`holds_perform`). As long as the lease is live, every command that needs its path or a path below
it is therefore refused as locked (`Engine.lease_stays_in_force`).

Callers choose the names of their owners freely, and those of requests are not reserved. The owner
of a request that has the same name gets past the lease, and its release drops it
(`Engine.lease_ends_with_request`); this is what the main theorem leaves out.
-/

namespace SharedScene

namespace Engine

variable {e : Engine} {act : Act} {lease : Lease}

/-- The owner of a lease gives it up: it releases, or acquires the path anew. -/
def Act.GivesUp (lease : Lease) (e : Engine) : Act → Prop
  | .acquire owner paths =>
    owner = lease.owner ∧ lease.path ∈ paths ∧ ∃ granted, (e.acquire owner paths).1 = .ok granted
  | .release owner => owner = lease.owner
  | _ => False

/-! ## One thing after the other -/

/-- A request leaves a live lease as it is, and every command of it finds the lease, unless it takes
the owner of the lease for its own. -/
theorem holds_answer {route : CommandRoute} {request : Json} {key : Option String}
    (h : e.scene.Holds lease) (hlive : e.now < lease.expiresAt)
    (hother : ∀ n, e.owners < n → n ≤ (e.answer route request key).2.owners →
      lease.owner ≠ Identifier.ofRequest n) :
    (∀ turn ∈ (Act.answer route request key).turns e, turn.scene.Holds lease) ∧
      (e.answer route request key).2.scene.Holds lease := by
  refine answer_keeps (P := (·.Holds lease)) (fun turn hmem hscene => ?_)
    (fun n hlow hhigh s hs => ?_) (fun _ hs => hs) (fun _ hs => hs) h
  · exact Turn.holds_left hscene hlive (ne_owner_of_mem_turns hother hmem)
  · exact LeaseTable.get?_release_of_ne hs (hother n hlow hhigh)

/-- A live lease stays whatever happens, unless its owner gives it up or a request takes the owner
for its own. -/
theorem holds_perform (h : e.scene.Holds lease) (hlive : e.now < lease.expiresAt)
    (hkept : ¬ act.GivesUp lease e)
    (hother : ∀ n, e.owners < n → n ≤ (e.perform act).owners →
      lease.owner ≠ Identifier.ofRequest n) : (e.perform act).scene.Holds lease := by
  cases act with
  | answer route request key => exact (holds_answer h hlive hother).2
  | acquire owner paths =>
    show (e.scene.leases.acquire owner paths e.now).2.leases.get? lease.path = some lease
    by_cases howner : owner = lease.owner
    · -- its own owner leaves the lease as it is when it asks for other paths, or in vain
      by_cases hpath : lease.path ∈ paths
      · cases hc : e.scene.leases.conflict? owner e.now paths with
        | some c =>
          rw [LeaseTable.acquire_of_some hc]
          exact h
        | none =>
          have hgranted := congrArg Prod.fst (LeaseTable.acquire_of_none hc)
          exact absurd ⟨howner, hpath, _, hgranted⟩ hkept
      · rw [LeaseTable.get?_acquire_of_not_mem hpath]
        exact h
    · exact LeaseTable.get?_acquire h (decide_eq_true hlive) (Ne.symm howner) paths
  | release owner => exact LeaseTable.get?_release_of_ne h fun heq => hkept heq.symm
  | readLeases => exact LeaseTable.get?_prune_of_isLive h (decide_eq_true hlive)
  | change message origin =>
    rcases perform_change e message origin with heq | ⟨outcome, store, _, heq⟩
    · rw [heq]
      exact h
    · rw [heq]
      exact h
  | resync | takePending | advance | setClock | setRuns => exact h

/-! ## Runs -/

/-- A live lease stays through a run. -/
theorem holds_before {acts : List Act} (h : e.scene.Holds lease)
    (hlive : ∀ i < acts.length, (e.before acts i).now < lease.expiresAt)
    (hkept : ∀ i (act : Act), acts[i]? = some act → ¬ act.GivesUp lease (e.before acts i))
    (hother : ∀ n, e.owners < n → n ≤ (e.run acts).owners →
      lease.owner ≠ Identifier.ofRequest n) {i : Nat} (hi : i ≤ acts.length) :
    (e.before acts i).scene.Holds lease := by
  induction i with
  | zero => exact h
  | succ i ih =>
    have hact : acts[i]? = some acts[i] := List.getElem?_eq_getElem hi
    have hnext := before_succ (e := e) hact
    have hafter := owners_before_le_run e acts (i + 1)
    rw [hnext] at hafter ⊢
    refine holds_perform (ih (Nat.le_of_succ_le hi)) (hlive i hi) (hkept i _ hact) ?_
    intro n hlow hhigh
    exact hother n ((owners_le_before e acts i).trans_lt hlow) (hhigh.trans hafter)

/-- A lease that a caller is granted stays as it is through any run, as long as it is live and its
owner neither releases nor acquires its path anew, and none of the owners that requests take from
then on has the name of its owner. And until then every command that needs its path, or a path below
it, is refused as locked, whether it comes alone or among others, at its place in the reply. -/
theorem lease_stays_in_force {owner : Owner} {paths : List Path} {granted : List Lease}
    {acts : List Act} (hgranted : (e.acquire owner paths).1 = .ok granted)
    (hlease : lease ∈ granted)
    (hlive : ∀ i < acts.length, ((e.acquire owner paths).2.before acts i).now < lease.expiresAt)
    (hkept : ∀ i (act : Act), acts[i]? = some act →
      ¬ act.GivesUp lease ((e.acquire owner paths).2.before acts i))
    (hother : ∀ n, e.owners < n → n ≤ ((e.acquire owner paths).2.run acts).owners →
      owner ≠ Identifier.ofRequest n) :
    let before := (e.acquire owner paths).2.before acts
    (∀ i ≤ acts.length, (before i).scene.Holds lease) ∧
    ∀ i route request key, acts[i]? = some (.answer route request key) →
      ∀ (j : Nat) (turn : Turn), ((Act.answer route request key).turns (before i))[j]? = some turn →
      ∀ command wanted, turn.scene.prepare turn.raw = .ok (command, wanted) →
      (∃ p ∈ wanted, lease.path <+: p) →
      ∃ c, ((before i).answer route request key).1.outcomes[j]? = some (.error c) ∧
        c.reason = .locked := by
  intro before
  obtain ⟨hput, hroot, rfl⟩ := LeaseTable.get?_of_mem_granted hgranted hlease
  have hfirst : (e.acquire lease.owner paths).2.scene.Holds lease := hput
  have hstays : ∀ i ≤ acts.length, (before i).scene.Holds lease :=
    fun i hi => holds_before hfirst hlive hkept hother hi
  refine ⟨hstays, ?_⟩
  intro i route request key hact j turn hturn command wanted hprepare hbelow
  obtain ⟨hi, _⟩ := List.getElem?_eq_some_iff.mp hact
  have hnext : before (i + 1) = (before i).perform (.answer route request key) := before_succ hact
  -- the owners that this request takes are among those of the run
  have hforeign : ∀ n, (before i).owners < n → n ≤ ((before i).answer route request key).2.owners →
      lease.owner ≠ Identifier.ofRequest n := by
    intro n hlow hhigh
    have hafter := owners_before_le_run (e.acquire lease.owner paths).2 acts (i + 1)
    have hbefore := owners_le_before (e.acquire lease.owner paths).2 acts i
    refine hother n (hbefore.trans_lt hlow) (hhigh.trans ?_)
    exact (congrArg Engine.owners hnext).ge.trans hafter
  have hmem : turn ∈ (Act.answer route request key).turns (before i) := List.mem_of_getElem? hturn
  have hscene := (holds_answer (hstays i hi.le) (hlive i hi) hforeign).1 turn hmem
  obtain ⟨c, hc, hreason⟩ := Turn.locked_of_holds hscene (hlive i hi)
    (ne_owner_of_mem_turns hforeign hmem) hroot hprepare hbelow
  exact ⟨c, (outcomes_answer hturn).trans (congrArg some hc), hreason⟩

/-- Somebody leases the place of a box, another caller asks for a box there, and the leases are
read. -/
def reserved : List Act := [.answer .command createBox none, .readLeases]

theorem lease_stays_in_force_reserved :
    let e := new {} (.stemmed "id") 0
    let start := (e.acquire ⟨"a"⟩ [["Box"]]).2
    (start.before reserved 2).scene.Holds ⟨⟨"a"⟩, ["Box"], 0, 15000⟩ ∧
      ∃ c, (start.answer .command createBox none).1.outcomes[0]? = some (.error c) ∧
        c.reason = .locked := by
  intro e start
  have hfree : e.scene.leases.conflict? ⟨"a"⟩ e.now [["Box"]] = none := by decide +kernel
  have hgranted : (e.acquire ⟨"a"⟩ [["Box"]]).1 = .ok [⟨⟨"a"⟩, ["Box"], 0, 15000⟩] :=
    congrArg Prod.fst (LeaseTable.acquire_of_none hfree)
  have hlive : ∀ i < reserved.length, (start.before reserved i).now < 15000 := by decide +kernel
  have hkept : ∀ i (act : Act), reserved[i]? = some act →
      ¬ act.GivesUp ⟨⟨"a"⟩, ["Box"], 0, 15000⟩ (start.before reserved i) := by
    intro i act hact
    have hmem := List.mem_of_getElem? hact
    simp only [reserved, List.mem_cons, List.not_mem_nil, or_false] at hmem
    rcases hmem with rfl | rfl <;> exact id
  have hother : ∀ n, e.owners < n → n ≤ (start.run reserved).owners →
      (⟨"a"⟩ : Owner) ≠ Identifier.ofRequest n := by
    intro n _ hhigh
    have hcount : (start.run reserved).owners = 1 := by decide +kernel
    have hn : n = 1 := by omega
    subst hn
    decide +kernel
  obtain ⟨hstays, hrefused⟩ :=
    lease_stays_in_force hgranted (List.mem_singleton_self _) hlive hkept hother
  have hprepare : start.scene.prepare (.obj [("op", .str "create"), ("parentPath", .arr []),
      ("className", .str "Part"), ("name", .str "Box")]) =
      .ok (.create [] "Part" "Box" .empty, [["Box"]]) := rfl
  exact ⟨hstays 2 (by decide), hrefused 0 .command createBox none rfl 0
    ⟨start.scene, _, start.ownerAt 0⟩ rfl _ _ hprepare ⟨_, List.mem_singleton_self _, by decide⟩⟩

/-- A caller may be the owner that the next request takes. Then that request is not refused, and
afterwards the lease is gone, long before its time is over. -/
theorem lease_ends_with_request :
    let e := new {} (.stemmed "id") 0
    let start := (e.acquire ⟨"cmd-1"⟩ [["Box"]]).2
    let after := start.answer .command createBox none
    Identifier.parse "cmd-1" = .ok (⟨"cmd-1"⟩ : Owner) ∧
      start.scene.Holds ⟨⟨"cmd-1"⟩, ["Box"], 0, 15000⟩ ∧
      after.1.status = 200 ∧ after.2.now < 15000 ∧
      ¬ after.2.scene.Holds ⟨⟨"cmd-1"⟩, ["Box"], 0, 15000⟩ := by
  intro e start after
  exact ⟨rfl, by decide +kernel, by decide +kernel, by decide +kernel, by decide +kernel⟩

end Engine

end SharedScene
