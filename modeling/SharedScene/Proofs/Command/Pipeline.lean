import SharedScene.Command.Pipeline
import SharedScene.Proofs.Scene.Reachable

/-!
# Commands tell what they do

Whatever a request asks for, and whatever becomes of it, the scene after it is well-formed and the
events that it adds lead there (`batch_leads`, `command_leads`). A command that fails leaves the
scene alone; a transaction that is taken back leaves the scene and the events of before.
-/

namespace SharedScene

open Store Success

/-- A command is carried out when its message is applied. -/
theorem Command.execute_eq_ok {c : Command} {s s' : Store} {output : CommandOutput}
    (h : c.execute s = .ok (output, s')) : ∃ m change, c.message s = .ok m ∧
      s.apply m .agent = .ok (.applied change, s') ∧ output = ⟨c.op, change⟩ := by
  simp only [execute, bind_eq_ok] at h
  obtain ⟨m, hm, h⟩ := h
  split at h
  · next change s'' ha =>
    obtain ⟨houtput, rfl⟩ := Prod.ext_iff.mp (pure_eq_ok.mp h)
    exact ⟨m, change, hm, ha, houtput.symm⟩
  · cases h
  · cases h

/-- A command that is carried out leads on. -/
theorem Command.execute_leads {c : Command} {s s' : Store} {output : CommandOutput}
    (h : s.forest.WellFormed) (hc : c.execute s = .ok (output, s')) : s.Leads s' := by
  obtain ⟨_, _, _, ha, _⟩ := execute_eq_ok hc
  exact .apply h ha

namespace LeasedScene

variable {s : LeasedScene} {raw : Json} {owner : Owner} {now : Instant}

/-- A request for the current revision, if for any, is not stale. -/
theorem staleConflict?_of_current {base : Option Nat}
    (h : ∀ r, base = some r → r = s.store.revision) : s.staleConflict? base = none := by
  cases base with
  | none => rfl
  | some r => exact if_pos (h r rfl)

/-- One command leads on. -/
theorem run_leads (h : s.store.forest.WellFormed) (raw : Json) (owner : Owner) (now : Instant) :
    s.store.Leads (s.run raw owner now).2.store := by
  unfold run
  split
  · exact .refl h
  · split
    · exact .refl h
    · split
      · next hc => exact Command.execute_leads h hc
      · exact .refl h

/-- The first of several commands, and the others after it unless it fails. -/
theorem runEach_cons (goesOn : Bool) (step : Step) (s : LeasedScene) (index : Nat) (raw : Json)
    (rest : List Json) :
    runEach goesOn step s index (raw :: rest) =
      let first := step s index raw
      if first.1.isOk || goesOn then
        let others := runEach goesOn step first.2 (index + 1) rest
        (⟨index, first.1⟩ :: others.1, others.2)
      else ([⟨index, first.1⟩], first.2) := rfl

/-- Commands one after the other lead on when each of them does. -/
theorem runEach_leads (step : Step) (hstep : ∀ (s : LeasedScene) index raw,
      s.store.forest.WellFormed → s.store.Leads (step s index raw).2.store)
    (goesOn : Bool) (h : s.store.forest.WellFormed) (index : Nat) (commands : List Json) :
    s.store.Leads (runEach goesOn step s index commands).2.store := by
  induction commands generalizing s index with
  | nil => exact .refl h
  | cons raw rest ih =>
    have hfirst := hstep s index raw h
    rw [runEach_cons]
    dsimp only
    split
    · exact hfirst.trans (ih hfirst.wellFormed (index + 1))
    · exact hfirst

/-- A transaction leads on, or back to where it began. -/
theorem runTransactional_leads (h : s.store.forest.WellFormed) (commands : List Json)
    (owner : Owner) (now : Instant) :
    s.store.Leads (s.runTransactional commands owner now).2.store := by
  have hrun := runEach_leads (fun s _ raw => s.run raw owner now)
    (fun s _ raw hs => run_leads hs raw owner now) false h 0 commands
  unfold runTransactional
  dsimp only
  split
  · exact hrun
  · exact hrun.restore h

/-- A request for several commands leads on. -/
theorem batch_leads (h : s.store.forest.WellFormed) (request : BatchRequest)
    (owners : Nat → Owner) (now : Instant) :
    s.store.Leads (s.batch request owners now).2.store := by
  have hsequential : ∀ goesOn,
      s.store.Leads (s.runSequential goesOn request.commands owners now).2.store := by
    intro goesOn
    exact runEach_leads (fun s i raw => s.runAlone raw (owners i) now)
      (fun s i raw hs => run_leads hs raw (owners i) now) goesOn h 0 request.commands
  unfold batch
  cases s.staleConflict? request.baseRevision with
  | some c => exact .refl h
  | none => cases request.mode with
    | transactional => exact runTransactional_leads h request.commands (owners 0) now
    | continueOnError => exact hsequential true
    | stopOnError => exact hsequential false

/-- A request for one command leads on. -/
theorem command_leads (h : s.store.forest.WellFormed) (request : CommandRequest)
    (owner : Owner) (now : Instant) :
    s.store.Leads (s.command request owner now).2.store := by
  unfold command
  cases s.staleConflict? request.baseRevision with
  | some c => exact .refl h
  | none => exact run_leads h request.command owner now

end LeasedScene

end SharedScene
