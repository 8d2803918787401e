import SharedScene.Proofs.Command.Turn
import SharedScene.Proofs.Scene.Outbox

/-!
# The same command elsewhere

A command looks at the store, but not at the events that nobody has taken yet; and it looks at the
leases that stand in the way of its owner, and at no other. So in two scenes that agree on these it
has the same outcome and does the same to the store, whoever its owner is (`run_congr`). What stands
in the way of an owner is the same before and after its own commands; and if an owner has no live
lease, what is live is the same before and after it takes and releases leases (`live?_runAlone`).
-/

namespace SharedScene

open Store

/-- What a command does does not depend on the events that nobody has taken yet. -/
theorem Command.execute_preceded (c : Command) (s : Store) (events : List Event) :
    c.execute (s.preceded events) = (c.execute s).map (Prod.map id (preceded events)) := by
  have hmessage : c.message (s.preceded events) = c.message s := by cases c <;> rfl
  unfold execute
  rw [hmessage]
  cases c.message s with
  | error conflict => rfl
  | ok message =>
    dsimp only [Bind.bind, Except.bind]
    rw [apply_preceded]
    rcases s.apply message .agent with e | ⟨_ | _, store⟩ <;> rfl

namespace LeasedScene

variable {b s : LeasedScene} {owner owner' : Owner} {now : Instant} {events : List Event}

/-- Reading and checking a command does not look at leases, nor at events. -/
theorem prepare_congr (hstore : b.store = s.store.preceded events) (raw : Json) :
    b.prepare raw = s.prepare raw := by
  obtain ⟨store, leases⟩ := b
  obtain rfl : store = _ := hstore
  rfl

/-- A command has the same outcome under another owner, and does the same to the store, where the
same leases stand in its way, whatever events nobody has taken yet. -/
theorem run_congr (hstore : b.store = s.store.preceded events)
    (hleases : ∀ p, b.leases.standing? owner now p = s.leases.standing? owner' now p)
    (raw : Json) : (b.run raw owner now).1 = (s.run raw owner' now).1 ∧
      (b.run raw owner now).2.store = (s.run raw owner' now).2.store.preceded events := by
  unfold run
  rw [prepare_congr hstore]
  cases s.prepare raw with
  | error c => exact ⟨rfl, hstore⟩
  | ok prepared =>
    obtain ⟨command, paths⟩ := prepared
    have hconflict := LeaseTable.conflict?_congr hleases paths
    dsimp only
    cases hfree : s.leases.conflict? owner' now paths with
    | some c =>
      rw [LeaseTable.acquire_of_some (hconflict.trans hfree), LeaseTable.acquire_of_some hfree,
        hstore]
      exact ⟨rfl, rfl⟩
    | none =>
      rw [LeaseTable.acquire_of_none (hconflict.trans hfree), LeaseTable.acquire_of_none hfree,
        hstore]
      dsimp only
      rw [Command.execute_preceded]
      rcases command.execute s.store with c | ⟨output, store⟩ <;> exact ⟨rfl, rfl⟩

/-- A command that runs alone leaves the same leases live, if its owner has none. -/
theorem live?_runAlone (h : s.leases.IsIdle owner now) (raw : Json) (p : Path) :
    (s.runAlone raw owner now).2.leases.live? now p = s.leases.live? now p := by
  show ((s.run raw owner now).2.leases.release owner).live? now p = _
  rw [LeaseTable.live?_release, standing?_run, LeaseTable.standing?_of_isIdle h]

end LeasedScene

end SharedScene
