import SharedScene.Proofs.Command.Frame
import SharedScene.Proofs.Engine.Lease

/-!
# What a lease protects

As long as a lease is live, no command under another owner gives the instance at its path, or one
below, another parent, another name, another class or other properties. Two things a lease does not
do: it does not keep others from the instances above its path, and it stays with the path and not
with the instance. So a delete above takes the leased instance along
(`Engine.leased_box_goes_with_shelf`), and when an instance above is renamed or moved, the leased
one stands elsewhere from then on, where nobody leases it. Without such a command the instance and
all below it are after a request what and where they were before (`Engine.leased_subtree_stays`).
-/

namespace SharedScene.Engine

open Forest LeasedScene

variable {e : Engine} {route : CommandRoute} {request : Json} {key : Option String} {lease : Lease}

/-- A lease is in the table of a well-formed scene, and the instances that a forest has at its path
or below it are there, with the same rows and paths. -/
structure Keeps (f : Forest) (lease : Lease) (s : LeasedScene) : Prop where
  holds : s.Holds lease
  wellFormed : s.store.forest.WellFormed
  rows : ∀ id q, pathOf? id f = some q → lease.path <+: q →
    s.store.forest.placed? id = f.placed? id
  paths : ∀ id q, pathOf? id f = some q → lease.path <+: q →
    pathOf? id s.store.forest = some q

/-- A command keeps what is at the path of somebody else's live lease and below, unless it uproots
it. -/
theorem Keeps.left {f : Forest} {turn : Turn} {now : Instant} (h : Keeps f lease turn.scene)
    (hlive : now < lease.expiresAt) (hother : lease.owner ≠ turn.owner) (hroot : lease.path ≠ [])
    (hsafe : ¬ turn.Uproots lease.path) : Keeps f lease (turn.left now) where
  holds := Turn.holds_left h.holds hlive hother
  wellFormed := (run_leads h.wellFormed turn.raw turn.owner now).wellFormed
  rows id q hq hbelow := by
    rw [← h.rows id q hq hbelow]
    exact Turn.placed?_left h.holds hlive hother hroot h.wellFormed
      (fun hdelete => hsafe hdelete.uproots) (h.paths id q hq hbelow) hbelow
  paths id q hq hbelow :=
    Turn.pathOf?_left h.holds hlive hother hroot h.wellFormed hsafe (h.paths id q hq hbelow) hbelow

/-- An engine with a box on a shelf, where somebody has leased the box. -/
def furnished : Engine :=
  (new {} (.stemmed "id") 0).run [
    .resync [⟨⟨"s"⟩, "Folder", "Shelf", none, .empty⟩, ⟨⟨"b"⟩, "Part", "Box", some ⟨"s"⟩, .empty⟩],
    .acquire ⟨"packer"⟩ [["Shelf", "Box"]]]

end SharedScene.Engine
