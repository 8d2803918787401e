import SharedScene.Instant
import SharedScene.Identifier
import SharedScene.Path

/-!
# Leases on paths

A lease gives its owner the instance at a path and everything below it for a while. It ends when
its owner releases it or its time is over; from that instant on it blocks nobody, even while it is
still in the table. The table forgets leases that are over when it is read.

Acquiring is all or nothing. The requested paths are looked at in their order, and for each the
paths from the top down to it: the first live lease of another owner found there is the
**conflict**. Without one every requested path is granted, the root apart, which is never leased.
An owner may acquire what it holds already; the new lease takes the place of the old one.

Instants go on for ever, and dates do not: what is said here of a lease can be told in dates only
when it is granted early enough (`LeaseTable.isDated`).
-/

namespace SharedScene

/-- The hold of an owner on a path. -/
structure Lease where
  owner : Owner
  path : Path
  acquiredAt : Instant
  expiresAt : Instant
deriving DecidableEq, Repr

/-- What stands in the way of an acquisition. -/
structure LeaseConflict where
  requestedPath : Path
  /-- The leased path: the requested one or one above it. -/
  path : Path
  owner : Owner
  expiresAt : Instant
deriving DecidableEq, Repr

/-- A refused acquisition, for diagnostics. -/
structure Contention where
  requester : Owner
  requestedPath : Path
  heldBy : Owner
  heldPath : Path
  time : Instant
deriving DecidableEq, Repr

/-- The leases by path, and what is known of refused acquisitions. -/
structure LeaseTable where
  leases : SortedMap Path Lease
  /-- How long a lease lasts, in milliseconds. -/
  ttl : Int
  contentionCount : Nat
  /-- The last refused acquisitions, oldest first. -/
  recent : List Contention

/-- Numbers about the live leases. -/
structure LeaseStats where
  count : Nat
  uniqueOwners : Nat
  minRemaining : Option Int
  maxRemaining : Option Int
  contentionCount : Nat
  recentContentions : List Contention

def Lease.isLive (l : Lease) (now : Instant) : Bool := decide (now < l.expiresAt)

namespace LeaseTable

/-- How long a lease lasts unless told otherwise. -/
def defaultTtl : Int := 15000

/-- How many refused acquisitions are remembered. -/
def recentLimit : Nat := 16

def empty (ttl : Int) : LeaseTable := ⟨.empty, ttl, 0, []⟩

/-- The topmost live lease of another owner at a path or above it. -/
def blocking? (t : LeaseTable) (owner : Owner) (now : Instant) (path : Path) : Option Lease :=
  path.ancestorsAndSelf.findSome? fun p =>
    (t.leases.get? p).filter fun l => l.isLive now && decide (l.owner ≠ owner)

/-- The first conflict of the requested paths. -/
def conflict? (t : LeaseTable) (owner : Owner) (now : Instant) (paths : List Path) :
    Option LeaseConflict :=
  paths.findSome? fun p =>
    (t.blocking? owner now p).map fun l => ⟨p, l.path, l.owner, l.expiresAt⟩

/-- The table with a refused acquisition remembered. -/
def recordContention (t : LeaseTable) (requester : Owner) (c : LeaseConflict) (now : Instant) :
    LeaseTable :=
  let recent := t.recent ++ [⟨requester, c.requestedPath, c.owner, c.path, now⟩]
  { t with contentionCount := t.contentionCount + 1
           recent := recent.drop (recent.length - recentLimit) }

/-- Whether a lease that is granted now ends at an instant that has a date. -/
def isDated (t : LeaseTable) (now : Instant) : Bool := Instant.hasDate (now + t.ttl)

/-- The leases that a request grants. -/
def grants (t : LeaseTable) (owner : Owner) (paths : List Path) (now : Instant) : List Lease :=
  (paths.filter fun p => !p.isEmpty).map fun p => ⟨owner, p, now, now + t.ttl⟩

/-- The table with leases put in, each in place of the one at its path. -/
def put (t : LeaseTable) (granted : List Lease) : LeaseTable :=
  { t with leases := granted.foldl (fun m l => m.insert l.path l) t.leases }

/-- Leases every requested path to the owner, or none of them. -/
def acquire (t : LeaseTable) (owner : Owner) (paths : List Path) (now : Instant) :
    Except LeaseConflict (List Lease) × LeaseTable :=
  match t.conflict? owner now paths with
  | some c => (.error c, t.recordContention owner c now)
  | none =>
    let granted := t.grants owner paths now
    (.ok granted, t.put granted)

/-- The table without the leases of an owner. -/
def release (t : LeaseTable) (owner : Owner) : LeaseTable :=
  { t with leases := t.leases.filter fun _ l => decide (l.owner ≠ owner) }

/-- How many leases of an owner are in the table, those that are over included. -/
def countOf (t : LeaseTable) (owner : Owner) : Nat :=
  t.leases.values.countP fun l => decide (l.owner = owner)

/-- The table without the leases that are over. -/
def prune (t : LeaseTable) (now : Instant) : LeaseTable :=
  { t with leases := t.leases.filter fun _ l => l.isLive now }

/-- The live leases in the order of their paths. -/
def active (t : LeaseTable) (now : Instant) : List Lease := (t.prune now).leases.values

def stats (t : LeaseTable) (now : Instant) : LeaseStats :=
  let live := t.active now
  let remaining := live.map fun l => l.expiresAt - now
  { count := live.length
    uniqueOwners := (live.map (·.owner)).eraseDups.length
    minRemaining := remaining.min?
    maxRemaining := remaining.max?
    contentionCount := t.contentionCount
    recentContentions := t.recent }

end LeaseTable

/-! ## In JSON -/

def Lease.toJson (l : Lease) : Json :=
  .obj [("owner", l.owner.toJson), ("path", Path.toJson l.path),
    ("acquiredAt", Instant.toJson l.acquiredAt), ("expiresAt", Instant.toJson l.expiresAt)]

def LeaseConflict.toJson (c : LeaseConflict) : Json :=
  .obj [("requestedPath", Path.toJson c.requestedPath), ("path", Path.toJson c.path),
    ("owner", c.owner.toJson), ("expiresAt", Instant.toJson c.expiresAt)]

def Contention.toJson (c : Contention) : Json :=
  .obj [("requester", c.requester.toJson), ("requestedPath", Path.toJson c.requestedPath),
    ("heldBy", c.heldBy.toJson), ("heldPath", Path.toJson c.heldPath),
    ("at", Instant.toJson c.time)]

def LeaseStats.toJson (s : LeaseStats) : Json :=
  .obj [("count", .ofNat s.count), ("uniqueOwners", .ofNat s.uniqueOwners),
    ("minRemainingMs", .ofOption .ofInt s.minRemaining),
    ("maxRemainingMs", .ofOption .ofInt s.maxRemaining),
    ("contentionCount", .ofNat s.contentionCount),
    ("recentContentions", .ofList Contention.toJson s.recentContentions)]

end SharedScene
