import SharedScene.Instant

/-!
# Replies to replay

A caller that is not sure whether a request went through sends it again under the same key and gets
the first reply again. A reply is kept for a while (`ttl`) and until more than `capacity` newer ones
are there; of several replies the one that was stored longest ago goes first. Storing under a key
once more makes that reply the newest one. A blank key is no key: nothing is stored under it and
nothing is found.

Replies that are over are left out when something is stored, and when they are asked for.
-/

namespace SharedScene

/-- A reply with the instant at which it was stored. -/
structure StoredReply (β : Type) where
  status : Nat
  body : β
  createdAt : Instant

/-- Replies by key, the one stored longest ago first. -/
structure ReplayCache (β : Type) where
  entries : List (String × StoredReply β)
  /-- How long a reply is kept, in milliseconds. -/
  ttl : Int
  /-- How many replies are kept, one at least. -/
  capacity : Nat

namespace ReplayCache

variable {β : Type}

/-- How long a reply is kept unless told otherwise. -/
def defaultTtl : Int := 600000

/-- How many replies are kept unless told otherwise. -/
def defaultCapacity : Nat := 1024

def empty (ttl : Int) (capacity : Nat) : ReplayCache β := ⟨[], ttl, max capacity 1⟩

/-- A key that may be used. -/
def usable? (key : Option String) : Option String := key.filter fun k => !Text.isBlankText k

/-- Whether a reply is still kept at an instant. -/
def isFresh (c : ReplayCache β) (now : Instant) (r : StoredReply β) : Bool :=
  decide (now - r.createdAt < c.ttl)

def erase (c : ReplayCache β) (key : String) : ReplayCache β :=
  { c with entries := c.entries.filter fun e => e.1 != key }

/-- The reply under a key, and the cache after the question. -/
def get (c : ReplayCache β) (key : Option String) (now : Instant) :
    Option (StoredReply β) × ReplayCache β :=
  match usable? key with
  | none => (none, c)
  | some key =>
    match SortedMap.find? key c.entries with
    | none => (none, c)
    | some r => if c.isFresh now r then (some r, c) else (none, c.erase key)

/-- The cache with a reply stored under a key. -/
def set (c : ReplayCache β) (key : Option String) (status : Nat) (body : β) (now : Instant) :
    ReplayCache β :=
  match usable? key with
  | none => c
  | some key =>
    let fresh := c.entries.filter fun e => c.isFresh now e.2 && e.1 != key
    let entries := fresh ++ [(key, ⟨status, body, now⟩)]
    { c with entries := entries.drop (entries.length - c.capacity) }

end ReplayCache

end SharedScene
