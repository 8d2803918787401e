import SharedScene.Proofs.ReplayCache

/-!
# What a cache is without its replies

Which replies are found, which go and which stay does not depend on what they say. So a cache has an
**outline**, a cache that knows only for which keys there are replies and since when
(`ReplayCache.outline`): asking and storing do to it what they do to the outline of the cache.
-/

namespace SharedScene

/-- A reply without what it says: only when it was stored. -/
def StoredReply.outline {β : Type} (r : StoredReply β) : StoredReply Unit := ⟨0, (), r.createdAt⟩

namespace ReplayCache

variable {β : Type}

/-- A cache without what its replies say. -/
def outline (c : ReplayCache β) : ReplayCache Unit :=
  ⟨c.entries.map fun e => (e.1, e.2.outline), c.ttl, c.capacity⟩

theorem find?_outline (c : ReplayCache β) (key : String) :
    SortedMap.find? key c.outline.entries =
      (SortedMap.find? key c.entries).map StoredReply.outline :=
  SortedMap.find?_map _ key c.entries

theorem isFresh_outline (c : ReplayCache β) (now : Instant) (r : StoredReply β) :
    c.outline.isFresh now r.outline = c.isFresh now r := rfl

theorem outline_erase (c : ReplayCache β) (key : String) :
    (c.erase key).outline = c.outline.erase key := by
  unfold erase outline
  rw [List.filter_map]
  rfl

/-- A question is answered, and leaves a cache, as its outline says. -/
theorem get_outline (c : ReplayCache β) (key : Option String) (now : Instant) :
    c.outline.get key now =
      ((c.get key now).1.map StoredReply.outline, (c.get key now).2.outline) := by
  unfold get
  cases usable? key with
  | none => rfl
  | some k =>
    dsimp only
    rw [find?_outline]
    cases SortedMap.find? k c.entries with
    | none => rfl
    | some r =>
      dsimp only [Option.map_some]
      rw [isFresh_outline, ← outline_erase]
      split <;> rfl

/-- What is stored leaves the same outline, whatever it says. -/
theorem outline_set (c : ReplayCache β) (key : Option String) (status : Nat) (body : β)
    (now : Instant) : (c.set key status body now).outline = c.outline.set key 0 () now := by
  unfold set
  cases usable? key with
  | none => rfl
  | some k =>
    unfold outline
    dsimp only
    rw [List.map_drop, List.map_append, List.filter_map, List.length_append, List.length_append,
      List.length_map]
    rfl

end ReplayCache

end SharedScene
