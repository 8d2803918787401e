import Mathlib
import SharedScene.Proofs.SortedMap
import SharedScene.ReplayCache

/-!
# How long a reply stays

A reply that was stored stands behind the older ones and in front of the newer ones, of which there
is one for each key at most (`ReplayCache.Keeps`). Whoever asks for another key, or stores under
one, leaves it there, as long as it is fresh at that time and there is room for it and all newer
ones (`Keeps.get`, `Keeps.set`). And nothing is ever found that was not stored.
-/

namespace SharedScene.ReplayCache

variable {β : Type} {c : ReplayCache β} {key other : String} {r : StoredReply β} {now : Instant}

/-! ## What a question leaves -/

/-- A reply that is found stands in the cache, is fresh, and leaves the cache as it is. -/
theorem get_eq_some {key : Option String} {c' : ReplayCache β}
    (h : c.get key now = (some r, c')) :
    ∃ k, usable? key = some k ∧ SortedMap.find? k c.entries = some r ∧ c' = c := by
  unfold get at h
  split at h
  · cases h
  · next k hk =>
    split at h
    · cases h
    · next r' hfind =>
      split at h
      · cases h
        exact ⟨k, hk, hfind, rfl⟩
      · cases h

/-- A fresh reply is found. -/
theorem get_of_fresh (husable : usable? (some key) = some key)
    (hfind : SortedMap.find? key c.entries = some r) (hfresh : c.isFresh now r = true) :
    c.get (some key) now = (some r, c) := by
  unfold get
  rw [husable]
  dsimp only
  rw [hfind]
  exact if_pos hfresh

/-- A question leaves the cache as it is, or without the reply under its key, which is over. -/
theorem get_snd (c : ReplayCache β) (key : Option String) (now : Instant) :
    (c.get key now).2 = c ∨ ∃ k r, usable? key = some k ∧ SortedMap.find? k c.entries = some r ∧
      ¬ c.isFresh now r = true ∧ (c.get key now).2 = c.erase k := by
  unfold get
  split
  · exact .inl rfl
  · next k hk =>
    split
    · exact .inl rfl
    · next r hr =>
      split
      · exact .inl rfl
      · next hover => exact .inr ⟨k, r, hk, hr, hover, rfl⟩

theorem entries_get_subset (c : ReplayCache β) (key : Option String) (now : Instant) :
    (c.get key now).2.entries ⊆ c.entries := by
  rcases get_snd c key now with heq | ⟨k, r, -, -, -, heq⟩
  · rw [heq]
    exact List.Subset.refl _
  · rw [heq]
    exact List.filter_subset_self _

/-! ## What is stored -/

theorem mem_set {key : Option String} {status : Nat} {body : β} {entry : String × StoredReply β}
    (h : entry ∈ (c.set key status body now).entries) :
    entry ∈ c.entries ∨ usable? key = some entry.1 ∧ entry.2 = ⟨status, body, now⟩ := by
  unfold set at h
  split at h
  · exact .inl h
  · next k hk =>
    rcases List.mem_append.mp (List.mem_of_mem_drop h) with h | h
    · exact .inl (List.mem_of_mem_filter h)
    · obtain rfl := List.mem_singleton.mp h
      exact .inr ⟨hk, rfl⟩

/-- The limits of a cache never change. -/
theorem limits_get (c : ReplayCache β) (key : Option String) (now : Instant) :
    (c.get key now).2.ttl = c.ttl ∧ (c.get key now).2.capacity = c.capacity := by
  rcases get_snd c key now with heq | ⟨k, r, -, -, -, heq⟩
  · rw [heq]
    exact ⟨rfl, rfl⟩
  · rw [heq]
    exact ⟨rfl, rfl⟩

theorem limits_set (c : ReplayCache β) (key : Option String) (status : Nat) (body : β)
    (now : Instant) : (c.set key status body now).ttl = c.ttl ∧
      (c.set key status body now).capacity = c.capacity := by
  unfold set
  split
  · exact ⟨rfl, rfl⟩
  · exact ⟨rfl, rfl⟩

/-! ## A reply in its place -/

/-- A reply stands under its key, no older one does, and behind it stands at most one reply for each
of some other keys. -/
def Keeps (c : ReplayCache β) (key : String) (r : StoredReply β) (others : Finset String) : Prop :=
  ∃ older newer, c.entries = older ++ (key, r) :: newer ∧ key ∉ older.map Prod.fst ∧
    (newer.map Prod.fst).Nodup ∧ ∀ k ∈ newer.map Prod.fst, k ∈ others

namespace Keeps

variable {others : Finset String}

theorem find? (h : c.Keeps key r others) : SortedMap.find? key c.entries = some r := by
  obtain ⟨older, newer, hentries, hnot, _⟩ := h
  rw [hentries]
  clear hentries
  induction older with
  | nil => exact if_pos rfl
  | cons e older ih =>
    rw [List.map_cons, List.mem_cons, not_or] at hnot
    exact (if_neg (Ne.symm hnot.1)).trans (ih hnot.2)

/-- A reply that has just been stored, when there is room for one at least. -/
theorem of_set (husable : usable? (some key) = some key) (hcapacity : 0 < c.capacity)
    (status : Nat) (body : β) :
    (c.set (some key) status body now).Keeps key ⟨status, body, now⟩ others := by
  unfold set
  rw [husable]
  dsimp only
  rw [List.drop_append_of_le_length (by rw [List.length_append, List.length_singleton]; omega)]
  refine ⟨_, [], rfl, fun hmem => ?_, List.nodup_nil, fun k hk => absurd hk List.not_mem_nil⟩
  obtain ⟨e, he, heq⟩ := List.mem_map.mp hmem
  have hpasses := List.of_mem_filter (List.mem_of_mem_drop he)
  rw [Bool.and_eq_true, bne_iff_ne] at hpasses
  exact hpasses.2 heq

/-- Filtering leaves a reply that passes. -/
theorem filter (h : c.Keeps key r others) {p : String × StoredReply β → Bool}
    (hp : p (key, r) = true) : Keeps { c with entries := c.entries.filter p } key r others := by
  obtain ⟨older, newer, hentries, hnot, hnodup, hothers⟩ := h
  refine ⟨older.filter p, newer.filter p, ?_, fun hmem => hnot ?_, ?_, fun k hk => hothers k ?_⟩
  · show c.entries.filter p = _
    rw [hentries, List.filter_append, List.filter_cons_of_pos hp]
  · exact (List.filter_sublist.map Prod.fst).subset hmem
  · exact hnodup.sublist (List.filter_sublist.map Prod.fst)
  · exact (List.filter_sublist.map Prod.fst).subset hk

/-- So does a newer reply under another key that is not there yet. -/
theorem append (h : c.Keeps key r others) (hmem : other ∈ others)
    (hnew : other ∉ c.entries.map Prod.fst) (stored : StoredReply β) :
    Keeps { c with entries := c.entries ++ [(other, stored)] } key r others := by
  obtain ⟨older, newer, hentries, hnot, hnodup, hothers⟩ := h
  rw [hentries, List.map_append, List.map_cons, List.mem_append, List.mem_cons, not_or,
    not_or] at hnew
  have hkeys : (newer ++ [(other, stored)]).map Prod.fst = newer.map Prod.fst ++ [other] :=
    List.map_append
  refine ⟨older, newer ++ [(other, stored)], ?_, hnot, ?_, fun k hk => ?_⟩
  · show c.entries ++ _ = _
    rw [hentries, List.append_assoc, List.cons_append]
  · rw [hkeys]
    exact hnodup.append (List.nodup_singleton other) (List.disjoint_singleton.mpr hnew.2.2)
  · rw [hkeys, List.mem_append, List.mem_singleton] at hk
    rcases hk with hk | rfl
    · exact hothers k hk
    · exact hmem

/-- Whoever drops the oldest replies does not reach this one: the newer ones have distinct keys, so
they are no more than the other keys. -/
theorem drop (h : c.Keeps key r others) (hroom : others.card < c.capacity) :
    Keeps { c with entries := c.entries.drop (c.entries.length - c.capacity) } key r others := by
  obtain ⟨older, newer, hentries, hnot, hnodup, hothers⟩ := h
  have hcard := Finset.card_le_card (s := (newer.map Prod.fst).toFinset) (t := others)
    fun k hk => hothers k (List.mem_toFinset.mp hk)
  rw [List.toFinset_card_of_nodup hnodup, List.length_map] at hcard
  have hlength : c.entries.length = older.length + (newer.length + 1) := by
    rw [hentries, List.length_append, List.length_cons]
  have hle : c.entries.length - c.capacity ≤ older.length := by omega
  refine ⟨older.drop (c.entries.length - c.capacity), newer, ?_, fun hmem => hnot ?_, hnodup,
    hothers⟩
  · show c.entries.drop _ = _
    generalize c.entries.length - c.capacity = n at hle
    rw [hentries]
    exact List.drop_append_of_le_length hle
  · exact ((List.drop_sublist _ _).map Prod.fst).subset hmem

/-- A question for another key leaves the reply where it is. -/
theorem get (h : c.Keeps key r others) (hne : key ≠ other) (now : Instant) :
    (c.get (some other) now).2.Keeps key r others := by
  rcases get_snd c (some other) now with heq | ⟨k, r, hk, -, -, heq⟩
  · rw [heq]
    exact h
  · obtain rfl : k = other := (Option.some.inj (Option.eq_some_of_filter_eq_some hk)).symm
    rw [heq]
    exact h.filter (bne_iff_ne.mpr hne)

/-- A reply that is fresh stays when another one is stored, if there is room for it and one reply
for each of the other keys. -/
theorem set (h : c.Keeps key r others) (hne : key ≠ other) (hmem : other ∈ others)
    (hfresh : c.isFresh now r = true) (hroom : others.card < c.capacity) (status : Nat) (body : β) :
    (c.set (some other) status body now).Keeps key r others := by
  unfold ReplayCache.set
  split
  · exact h
  · next k hk =>
    obtain rfl : k = other := (Option.some.inj (Option.eq_some_of_filter_eq_some hk)).symm
    have hpasses : (c.isFresh now r && key != k) = true := by
      rw [Bool.and_eq_true, bne_iff_ne]
      exact ⟨hfresh, hne⟩
    refine ((h.filter hpasses).append hmem (fun hkey => ?_) ⟨status, body, now⟩).drop hroom
    obtain ⟨e, he, heq⟩ := List.mem_map.mp hkey
    have hleft := List.of_mem_filter he
    rw [Bool.and_eq_true, bne_iff_ne] at hleft
    exact hleft.2 heq

end Keeps

/-- A reply that has just been stored is the newest. -/
theorem getLast?_set (husable : usable? (some key) = some key) (hcapacity : 0 < c.capacity)
    (status : Nat) (body : β) :
    (c.set (some key) status body now).entries.getLast? = some (key, ⟨status, body, now⟩) := by
  have hkeeps : (c.set (some key) status body now).Keeps key ⟨status, body, now⟩ ∅ :=
    .of_set husable hcapacity status body
  obtain ⟨older, newer, hentries, -, -, hothers⟩ := hkeeps
  have hnone : newer.map Prod.fst = [] :=
    List.eq_nil_iff_forall_not_mem.mpr fun k hk => Finset.notMem_empty k (hothers k hk)
  rw [hentries, List.map_eq_nil_iff.mp hnone, List.getLast?_concat]

end SharedScene.ReplayCache
