import SharedScene.Lease
import SharedScene.Proofs.SortedMap

/-!
# Who holds a path

A live lease **stands in the way** of every owner but its own (`LeaseTable.standing?`), and an
acquisition asks for nothing else: it is refused exactly when some lease stands in its way at a
wanted path or above it (`conflict?_eq_none_iff`). What it grants it puts where nothing stands in
its way, so it leaves whatever does (`standing?_acquire`), and so do the release of another owner
and the forgetting of leases that are over.

A lease that was granted is therefore its owner's alone until it is over or given up: it stays as it
is whatever others do, and nobody else gets its path or one below it
(`LeaseTable.lease_is_exclusive`). Nothing is said here of the paths above it; those may be leased
to others.
-/

namespace SharedScene

/-- The paths down to a path are those at it or above it, the root apart. -/
theorem Path.mem_ancestorsAndSelf {p q : Path} : p ∈ q.ancestorsAndSelf ↔ p ≠ [] ∧ p <+: q := by
  induction q generalizing p with
  | nil => simp [ancestorsAndSelf]
  | cons n q ih =>
    cases p with
    | nil => simp [ancestorsAndSelf]
    | cons m p =>
      simp only [ancestorsAndSelf, List.mem_cons, List.mem_map, List.cons_prefix_cons,
        ne_eq, reduceCtorEq, not_false_eq_true, true_and]
      constructor
      · rintro (h | ⟨p', hp', h⟩)
        · cases h
          exact ⟨rfl, List.nil_prefix⟩
        · cases h
          exact ⟨rfl, (ih.mp hp').2⟩
      · rintro ⟨rfl, hpq⟩
        cases p with
        | nil => exact .inl rfl
        | cons k p => exact .inr ⟨_, ih.mpr ⟨List.cons_ne_nil _ _, hpq⟩, rfl⟩

namespace LeaseTable

variable {t : LeaseTable} {owner : Owner} {now : Instant} {p : Path} {paths : List Path}
  {lease : Lease}

/-- The lease at a path, when it is live and another owner's. -/
def standing? (t : LeaseTable) (owner : Owner) (now : Instant) (p : Path) : Option Lease :=
  (t.leases.get? p).filter fun l => l.isLive now && decide (l.owner ≠ owner)

theorem standing?_eq_some_iff : t.standing? owner now p = some lease ↔
    t.leases.get? p = some lease ∧ lease.isLive now = true ∧ lease.owner ≠ owner := by
  unfold standing?
  rw [Option.filter_eq_some_iff, Bool.and_eq_true, decide_eq_true_iff]

/-! ## Acquiring -/

/-- Nothing blocks the way to a path when nothing stands at it or above it. -/
theorem blocking?_eq_none_iff {q : Path} : t.blocking? owner now q = none ↔
    ∀ p, p ≠ [] → p <+: q → t.standing? owner now p = none := by
  unfold blocking?
  rw [List.findSome?_eq_none_iff]
  exact ⟨fun h p hp hpq => h p (Path.mem_ancestorsAndSelf.mpr ⟨hp, hpq⟩),
    fun h p hp => h p (Path.mem_ancestorsAndSelf.mp hp).1 (Path.mem_ancestorsAndSelf.mp hp).2⟩

/-- Paths can be acquired when nothing stands at any of them or above one. -/
theorem conflict?_eq_none_iff : t.conflict? owner now paths = none ↔
    ∀ q ∈ paths, ∀ p, p ≠ [] → p <+: q → t.standing? owner now p = none := by
  unfold conflict?
  rw [List.findSome?_eq_none_iff]
  exact forall₂_congr fun q _ => Option.map_eq_none_iff.trans blocking?_eq_none_iff

theorem acquire_of_none (h : t.conflict? owner now paths = none) : t.acquire owner paths now =
    (.ok (t.grants owner paths now), t.put (t.grants owner paths now)) := by
  unfold acquire
  rw [h]

/-- What is granted can be told in dates when it is granted early enough, and else not at all. -/
theorem hasDate_of_mem_grants (h : lease ∈ t.grants owner paths now) :
    Instant.hasDate lease.expiresAt = t.isDated now := by
  obtain ⟨_, _, rfl⟩ := List.mem_map.mp h
  rfl

theorem acquire_of_some {c : LeaseConflict} (h : t.conflict? owner now paths = some c) :
    t.acquire owner paths now = (.error c, t.recordContention owner c now) := by
  unfold acquire
  rw [h]

/-- A path whose lease stands in the way is refused, and so is every path below it. -/
theorem acquire_of_standing (hp : p ≠ []) (h : t.standing? owner now p = some lease)
    (hbelow : ∃ q ∈ paths, p <+: q) : ∃ c, (t.acquire owner paths now).1 = .error c ∧
      (t.acquire owner paths now).2.leases = t.leases := by
  obtain ⟨q, hq, hpq⟩ := hbelow
  cases hc : t.conflict? owner now paths with
  | none =>
    rw [conflict?_eq_none_iff.mp hc q hq p hp hpq] at h
    cases h
  | some c =>
    rw [acquire_of_some hc]
    exact ⟨c, rfl, rfl⟩

/-- Leases that differ in their path alone, put in under it. -/
theorem get?_foldl_insert {grant : Path → Lease} (hgrant : ∀ q, (grant q).path = q)
    (m : SortedMap Path Lease) (paths : List Path) (p : Path) :
    ((paths.map grant).foldl (fun m l => m.insert l.path l) m).get? p =
      if p ∈ paths then some (grant p) else m.get? p := by
  induction paths generalizing m with
  | nil => rfl
  | cons q paths ih =>
    rw [List.map_cons, List.foldl_cons, ih, SortedMap.get?_insert, hgrant]
    by_cases hrest : p ∈ paths
    · rw [if_pos hrest, if_pos (List.mem_cons_of_mem _ hrest)]
    · rw [if_neg hrest]
      by_cases heq : p = q
      · rw [if_pos heq, if_pos (List.mem_cons.mpr (.inl heq)), heq]
      · rw [if_neg heq, if_neg (List.not_mem_cons_of_ne_of_not_mem heq hrest)]

/-- A granted path has the new lease, every other one keeps its own. -/
theorem get?_put_grants (t : LeaseTable) (owner : Owner) (paths : List Path) (now : Instant)
    (p : Path) : (t.put (t.grants owner paths now)).leases.get? p =
      if p ∈ paths ∧ p ≠ [] then some ⟨owner, p, now, now + t.ttl⟩ else t.leases.get? p := by
  show SortedMap.get? (List.foldl _ _ (List.map _ _)) p = _
  rw [get?_foldl_insert fun _ => rfl]
  have hmem : p ∈ paths.filter (fun q => !q.isEmpty) ↔ p ∈ paths ∧ p ≠ [] := by
    rw [List.mem_filter, Bool.not_eq_true', List.isEmpty_eq_false_iff]
  by_cases h : p ∈ paths ∧ p ≠ []
  · rw [if_pos h, if_pos (hmem.mpr h)]
  · rw [if_neg h, if_neg (fun hp => h (hmem.mp hp))]

/-- What stands in the way of an owner stands there still after the owner acquired paths, or was
refused. -/
theorem standing?_acquire (t : LeaseTable) (owner : Owner) (paths : List Path) (now : Instant)
    (p : Path) : (t.acquire owner paths now).2.standing? owner now p =
      t.standing? owner now p := by
  cases hc : t.conflict? owner now paths with
  | some c => rw [acquire_of_some hc]; rfl
  | none =>
    rw [acquire_of_none hc]
    unfold standing?
    rw [get?_put_grants]
    split
    · -- A granted path had nothing in the way, and its new lease is the owner's own.
      next hp =>
      have hfree := conflict?_eq_none_iff.mp hc p hp.1 p hp.2 (List.prefix_refl p)
      rw [show Option.filter _ (t.leases.get? p) = none from hfree, Option.filter_some]
      refine if_neg ?_
      rw [decide_eq_false (not_not_intro rfl), Bool.and_false]
      exact Bool.false_ne_true
    · rfl

/-! ## A lease of somebody else -/

/-- A live lease stays whatever another owner acquires. -/
theorem get?_acquire (h : t.leases.get? p = some lease) (hlive : lease.isLive now = true)
    (hother : lease.owner ≠ owner) (paths : List Path) :
    (t.acquire owner paths now).2.leases.get? p = some lease := by
  have hstanding := standing?_eq_some_iff.mpr ⟨h, hlive, hother⟩
  rw [← standing?_acquire t owner paths now p] at hstanding
  exact (standing?_eq_some_iff.mp hstanding).1

/-- Any lease stays whatever other paths are acquired. -/
theorem get?_acquire_of_not_mem (hp : p ∉ paths) (owner : Owner) (now : Instant) :
    (t.acquire owner paths now).2.leases.get? p = t.leases.get? p := by
  cases hc : t.conflict? owner now paths with
  | some c => rw [acquire_of_some hc]; rfl
  | none =>
    rw [acquire_of_none hc, get?_put_grants]
    exact if_neg fun h => hp h.1

/-- A lease after an acquisition was there before, or is its owner's. -/
theorem get?_of_acquire (h : (t.acquire owner paths now).2.leases.get? p = some lease)
    (hother : lease.owner ≠ owner) : t.leases.get? p = some lease := by
  cases hc : t.conflict? owner now paths with
  | some c => rwa [acquire_of_some hc] at h
  | none =>
    rw [acquire_of_none hc, get?_put_grants] at h
    split at h
    · cases h
      exact absurd rfl hother
    · exact h

/-- What a release leaves at a path. -/
theorem get?_release (t : LeaseTable) (owner : Owner) (p : Path) :
    (t.release owner).leases.get? p =
      (t.leases.get? p).filter fun l => decide (l.owner ≠ owner) :=
  SortedMap.get?_filter_value t.leases p

/-- What a release leaves was there before and is another owner's. -/
theorem get?_of_release (h : (t.release owner).leases.get? p = some lease) :
    t.leases.get? p = some lease ∧ lease.owner ≠ owner := by
  rw [get?_release, Option.filter_eq_some_iff, decide_eq_true_iff] at h
  exact h

/-- A lease stays when another owner releases. -/
theorem get?_release_of_ne (h : t.leases.get? p = some lease) (hother : lease.owner ≠ owner) :
    (t.release owner).leases.get? p = some lease := by
  rw [get?_release, h, Option.filter_some]
  exact if_pos (decide_eq_true hother)

/-- What is left at a path when leases that are over are forgotten. -/
theorem get?_prune (t : LeaseTable) (now : Instant) (p : Path) :
    (t.prune now).leases.get? p = (t.leases.get? p).filter fun l => l.isLive now :=
  SortedMap.get?_filter_value t.leases p

/-- A live lease stays when those that are over are forgotten. -/
theorem get?_prune_of_isLive (h : t.leases.get? p = some lease) (hlive : lease.isLive now = true) :
    (t.prune now).leases.get? p = some lease := by
  rw [get?_prune, h, Option.filter_some]
  exact if_pos hlive

/-- What is granted is in the table, under a path that was asked for and is not the root. -/
theorem get?_of_mem_granted {granted : List Lease}
    (h : (t.acquire owner paths now).1 = .ok granted) (hlease : lease ∈ granted) :
    (t.acquire owner paths now).2.leases.get? lease.path = some lease ∧
      lease.path ≠ [] ∧ lease.owner = owner := by
  cases hc : t.conflict? owner now paths with
  | some c => rw [acquire_of_some hc] at h; cases h
  | none =>
    rw [acquire_of_none hc] at h ⊢
    obtain rfl := Except.ok.inj h
    obtain ⟨q, hq, rfl⟩ := List.mem_map.mp hlease
    obtain ⟨hmem, hroot⟩ := List.mem_filter.mp hq
    rw [Bool.not_eq_true', List.isEmpty_eq_false_iff] at hroot
    refine ⟨?_, hroot, rfl⟩
    rw [get?_put_grants]
    exact if_pos ⟨hmem, hroot⟩

/-! ## Owners without a live lease -/

/-- The lease at a path, when it is live. -/
def live? (t : LeaseTable) (now : Instant) (p : Path) : Option Lease :=
  (t.leases.get? p).filter fun l => l.isLive now

/-- An owner has no live lease. -/
def IsIdle (t : LeaseTable) (owner : Owner) (now : Instant) : Prop :=
  ∀ p lease, t.live? now p = some lease → lease.owner ≠ owner

/-- Every live lease stands in the way of an owner who has none. -/
theorem standing?_of_isIdle (h : t.IsIdle owner now) (p : Path) :
    t.standing? owner now p = t.live? now p := by
  cases hlive : t.live? now p with
  | none =>
    unfold standing?
    rw [← Option.filter_filter, show Option.filter _ (t.leases.get? p) = none from hlive]
    rfl
  | some lease =>
    obtain ⟨hget, hlease⟩ := Option.filter_eq_some_iff.mp hlive
    exact standing?_eq_some_iff.mpr ⟨hget, hlease, h p lease hlive⟩

/-- When an owner releases, what is live is what stood in its way. -/
theorem live?_release (t : LeaseTable) (owner : Owner) (now : Instant) (p : Path) :
    (t.release owner).live? now p = t.standing? owner now p := by
  unfold live? standing?
  rw [get?_release, Option.filter_filter]
  exact congrArg (Option.filter · _) (funext fun l => Bool.and_comm _ _)

/-- A conflict depends only on what stands in the way. -/
theorem conflict?_congr {t' : LeaseTable} {owner' : Owner}
    (h : ∀ p, t.standing? owner now p = t'.standing? owner' now p) (paths : List Path) :
    t.conflict? owner now paths = t'.conflict? owner' now paths := by
  have hblocking : t.blocking? owner now = t'.blocking? owner' now := by
    funext q
    exact congrArg (q.ancestorsAndSelf.findSome? ·) (funext h)
  unfold conflict?
  rw [hblocking]

/-! ## Sequences -/

/-- What can happen to a table. Reading the live leases, or numbers about them, forgets those that
are over. -/
inductive Act where
  | acquire (owner : Owner) (paths : List Path) (now : Instant)
  | release (owner : Owner)
  | read (now : Instant)

/-- The table after something happened. -/
def perform (t : LeaseTable) : Act → LeaseTable
  | .acquire owner paths now => (t.acquire owner paths now).2
  | .release owner => t.release owner
  | .read now => t.prune now

/-- The table after several things happened, in their order. -/
def run (t : LeaseTable) (acts : List Act) : LeaseTable := acts.foldl perform t

/-- What another owner than this one does, or a reader, before a time. -/
def Act.IsForeign (owner : Owner) (ends : Instant) : Act → Prop
  | .acquire other _ now => other ≠ owner ∧ now < ends
  | .release other => other ≠ owner
  | .read now => now < ends

/-- A lease stays whatever others do while it is live. -/
theorem get?_perform (h : t.leases.get? p = some lease) {act : Act}
    (hact : act.IsForeign lease.owner lease.expiresAt) :
    (t.perform act).leases.get? p = some lease := by
  cases act with
  | acquire other paths now =>
    exact get?_acquire h (decide_eq_true hact.2) (Ne.symm hact.1) paths
  | release other => exact get?_release_of_ne h (Ne.symm hact)
  | read now => exact get?_prune_of_isLive h (decide_eq_true hact)

/-- So it does through any sequence. -/
theorem get?_run (h : t.leases.get? p = some lease) {acts : List Act}
    (hacts : ∀ act ∈ acts, act.IsForeign lease.owner lease.expiresAt) :
    (t.run acts).leases.get? p = some lease := by
  induction acts generalizing t with
  | nil => exact h
  | cons act acts ih =>
    exact ih (get?_perform h (hacts act List.mem_cons_self))
      fun act' hact' => hacts act' (List.mem_cons_of_mem _ hact')

/-- When paths were acquired, then at every one of them but the root the lease of their owner stays
as it was granted whatever other owners and readers do until its time is over; and until then no
other owner acquires the path or one below it, and being refused they change no lease. -/
theorem lease_is_exclusive (t : LeaseTable) {granted : List Lease} {start : Instant}
    (hgranted : (t.acquire owner paths start).1 = .ok granted) (hp : p ∈ paths)
    (hroot : p ≠ Path.root) (acts : List Act)
    (hacts : ∀ act ∈ acts, act.IsForeign owner (start + t.ttl)) :
    let later := (t.acquire owner paths start).2.run acts
    later.leases.get? p = some ⟨owner, p, start, start + t.ttl⟩ ∧
      ∀ other wanted now, other ≠ owner → now < start + t.ttl → (∃ q ∈ wanted, p <+: q) →
        ∃ c, (later.acquire other wanted now).1 = .error c ∧
          (later.acquire other wanted now).2.leases = later.leases := by
  intro later
  have hfirst : (t.acquire owner paths start).2.leases.get? p =
      some ⟨owner, p, start, start + t.ttl⟩ := by
    cases hc : t.conflict? owner start paths with
    | some c => rw [acquire_of_some hc] at hgranted; cases hgranted
    | none =>
      rw [acquire_of_none hc, get?_put_grants]
      exact if_pos ⟨hp, hroot⟩
  have hstays : later.leases.get? p = some ⟨owner, p, start, start + t.ttl⟩ :=
    get?_run hfirst hacts
  refine ⟨hstays, fun other wanted now hother hnow hwanted => ?_⟩
  refine acquire_of_standing hroot (standing?_eq_some_iff.mpr ⟨hstays, ?_, Ne.symm hother⟩) hwanted
  exact decide_eq_true hnow

/-- Somebody leases what is above, asks in vain for what is below, and gives up; in between the
leases are read. -/
def contested : List Act :=
  [.acquire ⟨"b"⟩ [["W"]] 10, .acquire ⟨"b"⟩ [["W", "F", "P"]] 20, .read 500, .release ⟨"b"⟩]

theorem lease_is_exclusive_contested :
    let later := ((empty 1000).acquire ⟨"a"⟩ [["W", "F"], ["W", "G"]] 0).2.run contested
    later.leases.get? ["W", "F"] = some ⟨⟨"a"⟩, ["W", "F"], 0, 1000⟩ ∧
      ∃ c, (later.acquire ⟨"b"⟩ [["W", "F", "P"]] 999).1 = .error c := by
  intro later
  have hfree : (empty 1000).conflict? ⟨"a"⟩ 0 [["W", "F"], ["W", "G"]] = none := by decide +kernel
  have hgranted := congrArg Prod.fst (acquire_of_none hfree)
  have hforeign : ∀ act ∈ contested, act.IsForeign ⟨"a"⟩ 1000 := by
    intro act hact
    simp only [contested, List.mem_cons, List.not_mem_nil, or_false] at hact
    rcases hact with rfl | rfl | rfl | rfl
    · exact ⟨by decide, by decide⟩
    · exact ⟨by decide, by decide⟩
    · exact (by decide : (500 : Int) < 1000)
    · exact (by decide : (⟨"b"⟩ : Owner) ≠ ⟨"a"⟩)
  have hpath : ["W", "F"] ∈ [["W", "F"], ["W", "G"]] := by decide
  have hroot : ["W", "F"] ≠ Path.root := by decide
  obtain ⟨hstays, hrefused⟩ :=
    lease_is_exclusive (empty 1000) hgranted hpath hroot contested hforeign
  obtain ⟨c, hc, _⟩ := hrefused ⟨"b"⟩ [["W", "F", "P"]] 999 (by decide) (by decide)
    ⟨_, List.mem_singleton_self _, by decide⟩
  exact ⟨hstays, c, hc⟩

end LeaseTable

end SharedScene
