import Mathlib
import SharedScene.Proofs.LastElements
import SharedScene.Proofs.Lease

/-!
# Leases as a ledger

A **ledger** writes down what happens to leases and forgets nothing by itself: it has every grant
until its owner gives it up, and every refusal. Its answers are read off the record. A path is held
under the last grant of it that was not given up, and bars the way of everybody else until that
grant is over (`LeaseLedger.Bars`).

A lease table keeps less. A new lease takes the place of the old one at its path, and whoever reads
the table removes what is over, at times of their own choosing. It answers as the ledger does all
the same, whatever was asked before (`LeaseTable.answers_as_ledger`).

Table and ledger agree on what is live from now on (`LeaseTable.Matches`); what is over may be in
one and not in the other. A release is where they could part: it uncovers an older grant in the
ledger, where the table has nothing. That grant is over, because two grants of a path that are both
live are one owner's (`LeaseLedger.Sound`) and are given up together.
-/

namespace SharedScene

/-- The beginnings of a path, the shortest first, are the root and the paths down to it. -/
theorem Path.inits_eq (p : Path) : p.inits = [] :: p.ancestorsAndSelf := by
  induction p with
  | nil => rfl
  | cons n p ih =>
    rw [List.inits_cons, ih, ancestorsAndSelf, List.map_cons]

theorem Path.inits_pairwise_length (p : Path) :
    p.inits.Pairwise fun q r => q.length < r.length := by
  induction p with
  | nil => exact List.pairwise_singleton _ _
  | cons n p ih =>
    rw [List.inits_cons, List.pairwise_cons, List.pairwise_map]
    refine ⟨fun q hq => ?_, ih.imp Nat.succ_lt_succ⟩
    obtain ⟨r, -, rfl⟩ := List.mem_map.mp hq
    exact Nat.succ_pos _

/-! ## The ledger -/

/-- What was granted and not given up, and who was refused. -/
structure LeaseLedger where
  /-- How long a grant lasts, in milliseconds. -/
  ttl : Int
  /-- The newest grant first. -/
  grants : List Lease
  /-- The oldest refusal first. -/
  refusals : List Contention

namespace LeaseLedger

variable {b : LeaseLedger} {owner : Owner} {now later : Instant} {p : Path} {paths : List Path}
  {lease : Lease} {c : LeaseConflict}

def empty (ttl : Int) : LeaseLedger := ⟨ttl, [], []⟩

/-- The last grant of a path. -/
def held? (b : LeaseLedger) (p : Path) : Option Lease := b.grants.find? fun l => l.path == p

/-- The last grant of a path, when it is not over. -/
def live? (b : LeaseLedger) (now : Instant) (p : Path) : Option Lease :=
  (b.held? p).filter fun l => l.isLive now

/-- The last grant of a path, when it is not over and another owner's. -/
def standing? (b : LeaseLedger) (owner : Owner) (now : Instant) (p : Path) : Option Lease :=
  (b.live? now p).filter fun l => decide (l.owner ≠ owner)

/-- The first requested path that something bars, and the shortest path where something does. -/
def conflict? (b : LeaseLedger) (owner : Owner) (now : Instant) (paths : List Path) :
    Option LeaseConflict :=
  paths.findSome? fun q =>
    (q.inits.findSome? (b.standing? owner now)).map fun l => ⟨q, l.path, l.owner, l.expiresAt⟩

/-- The grants of paths, the root apart. -/
def grantsOf (b : LeaseLedger) (owner : Owner) (paths : List Path) (now : Instant) : List Lease :=
  (paths.filter fun p => decide (p ≠ [])).map fun p => ⟨owner, p, now, now + b.ttl⟩

def granting (b : LeaseLedger) (owner : Owner) (paths : List Path) (now : Instant) : LeaseLedger :=
  { b with grants := (b.grantsOf owner paths now).reverse ++ b.grants }

def refusing (b : LeaseLedger) (owner : Owner) (c : LeaseConflict) (now : Instant) : LeaseLedger :=
  { b with refusals := b.refusals ++ [⟨owner, c.requestedPath, c.owner, c.path, now⟩] }

def acquire (b : LeaseLedger) (owner : Owner) (paths : List Path) (now : Instant) :
    Except LeaseConflict (List Lease) × LeaseLedger :=
  match b.conflict? owner now paths with
  | some c => (.error c, b.refusing owner c now)
  | none => (.ok (b.grantsOf owner paths now), b.granting owner paths now)

/-- The ledger without the grants of an owner. -/
def release (b : LeaseLedger) (owner : Owner) : LeaseLedger :=
  { b with grants := b.grants.filter fun l => decide (l.owner ≠ owner) }

/-- The grants that are not over, in the order of their paths. -/
def active (b : LeaseLedger) (now : Instant) : List Lease :=
  (SortedMap.sortedElements (b.grants.map (·.path))).filterMap (b.live? now)

def stats (b : LeaseLedger) (now : Instant) : LeaseStats where
  count := (b.active now).length
  uniqueOwners := ((b.active now).map (·.owner)).toFinset.card
  minRemaining := ((b.active now).map fun l => l.expiresAt - now).min?
  maxRemaining := ((b.active now).map fun l => l.expiresAt - now).max?
  contentionCount := b.refusals.length
  recentContentions := b.refusals.rtake 16

/-- The ledger after something happened; a question leaves it as it is. -/
def perform (b : LeaseLedger) : LeaseTable.Act → LeaseLedger
  | .acquire owner paths now => (b.acquire owner paths now).2
  | .release owner => b.release owner
  | .read _ => b

def run (b : LeaseLedger) (acts : List LeaseTable.Act) : LeaseLedger := acts.foldl perform b

/-! ## What it decides -/

/-- A path is held by somebody else than this owner, under a grant that is not over. -/
def Bars (b : LeaseLedger) (owner : Owner) (now : Instant) (p : Path) : Prop :=
  ∃ l, b.held? p = some l ∧ now < l.expiresAt ∧ l.owner ≠ owner

/-- A conflict is the one to report: nothing bars the paths requested before, and of the paths that
bar this one it names the shortest, with its owner and its end. -/
structure Refuses (b : LeaseLedger) (owner : Owner) (paths : List Path) (now : Instant)
    (c : LeaseConflict) : Prop where
  first : ∃ before after, paths = before ++ c.requestedPath :: after ∧
    ∀ q ∈ before, ∀ p, p <+: q → ¬ b.Bars owner now p
  above : c.path <+: c.requestedPath
  held : ∃ l, b.held? c.path = some l ∧ now < l.expiresAt ∧ l.owner ≠ owner ∧
    c.owner = l.owner ∧ c.expiresAt = l.expiresAt
  shortest : ∀ p, p <+: c.requestedPath → b.Bars owner now p → c.path.length ≤ p.length

/-- The answer to a request, and the ledger after it: a refusal that grants nothing, or else, when
nothing bars any path, a grant of every one but the root. -/
inductive Decides (b : LeaseLedger) (owner : Owner) (paths : List Path) (now : Instant) :
    Except LeaseConflict (List Lease) × LeaseLedger → Prop where
  | refused {c : LeaseConflict} (reason : b.Refuses owner paths now c) :
      Decides b owner paths now (.error c, b.refusing owner c now)
  | granted (free : ∀ q ∈ paths, ∀ p, p <+: q → ¬ b.Bars owner now p) :
      Decides b owner paths now (.ok (b.grantsOf owner paths now), b.granting owner paths now)

/-- A request is refused exactly when something bars a requested path or one above it. -/
theorem Decides.exists_error_iff {outcome : Except LeaseConflict (List Lease) × LeaseLedger}
    (h : b.Decides owner paths now outcome) : (∃ c, outcome.1 = .error c) ↔
      ∃ q ∈ paths, ∃ p, p <+: q ∧ b.Bars owner now p := by
  cases h with
  | @refused c reason =>
    refine iff_of_true ⟨c, rfl⟩ ?_
    obtain ⟨before, after, hpaths, -⟩ := reason.first
    obtain ⟨l, hheld, hlive, hother, -⟩ := reason.held
    exact ⟨c.requestedPath, hpaths ▸ List.mem_append_right _ List.mem_cons_self, c.path,
      reason.above, l, hheld, hlive, hother⟩
  | granted free =>
    refine iff_of_false (fun ⟨c, hc⟩ => ?_) fun ⟨q, hq, p, hp, hbars⟩ => free q hq p hp hbars
    cases hc

theorem standing?_eq_some_iff : b.standing? owner now p = some lease ↔
    b.held? p = some lease ∧ now < lease.expiresAt ∧ lease.owner ≠ owner := by
  unfold standing? live?
  rw [Option.filter_eq_some_iff, Option.filter_eq_some_iff, decide_eq_true_iff, Lease.isLive,
    decide_eq_true_iff, and_assoc]

theorem standing?_eq_none_iff : b.standing? owner now p = none ↔ ¬ b.Bars owner now p := by
  rw [Option.eq_none_iff_forall_ne_some]
  exact ⟨fun h ⟨l, hl⟩ => h l (standing?_eq_some_iff.mpr hl),
    fun h l hl => h ⟨l, standing?_eq_some_iff.mp hl⟩⟩

theorem findSome?_standing?_eq_none_iff {q : Path} :
    q.inits.findSome? (b.standing? owner now) = none ↔ ∀ p, p <+: q → ¬ b.Bars owner now p := by
  rw [List.findSome?_eq_none_iff]
  exact forall_congr' fun p => imp_congr (List.mem_inits p q) standing?_eq_none_iff

theorem conflict?_eq_none_iff : b.conflict? owner now paths = none ↔
    ∀ q ∈ paths, ∀ p, p <+: q → ¬ b.Bars owner now p := by
  unfold conflict?
  rw [List.findSome?_eq_none_iff]
  exact forall₂_congr fun q _ => Option.map_eq_none_iff.trans findSome?_standing?_eq_none_iff

theorem path_of_held? (h : b.held? p = some lease) : lease.path = p :=
  eq_of_beq (List.find?_some (p := fun l : Lease => l.path == p) h)

/-- The conflict that is found is the one to report. -/
theorem refuses_of_conflict? (h : b.conflict? owner now paths = some c) :
    b.Refuses owner paths now c := by
  obtain ⟨before, q, after, hpaths, hq, hbefore⟩ := List.findSome?_eq_some_iff.mp h
  obtain ⟨l, hl, rfl⟩ := Option.map_eq_some_iff.mp hq
  obtain ⟨above, p, below, hinits, hp, habove⟩ := List.findSome?_eq_some_iff.mp hl
  obtain ⟨hheld, hlive, hother⟩ := standing?_eq_some_iff.mp hp
  have hpath : l.path = p := path_of_held? hheld
  refine
    { first := ⟨before, after, hpaths, fun r hr => ?_⟩
      above := ?_
      held := ⟨l, by rwa [hpath], hlive, hother, rfl, rfl⟩
      shortest := fun r hr hbars => ?_ }
  · exact findSome?_standing?_eq_none_iff.mp (Option.map_eq_none_iff.mp (hbefore r hr))
  · show l.path <+: q
    rw [hpath, ← List.mem_inits, hinits]
    exact List.mem_append_right _ List.mem_cons_self
  · -- The beginnings of the path are looked at in the order of their lengths.
    show l.path.length ≤ r.length
    rw [hpath]
    have hlengths := q.inits_pairwise_length
    rw [← List.mem_inits, hinits, List.mem_append, List.mem_cons] at hr
    rw [hinits, List.pairwise_append, List.pairwise_cons] at hlengths
    rcases hr with hr | rfl | hr
    · exact absurd hbars (standing?_eq_none_iff.mp (habove r hr))
    · exact Nat.le_refl _
    · exact Nat.le_of_lt (hlengths.2.1.1 r hr)

theorem acquire_of_some (h : b.conflict? owner now paths = some c) :
    b.acquire owner paths now = (.error c, b.refusing owner c now) := by
  unfold acquire
  rw [h]

theorem acquire_of_none (h : b.conflict? owner now paths = none) : b.acquire owner paths now =
    (.ok (b.grantsOf owner paths now), b.granting owner paths now) := by
  unfold acquire
  rw [h]

theorem decides_acquire (b : LeaseLedger) (owner : Owner) (paths : List Path) (now : Instant) :
    b.Decides owner paths now (b.acquire owner paths now) := by
  cases h : b.conflict? owner now paths with
  | some c => exact acquire_of_some h ▸ .refused (refuses_of_conflict? h)
  | none => exact acquire_of_none h ▸ .granted (conflict?_eq_none_iff.mp h)

/-! ## The grants of one path -/

/-- What holds of a ledger when nothing in it happened after a time: a newer grant is over no
sooner than an older one, and those of a path that are not over belong to one owner. -/
structure Sound (b : LeaseLedger) (now : Instant) : Prop where
  named : ∀ l ∈ b.grants, l.path ≠ []
  bounded : ∀ l ∈ b.grants, l.expiresAt ≤ now + b.ttl
  ordered : b.grants.Pairwise fun newer older => older.expiresAt ≤ newer.expiresAt
  agreed : ∀ l ∈ b.grants, ∀ l' ∈ b.grants, l.path = l'.path →
    now < l.expiresAt → now < l'.expiresAt → l.owner = l'.owner

/-- A granted path has the new grant, every other one keeps its own. -/
theorem held?_granting (b : LeaseLedger) (owner : Owner) (paths : List Path) (now : Instant)
    (p : Path) : (b.granting owner paths now).held? p =
      if p ∈ paths ∧ p ≠ [] then some ⟨owner, p, now, now + b.ttl⟩ else b.held? p := by
  have hnew : ∀ l, l ∈ (b.grantsOf owner paths now).reverse ∧ l.path = p ↔
      l = ⟨owner, p, now, now + b.ttl⟩ ∧ p ∈ paths ∧ p ≠ [] := by
    intro l
    simp only [grantsOf, List.mem_reverse, List.mem_map, List.mem_filter, decide_eq_true_iff]
    constructor
    · rintro ⟨⟨q, hq, rfl⟩, rfl⟩
      exact ⟨rfl, hq⟩
    · rintro ⟨rfl, hp⟩
      exact ⟨⟨p, hp, rfl⟩, rfl⟩
  unfold held? granting
  rw [List.find?_append]
  split
  · next hp =>
    obtain ⟨hmem, hpath⟩ := (hnew _).mpr ⟨rfl, hp⟩
    cases hfind : (b.grantsOf owner paths now).reverse.find? fun l => l.path == p with
    | none => exact absurd (beq_iff_eq.mpr hpath) (List.find?_eq_none.mp hfind _ hmem)
    | some l =>
      have hl := beq_iff_eq.mp (List.find?_some (p := fun l : Lease => l.path == p) hfind)
      rw [((hnew l).mp ⟨List.mem_of_find?_eq_some hfind, hl⟩).1, Option.some_or]
  · next hp =>
    rw [List.find?_eq_none.mpr fun l hl hpath => hp ((hnew l).mp ⟨hl, beq_iff_eq.mp hpath⟩).2,
      Option.none_or]

namespace Sound

theorem empty (ttl : Int) (now : Instant) : (LeaseLedger.empty ttl).Sound now where
  named _ h := absurd h List.not_mem_nil
  bounded _ h := absurd h List.not_mem_nil
  ordered := List.Pairwise.nil
  agreed _ h := absurd h List.not_mem_nil

theorem mono (h : b.Sound now) (hle : now ≤ later) : b.Sound later where
  named := h.named
  bounded l hl := (h.bounded l hl).trans (Int.add_le_add_right hle _)
  ordered := h.ordered
  agreed l hl l' hl' hpath hlive hlive' :=
    h.agreed l hl l' hl' hpath (Int.lt_of_le_of_lt hle hlive) (Int.lt_of_le_of_lt hle hlive')

theorem release (h : b.Sound now) (owner : Owner) : (b.release owner).Sound now where
  named l hl := h.named l (List.mem_of_mem_filter hl)
  bounded l hl := h.bounded l (List.mem_of_mem_filter hl)
  ordered := h.ordered.sublist List.filter_sublist
  agreed l hl l' hl' := h.agreed l (List.mem_of_mem_filter hl) l' (List.mem_of_mem_filter hl')

/-- No grant of a path is over later than the last one. -/
theorem exists_held? (h : b.Sound now) (hmem : lease ∈ b.grants) :
    ∃ l ∈ b.grants, b.held? lease.path = some l ∧ lease.expiresAt ≤ l.expiresAt := by
  cases hheld : b.held? lease.path with
  | none => exact absurd (beq_self_eq_true lease.path) (List.find?_eq_none.mp hheld lease hmem)
  | some l =>
    obtain ⟨-, newer, older, hgrants, hnewer⟩ := List.find?_eq_some_iff_append.mp hheld
    refine ⟨l, List.mem_of_find?_eq_some hheld, rfl, ?_⟩
    have hordered := h.ordered
    rw [hgrants, List.pairwise_append, List.pairwise_cons] at hordered
    rw [hgrants, List.mem_append, List.mem_cons] at hmem
    rcases hmem with hmem | rfl | hmem
    · have hother := hnewer lease hmem
      rw [beq_self_eq_true] at hother
      cases hother
    · exact Int.le_refl _
    · exact hordered.2.1.1 lease hmem

/-- When nothing bars a path from an owner, the grants of it that are not over are the owner's. -/
theorem owner_of_not_bars (h : b.Sound now) (hmem : lease ∈ b.grants)
    (hlive : now < lease.expiresAt) (hfree : ¬ b.Bars owner now lease.path) :
    lease.owner = owner := by
  obtain ⟨l, hl, hheld, hle⟩ := h.exists_held? hmem
  have hlater : now < l.expiresAt := Int.lt_of_lt_of_le hlive hle
  rw [h.agreed lease hmem l hl (path_of_held? hheld).symm hlive hlater]
  by_contra hother
  exact hfree ⟨l, hheld, hlater, hother⟩

theorem granting (h : b.Sound now)
    (hfree : ∀ q ∈ paths, ∀ p, p <+: q → ¬ b.Bars owner now p) :
    (b.granting owner paths now).Sound now := by
  have hnew : ∀ l ∈ (b.grantsOf owner paths now).reverse,
      (l.path ∈ paths ∧ l.path ≠ []) ∧ l.owner = owner ∧ l.expiresAt = now + b.ttl := by
    intro l hl
    obtain ⟨p, hp, rfl⟩ := List.mem_map.mp (List.mem_reverse.mp hl)
    rw [List.mem_filter, decide_eq_true_iff] at hp
    exact ⟨hp, rfl, rfl⟩
  -- An old grant of a path that is granted now is over, or the owner's too.
  have hold : ∀ l ∈ (b.grantsOf owner paths now).reverse, ∀ l' ∈ b.grants, l.path = l'.path →
      now < l'.expiresAt → l'.owner = owner := by
    intro l hl l' hl' hpath hlive
    have hmem := (hnew l hl).1.1
    rw [hpath] at hmem
    exact h.owner_of_not_bars hl' hlive (hfree _ hmem _ (List.prefix_refl _))
  refine
    { named := fun l hl => ?_
      bounded := fun l hl => ?_
      ordered := List.pairwise_append.mpr ⟨?_, h.ordered, fun l hl l' hl' => ?_⟩
      agreed := fun l hl l' hl' hpath hlive hlive' => ?_ }
  · rcases List.mem_append.mp hl with hl | hl
    · exact (hnew l hl).1.2
    · exact h.named l hl
  · rcases List.mem_append.mp hl with hl | hl
    · exact Int.le_of_eq (hnew l hl).2.2
    · exact h.bounded l hl
  · refine List.pairwise_of_forall_mem_list fun l hl l' hl' => ?_
    rw [(hnew l hl).2.2, (hnew l' hl').2.2]
  · rw [(hnew l hl).2.2]
    exact h.bounded l' hl'
  · rcases List.mem_append.mp hl with hl | hl <;> rcases List.mem_append.mp hl' with hl' | hl'
    · rw [(hnew l hl).2.1, (hnew l' hl').2.1]
    · rw [(hnew l hl).2.1, hold l hl l' hl' hpath hlive']
    · rw [(hnew l' hl').2.1, hold l' hl' l hl hpath.symm hlive]
    · exact h.agreed l hl l' hl' hpath hlive hlive'

/-- A release leaves of what is live what is not the owner's: it uncovers nothing. -/
theorem live?_release (h : b.Sound now) (hle : now ≤ later) (owner : Owner) (p : Path) :
    (b.release owner).live? later p = b.standing? owner later p := by
  cases hstanding : b.standing? owner later p with
  | some l =>
    obtain ⟨hheld, hlive, hother⟩ := standing?_eq_some_iff.mp hstanding
    obtain ⟨hpath, newer, older, hgrants, hnewer⟩ := List.find?_eq_some_iff_append.mp hheld
    refine Option.filter_eq_some_iff.mpr ⟨?_, decide_eq_true hlive⟩
    refine List.find?_eq_some_iff_append.mpr
      ⟨hpath, newer.filter (fun l => decide (l.owner ≠ owner)),
        older.filter (fun l => decide (l.owner ≠ owner)), ?_, fun l' hl' => ?_⟩
    · show b.grants.filter _ = _
      rw [hgrants, List.filter_append, List.filter_cons, if_pos (decide_eq_true hother)]
    · exact hnewer l' (List.mem_of_mem_filter hl')
  | none =>
    -- Nothing bars the path, so all its grants that are not over were the owner's.
    rw [Option.eq_none_iff_forall_ne_some]
    intro l hl
    obtain ⟨hheld, hlive⟩ := Option.filter_eq_some_iff.mp hl
    obtain ⟨hmem, hother⟩ := List.mem_filter.mp (List.mem_of_find?_eq_some hheld)
    have hpath : l.path = p := path_of_held? hheld
    have hfree : ¬ b.Bars owner later l.path := hpath ▸ standing?_eq_none_iff.mp hstanding
    exact of_decide_eq_true hother
      ((h.mono hle).owner_of_not_bars hmem (of_decide_eq_true hlive) hfree)

end Sound

end LeaseLedger

/-! ## The table and the ledger -/

theorem nodup_eraseDups {α : Type*} [DecidableEq α] (l : List α) : l.eraseDups.Nodup := by
  induction l using List.reverseRecOn with
  | nil => exact List.nodup_nil
  | append_singleton l a ih =>
    rw [List.eraseDups_append]
    by_cases ha : a ∈ l
    · simpa [List.removeAll, ha] using ih
    · have hlast : ([a].removeAll l).eraseDups = [a] := by
        simp [List.removeAll, ha, List.eraseDups_cons]
      rw [hlast]
      exact ih.append (List.nodup_singleton a)
        (List.disjoint_singleton.mpr fun hmem => ha (List.mem_eraseDups.mp hmem))

/-- A list without its repetitions is as long as it has elements. -/
theorem length_eraseDups {α : Type*} [DecidableEq α] (l : List α) :
    l.eraseDups.length = l.toFinset.card := by
  rw [← List.toFinset_card_of_nodup (nodup_eraseDups l)]
  congr 1
  ext a
  rw [List.mem_toFinset, List.mem_toFinset, List.mem_eraseDups]

namespace LeaseTable

variable {t : LeaseTable} {b : LeaseLedger} {owner : Owner} {now later : Instant} {p : Path}
  {paths : List Path}

/-- When something happened, where that matters. -/
def Act.time? : Act → Option Instant
  | .acquire _ _ now => some now
  | .release _ => none
  | .read now => some now

/-- A table and a ledger have the same live leases at a time and after it, and know the same of
refusals. -/
structure Matches (t : LeaseTable) (b : LeaseLedger) (now : Instant) : Prop where
  sound : b.Sound now
  ttl : t.ttl = b.ttl
  live : ∀ later, now ≤ later → ∀ p, t.live? later p = b.live? later p
  count : t.contentionCount = b.refusals.length
  recent : t.recent = b.refusals.rtake recentLimit

/-- What stands in the way of an owner is what is live and another owner's. -/
theorem standing?_eq_filter_live? (t : LeaseTable) (owner : Owner) (now : Instant) (p : Path) :
    t.standing? owner now p = (t.live? now p).filter fun l => decide (l.owner ≠ owner) := by
  unfold standing? live?
  rw [Option.filter_filter]

namespace Matches

theorem empty (ttl : Int) (now : Instant) : (LeaseTable.empty ttl).Matches (.empty ttl) now where
  sound := .empty ttl now
  ttl := rfl
  live _ _ _ := rfl
  count := rfl
  recent := rfl

theorem mono (h : t.Matches b now) (hle : now ≤ later) : t.Matches b later where
  sound := h.sound.mono hle
  ttl := h.ttl
  live later' hlater := h.live later' (Int.le_trans hle hlater)
  count := h.count
  recent := h.recent

theorem standing? (h : t.Matches b now) (owner : Owner) (hle : now ≤ later) (p : Path) :
    t.standing? owner later p = b.standing? owner later p := by
  rw [standing?_eq_filter_live?, h.live later hle p, LeaseLedger.standing?]

theorem blocking? (h : t.Matches b now) (owner : Owner) (q : Path) :
    t.blocking? owner now q = q.inits.findSome? (b.standing? owner now) := by
  have hroot : b.standing? owner now [] = none := by
    refine LeaseLedger.standing?_eq_none_iff.mpr fun ⟨l, hheld, _⟩ => ?_
    exact h.sound.named l (List.mem_of_find?_eq_some hheld) (LeaseLedger.path_of_held? hheld)
  rw [Path.inits_eq, List.findSome?_cons, hroot]
  exact congrArg (q.ancestorsAndSelf.findSome? ·) (funext (h.standing? owner (Int.le_refl now)))

theorem conflict? (h : t.Matches b now) (owner : Owner) (paths : List Path) :
    t.conflict? owner now paths = b.conflict? owner now paths := by
  unfold LeaseTable.conflict? LeaseLedger.conflict?
  rw [funext (h.blocking? owner)]

theorem grants (h : t.Matches b now) (owner : Owner) (paths : List Path) :
    t.grants owner paths now = b.grantsOf owner paths now := by
  unfold LeaseTable.grants LeaseLedger.grantsOf
  rw [h.ttl]
  refine congrArg (List.map _) (List.filter_congr fun p _ => ?_)
  rw [Bool.eq_iff_iff, Bool.not_eq_true', List.isEmpty_eq_false_iff, decide_eq_true_iff]

/-- Table and ledger give the same answer to a request. -/
theorem acquire_fst (h : t.Matches b now) (owner : Owner) (paths : List Path) :
    (t.acquire owner paths now).1 = (b.acquire owner paths now).1 := by
  cases hc : b.conflict? owner now paths with
  | some c =>
    rw [LeaseLedger.acquire_of_some hc, acquire_of_some ((h.conflict? owner paths).trans hc)]
  | none =>
    rw [LeaseLedger.acquire_of_none hc, acquire_of_none ((h.conflict? owner paths).trans hc),
      h.grants]

theorem acquire (h : t.Matches b now) (owner : Owner) (paths : List Path) :
    (t.acquire owner paths now).2.Matches (b.acquire owner paths now).2 now := by
  cases hc : b.conflict? owner now paths with
  | some c =>
    rw [LeaseLedger.acquire_of_some hc, acquire_of_some ((h.conflict? owner paths).trans hc)]
    exact
      { sound := ⟨h.sound.named, h.sound.bounded, h.sound.ordered, h.sound.agreed⟩
        ttl := h.ttl
        live := h.live
        count := by
          show t.contentionCount + 1 = (b.refusals ++ _).length
          rw [List.length_append, h.count, List.length_singleton]
        recent := by
          show (t.recent ++ _).rtake recentLimit = _
          rw [h.recent, rtake_concat_rtake]
          rfl }
  | none =>
    rw [LeaseLedger.acquire_of_none hc, acquire_of_none ((h.conflict? owner paths).trans hc)]
    exact
      { sound := h.sound.granting (LeaseLedger.conflict?_eq_none_iff.mp hc)
        ttl := h.ttl
        live := fun later hle p => by
          unfold live? LeaseLedger.live?
          rw [get?_put_grants, LeaseLedger.held?_granting, h.ttl]
          split
          · rfl
          · exact h.live later hle p
        count := h.count
        recent := h.recent }

theorem release (h : t.Matches b now) (owner : Owner) :
    (t.release owner).Matches (b.release owner) now where
  sound := h.sound.release owner
  ttl := h.ttl
  live later hle p := by
    rw [LeaseTable.live?_release, h.sound.live?_release hle, h.standing? owner hle]
  count := h.count
  recent := h.recent

theorem prune (h : t.Matches b now) : (t.prune now).Matches b now where
  sound := h.sound
  ttl := h.ttl
  live later hle p := by
    rw [← h.live later hle p]
    unfold live?
    rw [get?_prune, Option.filter_filter]
    refine congrArg (Option.filter · _) (funext fun l => ?_)
    rw [Bool.and_eq_right_iff_imp, Lease.isLive, Lease.isLive, decide_eq_true_iff,
      decide_eq_true_iff]
    exact Int.lt_of_le_of_lt hle
  count := h.count
  recent := h.recent

theorem perform (h : t.Matches b now) (act : Act) (htime : ∀ s ∈ act.time?, s = now) :
    (t.perform act).Matches (b.perform act) now := by
  cases act with
  | acquire owner paths time =>
    obtain rfl := htime time rfl
    exact h.acquire owner paths
  | release owner => exact h.release owner
  | read time =>
    obtain rfl := htime time rfl
    exact h.prune

theorem active (h : t.Matches b now) : t.active now = b.active now := by
  have hget : (t.prune now).leases.get? = b.live? now :=
    funext fun p => (get?_prune t now p).trans (h.live now (Int.le_refl now) p)
  unfold LeaseTable.active LeaseLedger.active
  rw [← hget]
  refine SortedMap.values_eq_filterMap (SortedMap.sorted_sortedElements _) fun p hp => ?_
  rw [hget] at hp
  obtain ⟨l, hl⟩ := Option.isSome_iff_exists.mp hp
  have hheld := (Option.filter_eq_some_iff.mp hl).1
  rw [SortedMap.mem_sortedElements, ← LeaseLedger.path_of_held? hheld]
  exact List.mem_map_of_mem (List.mem_of_find?_eq_some hheld)

theorem stats (h : t.Matches b now) : t.stats now = b.stats now := by
  unfold LeaseTable.stats LeaseLedger.stats
  rw [h.active, h.count, h.recent, ← length_eraseDups]
  rfl

/-- Whatever happened up to a time, table and ledger match. -/
theorem run (ttl : Int) (acts : List Act)
    (htimes : (acts.filterMap Act.time? ++ [now]).Pairwise (· ≤ ·)) :
    ((LeaseTable.empty ttl).run acts).Matches ((LeaseLedger.empty ttl).run acts) now := by
  induction acts using List.reverseRecOn generalizing now with
  | nil => exact .empty ttl now
  | append_singleton acts act ih =>
    rw [LeaseTable.run, LeaseLedger.run, List.foldl_append, List.foldl_append]
    rw [List.filterMap_append, List.append_assoc] at htimes
    cases htime : act.time? with
    | none =>
      rw [List.filterMap_cons_none htime] at htimes
      exact (ih htimes).perform act fun s hs => by cases htime.symm.trans hs
    | some time =>
      rw [List.filterMap_cons_some htime, List.filterMap_nil, ← List.append_assoc,
        List.pairwise_append] at htimes
      have hle : time ≤ now :=
        htimes.2.2 time List.mem_concat_self now (List.mem_singleton_self now)
      refine Matches.mono (Matches.perform (ih htimes.1) act fun s hs => ?_) hle
      exact (Option.some.inj (htime.symm.trans hs)).symm

end Matches

/-- A table that began empty answers every request, every question for the live leases and every
question for numbers about them as the ledger does in which the same happened. A request is refused
exactly when something bars a requested path or one above it; the ledger reports the first such
path and the shortest that bars it, or grants every path but the root. -/
theorem answers_as_ledger (ttl : Int) (acts : List Act) (now : Instant)
    (htimes : (acts.filterMap Act.time? ++ [now]).Pairwise (· ≤ ·)) :
    let t := (empty ttl).run acts
    let b := (LeaseLedger.empty ttl).run acts
    (∀ owner paths, (t.acquire owner paths now).1 = (b.acquire owner paths now).1 ∧
      ((∃ c, (t.acquire owner paths now).1 = .error c) ↔
        ∃ q ∈ paths, ∃ p, p <+: q ∧ b.Bars owner now p) ∧
      b.Decides owner paths now (b.acquire owner paths now)) ∧
      t.active now = b.active now ∧ t.stats now = b.stats now := by
  have hmatches := Matches.run ttl acts htimes
  intro t b
  refine ⟨fun owner paths => ?_, hmatches.active, hmatches.stats⟩
  have hanswer := hmatches.acquire_fst owner paths
  have hdecides := LeaseLedger.decides_acquire b owner paths now
  exact ⟨hanswer, hanswer ▸ hdecides.exists_error_iff, hdecides⟩

/-- Leases that overlap: a third owner is refused and told of the topmost; later, when they are over
and after some were forgotten, it leases one of the paths and gives it up again. -/
def overlapping : List Act :=
  [.acquire ⟨"a"⟩ [["W", "F"], []] 0, .acquire ⟨"b"⟩ [["W"]] 10,
    .acquire ⟨"c"⟩ [["X"], ["W", "F", "P"]] 20, .read 1005, .acquire ⟨"c"⟩ [["W", "F"]] 1500,
    .acquire ⟨"b"⟩ [["W", "G"]] 1500, .release ⟨"c"⟩]

theorem answers_as_ledger_overlapping :
    let t := (empty 1000).run overlapping
    (t.acquire ⟨"c"⟩ [["V"], ["W", "G", "P"]] 1600).1 =
        .error ⟨["W", "G", "P"], ["W", "G"], ⟨"b"⟩, 2500⟩ ∧
      t.active 1600 = [⟨⟨"b"⟩, ["W", "G"], 1500, 2500⟩] ∧
      (t.stats 1600).recentContentions = [⟨⟨"c"⟩, ["W", "F", "P"], ⟨"b"⟩, ["W"], 20⟩] := by
  intro t
  have htimes : (overlapping.filterMap Act.time? ++ [1600]).Pairwise (· ≤ ·) := by decide
  obtain ⟨hrequest, hactive, hstats⟩ := answers_as_ledger 1000 overlapping 1600 htimes
  rw [(hrequest _ _).1, hactive, hstats]
  exact ⟨by decide +kernel, by decide +kernel, by decide +kernel⟩

end LeaseTable

end SharedScene
