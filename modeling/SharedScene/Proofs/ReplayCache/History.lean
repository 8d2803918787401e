import SharedScene.Proofs.LastElements
import SharedScene.Proofs.ReplayCache

/-!
# What a cache answers

A cache is asked and stored into in any order, and forgets replies for three reasons: they are over
when something is stored, they are over when they are asked for, or too many newer ones are there.
What it answers depends on none of that, but on what was stored alone. A reply is found while it is
the last one of its key, is not over, and has fewer keys stored after it than there is room for
(`ReplayCache.answers_from_history`).

The reason is that the replies which are not over are always the last ones, as many as there is room
for, of the **latest** replies of each key that are not over (`ReplayCache.Recalls`). It does not
matter when the cache forgets: a reply stored later is over later, so whoever drops the oldest
replies drops those that are over first.
-/

namespace SharedScene

/-! ## The last entries -/

/-- A key is found among the last entries when few enough stand behind it. -/
theorem SortedMap.find?_rtake_iff {α : Type*} {key : String} {a : α}
    {before after : List (String × α)} {n : Nat}
    (h : ((before ++ (key, a) :: after).map Prod.fst).Nodup) :
    find? key ((before ++ (key, a) :: after).rtake n) = some a ↔ after.length < n := by
  have hlength : (before ++ (key, a) :: after).length = before.length + (after.length + 1) := by
    rw [List.length_append, List.length_cons]
  unfold List.rtake
  constructor
  · intro hfind
    by_contra hle
    -- What is left stands behind the key, where it stands no more.
    rw [List.drop_append, List.drop_eq_nil_of_le (by omega), List.nil_append,
      show _ - n - before.length = (after.length - n) + 1 by omega, List.drop_succ_cons] at hfind
    have hmem := List.mem_of_mem_drop (mem_of_find? hfind)
    rw [List.map_append, List.map_cons] at h
    exact (List.nodup_cons.mp (List.nodup_append.mp h).2.1).1 (List.mem_map_of_mem hmem)
  · intro hlt
    rw [List.drop_append_of_le_length (by omega)]
    refine find?_of_mem (h.sublist ?_) (List.mem_append_right _ List.mem_cons_self)
    exact ((List.drop_sublist _ before).append_right _).map Prod.fst

namespace ReplayCache

variable {β : Type} {c : ReplayCache β} {key : String} {r : StoredReply β} {now later : Instant}
  {history : List (String × StoredReply β)} {entry : String × StoredReply β}

/-! ## The latest replies -/

/-- The last reply of each key, in the order in which they were stored. -/
def latest : List (String × StoredReply β) → List (String × StoredReply β)
  | [] => []
  | e :: after => if e.1 ∈ after.map Prod.fst then latest after else e :: latest after

theorem latest_sublist (history : List (String × StoredReply β)) :
    (latest history).Sublist history := by
  induction history with
  | nil => exact List.Sublist.slnil
  | cons e after ih =>
    unfold latest
    split
    · exact ih.cons e
    · exact ih.cons_cons e

theorem map_fst_latest (history : List (String × StoredReply β)) :
    (latest history).map Prod.fst = (history.map Prod.fst).dedup := by
  induction history with
  | nil => rfl
  | cons e after ih =>
    unfold latest
    rw [List.map_cons]
    split
    · next he => rw [ih, List.dedup_cons_of_mem he]
    · next he => rw [List.map_cons, ih, List.dedup_cons_of_notMem he]

theorem nodup_latest (history : List (String × StoredReply β)) :
    ((latest history).map Prod.fst).Nodup := by
  rw [map_fst_latest]
  exact List.nodup_dedup _

/-- There is one latest reply for each key. -/
theorem length_latest (history : List (String × StoredReply β)) :
    (latest history).length = (history.map Prod.fst).toFinset.card := by
  rw [List.card_toFinset, ← map_fst_latest, List.length_map]

/-- A reply that is stored takes the place of the one of its key, behind all others. -/
theorem latest_concat (history : List (String × StoredReply β))
    (entry : String × StoredReply β) : latest (history ++ [entry]) =
      (latest history).filter (fun e => e.1 != entry.1) ++ [entry] := by
  induction history with
  | nil => rfl
  | cons e after ih =>
    have hmem : e.1 ∈ (after ++ [entry]).map Prod.fst ↔
        e.1 ∈ after.map Prod.fst ∨ e.1 = entry.1 := by
      rw [List.map_append, List.mem_append, List.map_singleton, List.mem_singleton]
    rw [List.cons_append, latest, latest, ih]
    by_cases hafter : e.1 ∈ after.map Prod.fst
    · rw [if_pos hafter, if_pos (hmem.mpr (.inl hafter))]
    · rw [if_neg hafter]
      by_cases hentry : e.1 = entry.1
      · rw [if_pos (hmem.mpr (.inr hentry)), List.filter_cons,
          if_neg fun h => bne_iff_ne.mp h hentry]
      · rw [if_neg fun h => (hmem.mp h).elim hafter hentry, List.filter_cons,
          if_pos (bne_iff_ne.mpr hentry), List.cons_append]

/-- Behind the last reply of a key stand the latest of those stored after it. -/
theorem exists_latest_append (before : List (String × StoredReply β))
    {after : List (String × StoredReply β)} (h : key ∉ after.map Prod.fst) :
    ∃ older, latest (before ++ (key, r) :: after) = older ++ (key, r) :: latest after := by
  induction before with
  | nil => exact ⟨[], if_neg h⟩
  | cons e before ih =>
    obtain ⟨older, holder⟩ := ih
    rw [List.cons_append, latest]
    split
    · exact ⟨older, holder⟩
    · exact ⟨e :: older, by rw [holder, List.cons_append]⟩

theorem exists_append_of_mem_latest (h : entry ∈ latest history) :
    ∃ before after, history = before ++ entry :: after ∧ entry.1 ∉ after.map Prod.fst := by
  induction history with
  | nil => cases h
  | cons e history ih =>
    unfold latest at h
    by_cases he : e.1 ∈ history.map Prod.fst
    · rw [if_pos he] at h
      obtain ⟨before, after, rfl, hafter⟩ := ih h
      exact ⟨e :: before, after, rfl, hafter⟩
    · rw [if_neg he, List.mem_cons] at h
      rcases h with rfl | h
      · exact ⟨[], history, rfl, he⟩
      · obtain ⟨before, after, rfl, hafter⟩ := ih h
        exact ⟨e :: before, after, rfl, hafter⟩

/-! ## What is not over -/

theorem isFresh_of_le (h : c.isFresh later r = true) (hle : now ≤ later) :
    c.isFresh now r = true := by
  rw [isFresh, decide_eq_true_iff] at h ⊢
  exact Int.lt_of_le_of_lt (Int.sub_le_sub_right hle _) h

theorem isFresh_of_createdAt_le {r' : StoredReply β} (h : c.isFresh now r = true)
    (hle : r.createdAt ≤ r'.createdAt) : c.isFresh now r' = true := by
  rw [isFresh, decide_eq_true_iff] at h ⊢
  exact Int.lt_of_le_of_lt (Int.sub_le_sub_left hle _) h

/-- The replies of a list that are not over. -/
def freshIn (c : ReplayCache β) (now : Instant) (l : List (String × StoredReply β)) :
    List (String × StoredReply β) := l.filter fun e => c.isFresh now e.2

theorem freshIn_concat (h : c.isFresh now r = true) (key : String)
    (l : List (String × StoredReply β)) :
    c.freshIn now (l ++ [(key, r)]) = c.freshIn now l ++ [(key, r)] := by
  unfold freshIn
  rw [List.filter_append, List.filter_singleton, h, cond_true]

/-- When the newest reply is over, all are. -/
theorem freshIn_eq_nil {l : List (String × StoredReply β)} (hover : ¬ c.isFresh now r = true)
    (hpast : ∀ e ∈ l, e.2.createdAt ≤ r.createdAt) : c.freshIn now l = [] :=
  List.filter_eq_nil_iff.mpr fun e he hfresh => hover (isFresh_of_createdAt_le hfresh (hpast e he))

/-- In replies that are not over for some time none is missed by asking whether they are now. -/
theorem freshIn_filter (hle : now ≤ later) (key : String) (l : List (String × StoredReply β)) :
    c.freshIn later (l.filter fun e => c.isFresh now e.2 && e.1 != key) =
      (c.freshIn later l).filter fun e => e.1 != key := by
  unfold freshIn
  rw [List.filter_filter, List.filter_filter]
  refine List.filter_congr fun e _ => ?_
  rw [← Bool.and_assoc, Bool.and_comm (e.1 != key)]
  refine congrArg (· && e.1 != key) (Bool.and_eq_left_iff_imp.mpr fun hfresh => ?_)
  exact isFresh_of_le hfresh hle

/-- A cache has kept what it should of a history that ends before a time or at it. -/
structure Recalls (c : ReplayCache β) (history : List (String × StoredReply β)) (now : Instant) :
    Prop where
  ordered : history.Pairwise fun e e' => e.2.createdAt ≤ e'.2.createdAt
  past : ∀ e ∈ history, e.2.createdAt ≤ now
  sublist : c.entries.Sublist (latest history)
  room : c.entries.length ≤ c.capacity
  /-- What is not over are the last of the latest replies that are not over. -/
  fresh : ∀ later, now ≤ later →
    c.freshIn later c.entries = (c.freshIn later (latest history)).rtake c.capacity

/-- The answer to a question is the reply under the key, unless it is over. -/
theorem get_fst (c : ReplayCache β) (key : Option String) (now : Instant) :
    (c.get key now).1 = (usable? key).bind fun k =>
      (SortedMap.find? k c.entries).filter (c.isFresh now) := by
  unfold get
  cases usable? key with
  | none => rfl
  | some k =>
    dsimp only [Option.bind_some]
    cases SortedMap.find? k c.entries with
    | none => rfl
    | some r =>
      dsimp only
      rw [Option.filter_some]
      split <;> rfl

theorem set_of_usable {key' : Option String} (h : usable? key' = some key) (status : Nat) (body : β)
    (now : Instant) : c.set key' status body now =
      { c with
        entries := List.rtake
          (c.entries.filter (fun e => c.isFresh now e.2 && e.1 != key) ++
            [(key, ⟨status, body, now⟩)]) c.capacity } := by
  unfold set
  rw [h]
  rfl

namespace Recalls

theorem empty (ttl : Int) (capacity : Nat) (now : Instant) :
    (ReplayCache.empty ttl capacity : ReplayCache β).Recalls [] now where
  ordered := List.Pairwise.nil
  past _ h := absurd h List.not_mem_nil
  sublist := List.Sublist.slnil
  room := Nat.zero_le _
  fresh _ _ := (List.rtake_nil _).symm

theorem mono (h : c.Recalls history now) (hle : now ≤ later) : c.Recalls history later where
  ordered := h.ordered
  past e he := (h.past e he).trans hle
  sublist := h.sublist
  room := h.room
  fresh later' hlater := h.fresh later' (hle.trans hlater)

/-- Behind a reply that is not over stand none that are. -/
theorem ordered_fresh (h : c.Recalls history now) {l : List (String × StoredReply β)}
    (hl : l.Sublist history) (later : Instant) :
    l.Pairwise fun e e' => c.isFresh later e.2 = true → c.isFresh later e'.2 = true :=
  (h.ordered.sublist hl).imp fun hle hfresh => isFresh_of_createdAt_le hfresh hle

theorem nodup (h : c.Recalls history now) : (c.entries.map Prod.fst).Nodup :=
  (nodup_latest history).sublist (h.sublist.map Prod.fst)

theorem get (h : c.Recalls history now) (key : Option String) :
    (c.get key now).2.Recalls history now := by
  rcases get_snd c key now with heq | ⟨k, r, -, hfind, hover, heq⟩
  · rw [heq]
    exact h
  · rw [heq]
    refine
      { ordered := h.ordered
        past := h.past
        sublist := List.filter_sublist.trans h.sublist
        room := (List.length_filter_le _ _).trans h.room
        fresh := fun later hle => Eq.trans ?_ (h.fresh later hle) }
    -- The reply that is erased is over, so none that is not over has its key.
    show (c.entries.filter _).filter (fun e => c.isFresh later e.2) = c.freshIn later c.entries
    rw [List.filter_filter]
    refine List.filter_congr fun e he => ?_
    rw [Bool.and_eq_left_iff_imp, bne_iff_ne]
    rintro hfresh rfl
    rw [SortedMap.find?_of_mem h.nodup he] at hfind
    cases hfind
    exact hover (isFresh_of_le hfresh hle)

/-- What is left when a reply is stored under a key. -/
theorem sublist_others (h : c.Recalls history now) (key : String) :
    (c.entries.filter fun e => c.isFresh now e.2 && e.1 != key).Sublist
      ((latest history).filter fun e => e.1 != key) := by
  rw [← List.filter_filter]
  exact List.filter_sublist.trans (h.sublist.filter _)

/-- Of the replies under other keys the cache has the last ones, one less than there is room for,
since the key had no more than one of them. -/
theorem fresh_others (h : c.Recalls history now) (hle : now ≤ later) {n : Nat}
    (hn : c.capacity = n + 1) (key : String) :
    (c.freshIn later (c.entries.filter fun e => c.isFresh now e.2 && e.1 != key)).rtake n =
      (c.freshIn later ((latest history).filter fun e => e.1 != key)).rtake n := by
  have hdistinct : (c.freshIn later (latest history)).Pairwise
      fun e e' => (e.1 != key) = true ∨ (e'.1 != key) = true := by
    refine ((List.pairwise_map.mp (nodup_latest history)).sublist List.filter_sublist).imp ?_
    intro e e' hne
    rw [bne_iff_ne, bne_iff_ne, ← not_and_or]
    rintro ⟨rfl, heq⟩
    exact hne heq.symm
  calc (c.freshIn later (c.entries.filter fun e => c.isFresh now e.2 && e.1 != key)).rtake n
    _ = (((c.freshIn later (latest history)).rtake (n + 1)).filter
          fun e => e.1 != key).rtake n := by
      rw [freshIn_filter hle, h.fresh later hle, hn]
    _ = ((c.freshIn later (latest history)).filter fun e => e.1 != key).rtake n :=
      rtake_filter_rtake hdistinct n
    _ = (c.freshIn later ((latest history).filter fun e => e.1 != key)).rtake n := by
      rw [freshIn, freshIn, List.filter_comm]

theorem set (h : c.Recalls history now) (hcapacity : 0 < c.capacity) {key' : Option String}
    (husable : usable? key' = some key) (status : Nat) (body : β) :
    (c.set key' status body now).Recalls (history ++ [(key, ⟨status, body, now⟩)]) now := by
  rw [set_of_usable husable]
  obtain ⟨n, hn⟩ : ∃ n, c.capacity = n + 1 := ⟨c.capacity - 1, by omega⟩
  have hlatest : ((latest history).filter fun e => e.1 != key).Sublist history :=
    List.filter_sublist.trans (latest_sublist history)
  have hkept := (h.sublist_others key).trans hlatest
  have hpast : ∀ l : List (String × StoredReply β), l.Sublist history →
      ∀ e ∈ l ++ [(key, ⟨status, body, now⟩)], e.2.createdAt ≤ now := by
    intro l hl e he
    rcases List.mem_append.mp he with he | he
    · exact h.past e (hl.subset he)
    · rw [List.mem_singleton.mp he]
  refine
    { ordered := ?_
      past := hpast history (List.Sublist.refl _)
      sublist := ?_
      room := length_rtake_le _ _
      fresh := fun later hle => ?_ }
  · refine List.pairwise_append.mpr ⟨h.ordered, List.pairwise_singleton _ _, fun e he e' he' => ?_⟩
    rw [List.mem_singleton.mp he']
    exact h.past e he
  · rw [latest_concat]
    exact (rtake_sublist _ _).trans ((h.sublist_others key).append_right _)
  · show c.freshIn later (List.rtake _ c.capacity) = (c.freshIn later _).rtake c.capacity
    rw [latest_concat, hn, List.rtake_concat_succ]
    by_cases hnew : c.isFresh later ⟨status, body, now⟩ = true
    · rw [freshIn_concat hnew, freshIn_concat hnew, List.rtake_concat_succ,
        ← h.fresh_others hle hn key]
      exact congrArg (· ++ [_]) (filter_rtake (h.ordered_fresh hkept later) n)
    · -- When the reply that was just stored is over, every one is.
      rw [freshIn_eq_nil hnew (hpast _ hlatest), List.rtake_nil]
      exact freshIn_eq_nil hnew (hpast _ ((rtake_sublist _ n).trans hkept))

/-- The answer to a question can be read off what was stored. -/
theorem get_fst (h : c.Recalls history now) (key : Option String) :
    (c.get key now).1 = (usable? key).bind fun k =>
      SortedMap.find? k ((c.freshIn now (latest history)).rtake c.capacity) := by
  rw [ReplayCache.get_fst, ← h.fresh now (Int.le_refl now)]
  exact congrArg (Option.bind _) (funext fun k => (SortedMap.find?_filter_value h.nodup).symm)

/-- Caches with the same limits that recall the same history give the same answers. -/
theorem get_fst_congr {c' : ReplayCache β} (h : c.Recalls history now) (h' : c'.Recalls history now)
    (httl : c.ttl = c'.ttl) (hcapacity : c.capacity = c'.capacity) (key : Option String) :
    (c.get key now).1 = (c'.get key now).1 := by
  rw [h.get_fst, h'.get_fst, freshIn, freshIn, hcapacity]
  unfold isFresh
  rw [httl]

/-- Of the latest replies those behind one that is not over are the latest of those stored after
it. -/
theorem exists_freshIn_latest (h : c.Recalls history now)
    {before after : List (String × StoredReply β)}
    (hhistory : history = before ++ (key, r) :: after) (hlast : key ∉ after.map Prod.fst)
    (hfresh : c.isFresh now r = true) :
    ∃ older, c.freshIn now (latest history) = older ++ (key, r) :: latest after := by
  obtain ⟨older, holder⟩ := exists_latest_append (r := r) before hlast
  have hordered := h.ordered_fresh (latest_sublist history) now
  rw [hhistory, holder] at hordered
  have hnewer := (List.pairwise_cons.mp (List.pairwise_append.mp hordered).2.1).1
  refine ⟨c.freshIn now older, ?_⟩
  rw [hhistory, holder, freshIn, freshIn, List.filter_append, List.filter_cons, if_pos hfresh,
    List.filter_eq_self.mpr fun e he => hnewer e he hfresh]

/-- A reply is found when it is the last of its key, is not over, and fewer keys were stored after
it than there is room for. -/
theorem get_eq_some_iff (h : c.Recalls history now) (husable : usable? (some key) = some key) :
    (c.get (some key) now).1 = some r ↔ ∃ before after, history = before ++ (key, r) :: after ∧
      key ∉ after.map Prod.fst ∧ c.isFresh now r = true ∧
        (after.map Prod.fst).toFinset.card < c.capacity := by
  have hnodup : ((c.freshIn now (latest history)).map Prod.fst).Nodup :=
    (nodup_latest history).sublist (List.filter_sublist.map Prod.fst)
  rw [h.get_fst, husable, Option.bind_some]
  constructor
  · intro hfind
    have hmem := (rtake_sublist _ _).subset (SortedMap.mem_of_find? hfind)
    obtain ⟨hlatest, hfresh⟩ := List.mem_filter.mp hmem
    obtain ⟨before, after, hhistory, hlast⟩ := exists_append_of_mem_latest hlatest
    obtain ⟨older, holder⟩ := h.exists_freshIn_latest hhistory hlast hfresh
    rw [holder] at hfind hnodup
    rw [SortedMap.find?_rtake_iff hnodup, length_latest] at hfind
    exact ⟨before, after, hhistory, hlast, hfresh, hfind⟩
  · rintro ⟨before, after, hhistory, hlast, hfresh, hroom⟩
    obtain ⟨older, holder⟩ := h.exists_freshIn_latest hhistory hlast hfresh
    rw [holder] at hnodup ⊢
    rwa [SortedMap.find?_rtake_iff hnodup, length_latest]

end Recalls

/-! ## Sequences -/

/-- What can happen to a cache: it is asked, or a reply is stored. -/
inductive Act (β : Type) where
  | get (key : Option String) (now : Instant)
  | set (key : Option String) (status : Nat) (body : β) (now : Instant)

namespace Act

def time : Act β → Instant
  | .get _ now => now
  | .set _ _ _ now => now

def isSet : Act β → Bool
  | .get _ _ => false
  | .set _ _ _ _ => true

/-- The reply that is stored under its key; under a blank one nothing is. -/
def stored? : Act β → Option (String × StoredReply β)
  | .get _ _ => none
  | .set key status body now => (usable? key).map fun k => (k, ⟨status, body, now⟩)

end Act

/-- The cache after something happened. -/
def perform (c : ReplayCache β) : Act β → ReplayCache β
  | .get key now => (c.get key now).2
  | .set key status body now => c.set key status body now

/-- The cache after several things happened, in their order. -/
def run (c : ReplayCache β) (acts : List (Act β)) : ReplayCache β := acts.foldl perform c

/-- All that was stored, the first reply first. -/
def stored (acts : List (Act β)) : List (String × StoredReply β) := acts.filterMap Act.stored?

theorem limits_perform (c : ReplayCache β) (act : Act β) :
    (c.perform act).ttl = c.ttl ∧ (c.perform act).capacity = c.capacity := by
  cases act with
  | get key now => exact limits_get c key now
  | set key status body now => exact limits_set c key status body now

theorem limits_run (c : ReplayCache β) (acts : List (Act β)) :
    (c.run acts).ttl = c.ttl ∧ (c.run acts).capacity = c.capacity := by
  induction acts generalizing c with
  | nil => exact ⟨rfl, rfl⟩
  | cons act acts ih =>
    obtain ⟨httl, hcapacity⟩ := limits_perform c act
    rw [← httl, ← hcapacity]
    exact ih (c.perform act)

theorem usable?_of_stored? {act : Act β} (h : act.stored? = some (key, r)) :
    usable? (some key) = some key := by
  cases act with
  | get key' now => cases h
  | set key' status body now =>
    obtain ⟨k, hk, heq⟩ := Option.map_eq_some_iff.mp h
    cases heq
    exact Option.filter_eq_some_iff.mpr ⟨rfl, (Option.filter_eq_some_iff.mp hk).2⟩

/-- Nothing is stored under a blank key. -/
theorem usable?_of_mem_stored {acts : List (Act β)} (h : (key, r) ∈ stored acts) :
    usable? (some key) = some key := by
  obtain ⟨act, _, hact⟩ := List.mem_filterMap.mp h
  exact usable?_of_stored? hact

/-- What is stored does not depend on what is asked. -/
theorem stored_filter_isSet (acts : List (Act β)) :
    stored (acts.filter Act.isSet) = stored acts := by
  unfold stored
  rw [List.filterMap_filter]
  refine List.filterMap_congr fun act _ => ?_
  cases act with
  | get key now => rfl
  | set key status body now => rfl

theorem Recalls.perform (h : c.Recalls history now) (hcapacity : 0 < c.capacity) (act : Act β)
    (htime : act.time = now) : (c.perform act).Recalls (history ++ act.stored?.toList) now := by
  obtain rfl := htime
  cases act with
  | get key now =>
    rw [Act.stored?, Option.toList_none, List.append_nil]
    exact h.get key
  | set key status body now =>
    rw [Act.stored?]
    cases hkey : usable? key with
    | none =>
      rw [Option.map_none, Option.toList_none, List.append_nil, ReplayCache.perform,
        ReplayCache.set, hkey]
      exact h
    | some k =>
      rw [Option.map_some, Option.toList_some]
      exact h.set hcapacity hkey status body

/-- Whatever happened up to a time, the cache has kept what it should. -/
theorem Recalls.run (ttl : Int) (capacity : Nat) (acts : List (Act β))
    (htimes : (acts.map Act.time ++ [now]).Pairwise (· ≤ ·)) :
    ((ReplayCache.empty ttl capacity).run acts).Recalls (stored acts) now := by
  induction acts using List.reverseRecOn generalizing now with
  | nil => exact .empty ttl capacity now
  | append_singleton acts act ih =>
    rw [List.map_append, List.map_singleton, List.pairwise_append] at htimes
    have hle : act.time ≤ now :=
      htimes.2.2 act.time List.mem_concat_self now (List.mem_singleton_self now)
    have hcapacity : 0 < ((ReplayCache.empty ttl capacity).run acts).capacity := by
      rw [(limits_run _ acts).2]
      exact Nat.le_max_right capacity 1
    have hstored : stored (acts ++ [act]) = stored acts ++ act.stored?.toList := by
      rw [stored, stored, List.filterMap_append, List.filterMap_cons]
      cases act.stored? <;> rfl
    rw [ReplayCache.run, List.foldl_append, hstored]
    exact ((ih htimes.1).perform hcapacity act rfl).mono hle

/-- Questions make no difference to later answers. -/
theorem get_fst_filter_isSet (ttl : Int) (capacity : Nat) (acts : List (Act β))
    (htimes : (acts.map Act.time ++ [now]).Pairwise (· ≤ ·)) (key : Option String) :
    (((empty ttl capacity).run acts).get key now).1 =
      (((empty ttl capacity).run (acts.filter Act.isSet)).get key now).1 := by
  have hsets : ((acts.filter Act.isSet).map Act.time ++ [now]).Pairwise (· ≤ ·) :=
    htimes.sublist ((List.filter_sublist.map Act.time).append_right [now])
  have hwith := Recalls.run ttl capacity acts htimes
  have hwithout := Recalls.run ttl capacity (acts.filter Act.isSet) hsets
  rw [stored_filter_isSet] at hwithout
  obtain ⟨httl, hcapacity⟩ := limits_run (empty ttl capacity) acts
  obtain ⟨httl', hcapacity'⟩ := limits_run (empty ttl capacity) (acts.filter Act.isSet)
  exact hwith.get_fst_congr hwithout (httl.trans httl'.symm) (hcapacity.trans hcapacity'.symm) key

/-- A cache that began empty finds a reply exactly when it is the last that was stored under its
key, is not over, and fewer other keys were stored after it than there is room for. What was asked
before makes no difference, and the cache never holds more than there is room for. -/
theorem answers_from_history (ttl : Int) {capacity : Nat} (hcapacity : 1 ≤ capacity)
    (acts : List (Act β)) (now : Instant)
    (htimes : (acts.map Act.time ++ [now]).Pairwise (· ≤ ·)) :
    let c := (empty ttl capacity : ReplayCache β).run acts
    (∀ key r, (c.get (some key) now).1 = some r ↔
      ∃ before after, stored acts = before ++ (key, r) :: after ∧ key ∉ after.map Prod.fst ∧
        now - r.createdAt < ttl ∧ (after.map Prod.fst).toFinset.card < capacity) ∧
      (∀ key, (c.get key now).1 =
        (((empty ttl capacity : ReplayCache β).run (acts.filter Act.isSet)).get key now).1) ∧
      c.entries.length ≤ capacity := by
  intro c
  have hrecalls : c.Recalls (stored acts) now := .run ttl capacity acts htimes
  obtain ⟨httl, hlimit⟩ : c.ttl = ttl ∧ c.capacity = max capacity 1 := limits_run _ acts
  rw [Nat.max_eq_left hcapacity] at hlimit
  refine ⟨fun key r => ?_, get_fst_filter_isSet ttl capacity acts htimes, hlimit ▸ hrecalls.room⟩
  cases husable : usable? (some key) with
  | none =>
    -- Nothing is found under a blank key, and nothing was stored under it.
    refine iff_of_false (fun hget => ?_) fun ⟨before, after, hstored, _⟩ => ?_
    · rw [get_fst, husable] at hget
      cases hget
    · have hmem : (key, r) ∈ stored acts := hstored ▸ List.mem_append_right _ List.mem_cons_self
      rw [usable?_of_mem_stored hmem] at husable
      cases husable
  | some k =>
    obtain rfl : key = k := Option.some.inj (Option.eq_some_of_filter_eq_some husable)
    rw [hrecalls.get_eq_some_iff husable, hlimit]
    simp only [isFresh, httl, decide_eq_true_iff]

/-- Three keys where there is room for two: the first is stored once more before the third comes, so
the second one has to go. -/
def crowded : List (Act String) :=
  [.set (some "a") 200 "first" 0, .set (some "b") 200 "second" 10, .get (some "a") 20,
    .set (some " ") 200 "blank" 25, .set (some "a") 201 "again" 30, .set (some "c") 200 "third" 40,
    .get (some "b") 50]

theorem answers_from_history_crowded :
    let c := (empty 100 2 : ReplayCache String).run crowded
    (c.get (some "a") 129).1 = some ⟨201, "again", 30⟩ ∧
      (c.get (some "b") 129).1 =
        (((empty 100 2 : ReplayCache String).run (crowded.filter Act.isSet)).get (some "b") 129).1 ∧
      c.entries.length ≤ 2 := by
  intro c
  have htimes : (crowded.map Act.time ++ [129]).Pairwise (· ≤ ·) := by decide
  have hstored : stored crowded = [("a", ⟨200, "first", 0⟩), ("b", ⟨200, "second", 10⟩)] ++
      ("a", ⟨201, "again", 30⟩) :: [("c", ⟨200, "third", 40⟩)] := rfl
  have hcapacity : 1 ≤ 2 := by decide
  obtain ⟨hfound, hasked, hroom⟩ := answers_from_history 100 hcapacity crowded 129 htimes
  refine ⟨(hfound _ _).mpr ⟨_, _, hstored, ?_, ?_, ?_⟩, hasked _, hroom⟩
  · decide
  · decide
  · decide

end ReplayCache

end SharedScene
