import SharedScene.Proofs.Scene.Delivery.Assignment
import SharedScene.Proofs.Scene.Reachable

/-!
# What coalescing delivers

An update that finds one of the same property of the same instance waiting gives it the new value
and does not wait itself. So the value is delivered early, at the path that was valid then, before
whatever was queued in between. None of those changes minds, as long as the instance is the same
one: a replica that takes all that was handed over ends with the scene of the store
(`Store.replica_holds_scene`).

The queue knows an instance by its id, and an id may come back. When an instance was deleted and
another one created with its id, an update of the new one goes into an update that waits for the old
one, and is lost with it (`Brings.push_of_predecessor`).
-/

namespace SharedScene

open Forest

/-! ## One more change in the queue -/

namespace PendingQueue

variable {q : PendingQueue} {id target : InstanceId} {key : String} {value : Value}
  {entries merged earlier later : List PendingChange} {c : PendingChange} {f g g' : Forest}
  {message : Message} {path : Path}

/-- Where a value went that took the place of another one. -/
theorem merge?_eq_some (h : merge? (id, key) value entries = some merged) :
    ∃ earlier c later, entries = earlier ++ c :: later ∧ c.sharedKey? = some (id, key) ∧
      merged = earlier ++ c.withValue value :: later := by
  induction entries generalizing merged with
  | nil => cases h
  | cons first rest ih =>
    rw [merge?] at h
    split at h
    · next hfirst =>
      cases h
      exact ⟨[], first, rest, rfl, hfirst, rfl⟩
    · obtain ⟨merged', hmerged', rfl⟩ := Option.map_eq_some_iff.mp h
      obtain ⟨earlier, c, later, rfl, hc, rfl⟩ := ih hmerged'
      exact ⟨first :: earlier, c, later, rfl, hc, rfl⟩

theorem merge?_eq_none (h : merge? (id, key) value entries = none) :
    ∀ c ∈ entries, c.sharedKey? ≠ some (id, key) := by
  induction entries with
  | nil => exact fun c hc => absurd hc List.not_mem_nil
  | cons first rest ih =>
    rw [merge?] at h
    split at h
    · cases h
    · next hfirst =>
      exact List.forall_mem_cons.mpr ⟨hfirst, ih (Option.map_eq_none_iff.mp h)⟩

/-- A change goes to the end of the queue, where none has its key, or it is an update whose value
goes into one that waits. -/
theorem push_cases (q : PendingQueue) (target : InstanceId) (message : Message) :
    ((q.push target message).entries = q.entries ++ [⟨q.nextSequence, target, message⟩] ∧
      ∀ key, (PendingChange.mk q.nextSequence target message).sharedKey? = some key →
        ∀ c ∈ q.entries, c.sharedKey? ≠ some key) ∨
    ∃ path key value earlier n path' old later, message = .update path key value ∧ key ≠ nameKey ∧
      q.entries = earlier ++ ⟨n, target, .update path' key old⟩ :: later ∧
      (q.push target message).entries =
        earlier ++ ⟨n, target, .update path' key value⟩ :: later := by
  unfold push
  cases message with
  | update path key value =>
    dsimp only
    by_cases hkey : key = nameKey
    · have hnone : (PendingChange.mk q.nextSequence target (.update path key value)).sharedKey? =
          none := if_pos hkey
      rw [hnone]
      exact .inl ⟨rfl, fun k hk => (by cases hk)⟩
    · have hshared : (PendingChange.mk q.nextSequence target (.update path key value)).sharedKey? =
          some (target, key) := if_neg hkey
      rw [hshared]
      dsimp only
      cases hmerge : merge? (target, key) value q.entries with
      | none =>
        refine .inl ⟨rfl, fun k hk => ?_⟩
        obtain rfl := Option.some.inj hk
        exact merge?_eq_none hmerge
      | some merged =>
        obtain ⟨earlier, ⟨n, _, _⟩, later, hentries, hc, rfl⟩ := merge?_eq_some hmerge
        obtain ⟨rfl, _, path', old, hc⟩ := PendingChange.sharedKey?_eq_some.mp hc
        cases hc
        exact .inr ⟨path, key, value, earlier, n, path', old, later, rfl, hkey, hentries, rfl⟩
  | create | delete | reparent =>
    exact .inl ⟨rfl, fun k hk => (by cases hk)⟩

/-! ## A new value in an old place -/

/-- Whether an update of a property waits for an instance that has a successor: a later change in
the queue creates an instance with its id. -/
def waitsForPredecessor (id : InstanceId) (key : String) : List PendingChange → Bool
  | [] => false
  | c :: rest =>
    (decide (c.sharedKey? = some (id, key)) && rest.any fun later => later.creates id) ||
      waitsForPredecessor id key rest

theorem waitsForPredecessor_of_forall_ne (h : ∀ c ∈ entries, c.sharedKey? ≠ some (id, key)) :
    waitsForPredecessor id key entries = false := by
  induction entries with
  | nil => rfl
  | cons first rest ih =>
    rw [List.forall_mem_cons] at h
    rw [waitsForPredecessor, decide_eq_false h.1, Bool.false_and, Bool.false_or, ih h.2]

theorem ne_nameKey_of_waitsForPredecessor (h : waitsForPredecessor id key entries = true) :
    key ≠ nameKey := by
  rintro rfl
  rw [waitsForPredecessor_of_forall_ne fun c _ hc =>
    (PendingChange.sharedKey?_eq_some.mp hc).2.1 rfl] at h
  cases h

/-- The only update of its key that waits decides. -/
theorem waitsForPredecessor_of_split (hc : c.sharedKey? = some (id, key))
    (hothers : ∀ c' ∈ earlier ++ later, c'.sharedKey? ≠ some (id, key)) :
    waitsForPredecessor id key (earlier ++ c :: later) = later.any fun c' => c'.creates id := by
  induction earlier with
  | nil =>
    rw [List.nil_append] at hothers
    rw [List.nil_append, waitsForPredecessor, hc, decide_eq_true rfl, Bool.true_and,
      waitsForPredecessor_of_forall_ne hothers, Bool.or_false]
  | cons first earlier ih =>
    rw [List.cons_append, List.forall_mem_cons] at hothers
    rw [List.cons_append, waitsForPredecessor, decide_eq_false hothers.1, Bool.false_and,
      Bool.false_or, ih hothers.2]

/-- A property that is assigned before changes that create the instance, and do not set the property
of the one before, makes no difference. -/
theorem deliverAll?_assign_of_creates (hkey : key ≠ nameKey)
    (hcreates : (later.any fun c => c.creates id) = true)
    (hshared : ∀ c ∈ later, c.sharedKey? ≠ some (id, key))
    (h : f.deliverAll? later = some g) (value : Value) :
    (f.assign id key value).deliverAll? later = some g := by
  induction later generalizing f with
  | nil => cases hcreates
  | cons c later ih =>
    rw [List.any_cons] at hcreates
    rw [List.forall_mem_cons] at hshared
    cases hfirst : c.creates id with
    | true =>
      rw [deliverAll?_cons] at h
      obtain ⟨f', hf', _⟩ := Option.bind_eq_some_iff.mp h
      rw [assign_of_not_mem (not_mem_ids_of_creates hfirst hf'), deliverAll?_cons]
      exact h
    | false =>
      rw [hfirst, Bool.false_or] at hcreates
      rw [deliverAll?_cons] at h ⊢
      obtain ⟨f', hf', h⟩ := Option.bind_eq_some_iff.mp h
      rw [deliver?_assign hkey hfirst hshared.1 hf' value]
      exact ih hcreates hshared.2 h

/-- A new value in the place of an old one is assigned after the old one. -/
theorem exists_deliverAll?_of_merged (hf : f.ids.Nodup) (hkey : key ≠ nameKey) {n : Nat}
    {old : Value}
    (h : f.deliverAll? (earlier ++ ⟨n, id, .update path key old⟩ :: later) = some g)
    (value : Value) : ∃ f' : Forest, f'.deliverAll? later = some g ∧
      f.deliverAll? (earlier ++ ⟨n, id, .update path key value⟩ :: later) =
        (f'.assign id key value).deliverAll? later := by
  rw [deliverAll?_append] at h
  obtain ⟨f₀, hf₀, h⟩ := Option.bind_eq_some_iff.mp h
  obtain ⟨f₁, hf₁, h⟩ := Option.bind_eq_some_iff.mp h
  have hnodup := nodup_ids_deliverAll? hf hf₀
  obtain ⟨hid, rfl⟩ := (deliver?_update hnodup hkey n old).mp hf₁
  have hnew : f₀.deliver? ⟨n, id, .update path key value⟩ = some (f₀.assign id key value) :=
    (deliver?_update hnodup hkey n value).mpr ⟨hid, rfl⟩
  refine ⟨f₀.assign id key old, h, ?_⟩
  rw [deliverAll?_append, hf₀, Option.bind_some, deliverAll?_cons, hnew, Option.bind_some,
    assign_assign]

/-- What waits brings one forest to another one, and no two updates that wait have the same key. -/
structure Brings (q : PendingQueue) (f g : Forest) : Prop where
  delivered : f.deliverAll? q.entries = some g
  nodup : (q.entries.filterMap PendingChange.sharedKey?).Nodup

namespace Brings

theorem of_entries_eq_nil (h : q.entries = []) (f : Forest) : q.Brings f f where
  delivered := by rw [h]; rfl
  nodup := by rw [h]; exact List.nodup_nil

/-- An update that waits is the only one of its key. -/
theorem sharedKey?_ne (h : q.Brings f g) (hentries : q.entries = earlier ++ c :: later)
    (hc : c.sharedKey? = some (id, key)) :
    ∀ c' ∈ earlier ++ later, c'.sharedKey? ≠ some (id, key) := by
  intro c' hc' hshared
  have hnodup := h.nodup
  rw [hentries, List.filterMap_append, List.filterMap_cons_some hc, List.nodup_middle,
    ← List.filterMap_append] at hnodup
  exact (List.nodup_cons.mp hnodup).1 (List.mem_filterMap.mpr ⟨c', hc', hshared⟩)

/-- What waits brings a forest to where one more change leads, if that change is not an update for
the successor of an instance whose update waits. -/
theorem push (h : q.Brings f g) (hf : f.ids.Nodup)
    (hdeliver : ∀ n, g.deliver? ⟨n, target, message⟩ = some g')
    (hcurrent : ∀ path key value, message = .update path key value → key ≠ nameKey →
      waitsForPredecessor target key q.entries = false) :
    (q.push target message).Brings f g' := by
  rcases push_cases q target message with ⟨hentries, hfresh⟩ |
    ⟨path, key, value, earlier, n, path', old, later, rfl, hkey, hentries, hmerged⟩
  · constructor
    · rw [hentries, deliverAll?_append, h.delivered, Option.bind_some, deliverAll?_cons, hdeliver]
      rfl
    · rw [hentries, List.filterMap_append]
      cases hshared : (PendingChange.mk q.nextSequence target message).sharedKey? with
      | none =>
        rw [List.filterMap_cons_none hshared, List.filterMap_nil, List.append_nil]
        exact h.nodup
      | some key =>
        rw [List.filterMap_cons_some hshared, List.filterMap_nil]
        refine h.nodup.append (List.nodup_singleton key)
          (List.disjoint_singleton.mpr fun hold => ?_)
        obtain ⟨c, hc, hsame⟩ := List.mem_filterMap.mp hold
        exact hfresh key hshared c hc hsame
  · have hshared : ∀ value : Value,
        (PendingChange.mk n target (.update path' key value)).sharedKey? = some (target, key) :=
      fun value => if_neg hkey
    have hg : g' = g.assign target key value :=
      ((deliver?_update (nodup_ids_deliverAll? hf h.delivered) hkey 0 value).mp (hdeliver 0)).2
    have hothers := h.sharedKey?_ne hentries (hshared old)
    have hwaits := hcurrent path key value rfl hkey
    rw [hentries, waitsForPredecessor_of_split (hshared old) hothers, List.any_eq_false] at hwaits
    constructor
    · obtain ⟨f', hf', hnew⟩ := exists_deliverAll?_of_merged hf hkey (hentries ▸ h.delivered) value
      rw [hmerged, hg, hnew]
      exact deliverAll?_assign hkey (fun c hc => Bool.not_eq_true _ ▸ hwaits c hc)
        (fun c hc => hothers c (List.mem_append_right _ hc)) hf' value
    · have hnodup := h.nodup
      rw [hentries, List.filterMap_append, List.filterMap_cons_some (hshared old)] at hnodup
      rw [hmerged, List.filterMap_append, List.filterMap_cons_some (hshared value)]
      exact hnodup

/-- An update for the successor of an instance whose update waits is lost: the value goes to the
predecessor, and a replica ends where it would have ended without the update. -/
theorem push_of_predecessor (h : q.Brings f g) (hf : f.ids.Nodup) (hkey : key ≠ nameKey)
    (hwaits : waitsForPredecessor id key q.entries = true) (path : Path) (value : Value) :
    f.deliverAll? (q.push id (.update path key value)).entries = some g := by
  rcases push_cases q id (.update path key value) with ⟨_, hfresh⟩ |
    ⟨_, _, _, earlier, n, path', old, later, ⟨⟩, _, hentries, hmerged⟩
  · have hnone := waitsForPredecessor_of_forall_ne (hfresh (id, key) (if_neg hkey))
    rw [hnone] at hwaits
    cases hwaits
  · have hshared : (PendingChange.mk n id (.update path' key old)).sharedKey? = some (id, key) :=
      if_neg hkey
    have hothers := h.sharedKey?_ne hentries hshared
    rw [hentries, waitsForPredecessor_of_split hshared hothers] at hwaits
    obtain ⟨f', hf', hnew⟩ := exists_deliverAll?_of_merged hf hkey (hentries ▸ h.delivered) value
    rw [hmerged, hnew]
    exact deliverAll?_assign_of_creates hkey hwaits
      (fun c hc => hothers c (List.mem_append_right _ hc)) hf' value

end Brings

end PendingQueue

/-! ## Turn by turn -/

namespace Store

/-- What can happen to a store that a bridge empties from time to time. -/
inductive Turn where
  | apply (message : Message) (origin : Origin)
  | takePending

/-- Whether the bridge hears of what happens: of all that agents and the projection ask for. -/
def Turn.isHeard : Turn → Bool
  | .apply _ origin => origin.needsDelivery
  | .takePending => true

/-- A store, and all that was handed to the bridge so far, oldest first. -/
structure Bridged where
  store : Store
  handed : List PendingChange

namespace Bridged

/-- A store and its bridge after one turn. A message that is refused leaves both as they are. -/
def perform (b : Bridged) : Turn → Bridged
  | .apply message origin =>
    match b.store.apply message origin with
    | .ok (_, store) => { b with store }
    | .error _ => b
  | .takePending => ⟨b.store.takePending, b.handed ++ b.store.pending.entries⟩

def run (b : Bridged) (turns : List Turn) : Bridged := turns.foldl perform b

/-- Whether a turn updates a property while an update of it waits for a predecessor of the
instance. -/
def misdirects (b : Bridged) : Turn → Bool
  | .apply (.update path key value) origin =>
    (b.store.apply (.update path key value) origin).isOk &&
      (b.store.forest.idAt? path).any fun id =>
        PendingQueue.waitsForPredecessor id key b.store.pending.entries
  | _ => false

/-- Whether one of several turns does. -/
def everMisdirects (b : Bridged) : List Turn → Bool
  | [] => false
  | turn :: turns => b.misdirects turn || (b.perform turn).everMisdirects turns

/-- A replica that began with a forest and took all that was handed over is brought to the forest of
the store by what waits. -/
structure Faithful (b : Bridged) (f : Forest) : Prop where
  wellFormed : b.store.forest.WellFormed
  queue : ∃ g, f.deliverAll? b.handed = some g ∧ b.store.pending.Brings g b.store.forest

variable {b : Bridged} {f : Forest} {turn : Turn}

/-- What a replica holds when everything is handed over. -/
theorem Faithful.delivered (h : b.Faithful f) :
    f.deliverAll? (b.perform .takePending).handed = some b.store.forest := by
  obtain ⟨g, hg, hbrings⟩ := h.queue
  show f.deliverAll? (b.handed ++ b.store.pending.entries) = _
  rw [deliverAll?_append, hg]
  exact hbrings.delivered

theorem Faithful.perform (h : b.Faithful f) (hf : f.ids.Nodup)
    (hheard : turn.isHeard = true) (hcurrent : b.misdirects turn = false) :
    (b.perform turn).Faithful f := by
  obtain ⟨g, hg, hbrings⟩ := h.queue
  cases turn with
  | takePending =>
    exact ⟨h.wellFormed, b.store.forest, h.delivered, .of_entries_eq_nil rfl _⟩
  | apply message origin =>
    simp only [Bridged.perform]
    cases ha : b.store.apply message origin with
    | error e => exact h
    | ok applied =>
      obtain ⟨outcome, s'⟩ := applied
      rcases apply_cases h.wellFormed ha with rfl | hchanged
      · exact h
      · refine ⟨hchanged.wellFormed, g, hg, ?_⟩
        obtain ⟨target, resolved, hpending, hdeliver, hresolved⟩ := hchanged.queued
        have hneeds : origin.needsDelivery = true := hheard
        rw [if_pos hneeds] at hpending
        show s'.pending.Brings g s'.forest
        rw [hpending]
        refine hbrings.push (nodup_ids_deliverAll? hf hg) hdeliver ?_
        rintro path key value rfl hkey
        rcases hresolved with rfl | hshared
        · have hid := ((deliver?_update h.wellFormed.nodup_ids hkey 0 value).mp (hdeliver 0)).1
          simp only [misdirects, ha, hid] at hcurrent
          exact hcurrent
        · have hsome : (PendingChange.mk 0 target (.update path key value)).sharedKey? =
              some (target, key) := if_neg hkey
          exact absurd (hsome.symm.trans (hshared 0).1) (Option.some_ne_none _)

/-- An update that is misdirected is lost: when everything is handed over, a replica holds the
forest of before. -/
theorem Faithful.delivered_of_misdirects (h : b.Faithful f) (hf : f.ids.Nodup)
    (hheard : turn.isHeard = true) (hmisdirects : b.misdirects turn = true) :
    f.deliverAll? ((b.perform turn).perform .takePending).handed = some b.store.forest := by
  obtain ⟨g, hg, hbrings⟩ := h.queue
  obtain ⟨path, key, value, origin, rfl⟩ : ∃ path key value origin,
      turn = .apply (.update path key value) origin := by
    cases turn with
    | takePending => cases hmisdirects
    | apply message origin => cases message with
      | update path key value => exact ⟨path, key, value, origin, rfl⟩
      | create | delete | reparent => cases hmisdirects
  cases ha : b.store.apply (.update path key value) origin with
  | error e =>
    simp only [misdirects, ha] at hmisdirects
    cases hmisdirects
  | ok applied =>
    obtain ⟨outcome, s'⟩ := applied
    have hperform :
        b.perform (.apply (.update path key value) origin) = { b with store := s' } := by
      simp only [Bridged.perform, ha]
    rw [hperform]
    rcases apply_cases h.wellFormed ha with rfl | hchanged
    · exact h.delivered
    · obtain ⟨target, resolved, hpending, hdeliver, hresolved⟩ := hchanged.queued
      have hneeds : origin.needsDelivery = true := hheard
      rw [if_pos hneeds] at hpending
      simp only [misdirects, ha, Option.any_eq_true, Bool.and_eq_true] at hmisdirects
      obtain ⟨_, id, hid, hwaits⟩ := hmisdirects
      have hkey := PendingQueue.ne_nameKey_of_waitsForPredecessor hwaits
      show f.deliverAll? (b.handed ++ s'.pending.entries) = _
      rw [deliverAll?_append, hg, hpending]
      rcases hresolved with rfl | hshared
      · have htarget := ((deliver?_update h.wellFormed.nodup_ids hkey 0 value).mp (hdeliver 0)).1
        obtain rfl := Option.some.inj (hid.symm.trans htarget)
        exact hbrings.push_of_predecessor (nodup_ids_deliverAll? hf hg) hkey hwaits path value
      · have hsome : (PendingChange.mk 0 target (.update path key value)).sharedKey? =
            some (target, key) := if_neg hkey
        exact absurd (hsome.symm.trans (hshared 0).2) (Option.some_ne_none _)

theorem Faithful.run (h : b.Faithful f) (hf : f.ids.Nodup) {turns : List Turn}
    (hheard : ∀ turn ∈ turns, turn.isHeard = true)
    (hcurrent : b.everMisdirects turns = false) : (b.run turns).Faithful f := by
  induction turns generalizing b with
  | nil => exact h
  | cons turn turns ih =>
    rw [everMisdirects, Bool.or_eq_false_iff] at hcurrent
    rw [List.forall_mem_cons] at hheard
    exact ih (h.perform hf hheard.1 hcurrent.1) hheard.2 hcurrent.2

end Bridged

/-- A replica that begins with the scene of a store for which nothing waits, and takes all that is
handed to the bridge from then on, holds the scene of the store after every delivery: the same
instances in the same places and order, with the same properties. This asks that no update is for
the successor of an instance while one of the same property waits for its predecessor. Such an
update is lost: the replica keeps the scene of before. -/
theorem replica_holds_scene {s : Store} (h : s.Reachable) (hempty : s.pending.entries = [])
    {turns : List Turn} (hheard : ∀ turn ∈ turns, turn.isHeard = true)
    (hcurrent : (Bridged.mk s []).everMisdirects turns = false) :
    let b := (Bridged.mk s []).run turns
    s.forest.deliverAll? (b.perform .takePending).handed = some b.store.forest ∧
      ∀ turn : Turn, turn.isHeard = true → b.misdirects turn = true →
        s.forest.deliverAll? ((b.perform turn).perform .takePending).handed =
          some b.store.forest := by
  intro b
  have hnodup := h.wellFormed.nodup_ids
  have hbegin : (Bridged.mk s []).Faithful s.forest :=
    ⟨h.wellFormed, s.forest, rfl, .of_entries_eq_nil hempty s.forest⟩
  have hfaithful := hbegin.run hnodup hheard hcurrent
  exact ⟨hfaithful.delivered, fun turn => hfaithful.delivered_of_misdirects hnodup⟩

/-- A request for a box with a fixed id. -/
def newBox : Message := .create [] ⟨some ⟨"a"⟩, "Part", "Box", .empty⟩

/-- A box is locked past a new name and a lid inside, then both go, and the box comes back. -/
def rebuilt : List Turn :=
  [.apply newBox .agent, .takePending,
    .apply (.update ["Box"] "Locked" (.bool false)) .projection,
    .apply (.update ["Box"] nameKey (.string "Crate")) .agent,
    .apply (.create ["Crate"] ⟨none, "Part", "Lid", .empty⟩) .agent,
    .apply (.update ["Crate"] "Locked" (.bool true)) .agent,
    .apply (.delete ["Crate"]) .agent,
    .apply newBox .agent]

/-- The new box is locked while an update waits for the old one. -/
def relock : Turn := .apply (.update ["Box"] "Locked" (.bool true)) .agent

/-- Two updates make one message of six, and a replica follows; an update that comes next is
lost. -/
theorem replica_holds_scene_rebuilt :
    ((Bridged.mk (empty (.stemmed "id")) []).run rebuilt
      |>.perform .takePending).handed.length = 6 ∧
    (empty (.stemmed "id")).forest.deliverAll?
        (((Bridged.mk (empty (.stemmed "id")) []).run rebuilt).perform .takePending).handed =
      some ((Bridged.mk (empty (.stemmed "id")) []).run rebuilt).store.forest ∧
    (empty (.stemmed "id")).forest.deliverAll?
        ((((Bridged.mk (empty (.stemmed "id")) []).run rebuilt).perform relock).perform
          .takePending).handed =
      some ((Bridged.mk (empty (.stemmed "id")) []).run rebuilt).store.forest := by
  have hcurrent : (Bridged.mk (empty (.stemmed "id")) []).everMisdirects rebuilt = false := by
    decide +kernel
  have hmisdirects :
      ((Bridged.mk (empty (.stemmed "id")) []).run rebuilt).misdirects relock = true := by
    decide +kernel
  obtain ⟨hholds, hlost⟩ := replica_holds_scene (.empty (.stemmed "id")) rfl (by decide) hcurrent
  exact ⟨by decide +kernel, hholds, hlost relock rfl hmisdirects⟩

/-- A box is unlocked, goes, and comes back under its id to be locked. -/
def relocked : List Turn :=
  [.apply newBox .agent, .takePending,
    .apply (.update ["Box"] "Locked" (.bool false)) .agent,
    .apply (.delete ["Box"]) .agent,
    .apply newBox .agent,
    .apply (.update ["Box"] "Locked" (.bool true)) .agent]

/-- Without the condition a replica may miss an update: the new box is not locked there. -/
theorem replica_misses_update_relocked :
    ¬ ∀ (s : Store) (turns : List Turn), s.Reachable → s.pending.entries = [] →
      (∀ turn ∈ turns, turn.isHeard = true) →
      s.forest.deliverAll? (((Bridged.mk s []).run turns).perform .takePending).handed =
        some ((Bridged.mk s []).run turns).store.forest := by
  intro h
  have hholds := h (empty (.stemmed "id")) relocked (.empty _) rfl (by decide)
  have hlocked := congrArg (Option.map fun f =>
    (f.find? ["Box"]).any fun node => (node.1.properties.get? "Locked").isSome) hholds
  revert hlocked
  decide +kernel

end Store

end SharedScene
