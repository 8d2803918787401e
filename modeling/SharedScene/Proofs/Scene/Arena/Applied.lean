import SharedScene.Proofs.Scene.Arena.Subtree
import SharedScene.Proofs.Scene.Recorded

/-!
# All of a change, or nothing of it

A message is written into many places: the supply of ids, the nodes, the lists of children, the two
directions of the index, the revision, the events, and the changes that wait for the bridge. It has
many reasons to be refused as well, and one that were found after the first of these writes would
leave half of a change behind.

None is: a message that is refused or dropped leaves everything as it was, and of one that is
applied everything is written (`ArenaStore.change_is_all_or_nothing`, `ArenaStore.Recorded`).
-/

namespace SharedScene.ArenaStore

/-- What is written of a message that was applied, and what is reported of it. -/
structure Recorded (t : ArenaStore) (message : Message) (origin : Origin) (change : Applied)
    (t' : ArenaStore) : Prop where
  /-- The revision rises by one, -/
  revision : t'.revision = t.revision + 1
  /-- and is the one that is reported, -/
  reported : change.revision = t'.revision
  /-- with the kind of the message, -/
  kind : change.kind = message.kind
  /-- the path where the instance is then, or of a delete where it was, -/
  path : (if message.kind = .delete then t else t').arena.ids.get? change.id = some change.path
  /-- and its name there. -/
  name : change.path.name? = some change.name
  /-- There is one more event, about the same instance, -/
  told : ∃ event, t'.outbox = t.outbox ++ [event] ∧ event.id = change.id ∧ event.ReportsOn message
  /-- and unless the bridge knows already, one more change is queued. -/
  queued : t'.pending = if origin.needsDelivery
    then t.pending.push change.id (Store.settled change.id change.name message) else t.pending

variable {s s' : Store} {t t' : ArenaStore} {message : Message} {origin : Origin}
  {change : Applied}

/-- What is recorded in a store is recorded beside its tables. -/
theorem Shows.recorded (h : t.Shows s) (h' : t'.Shows s')
    (hr : s.Recorded message origin change s') : t.Recorded message origin change t' := by
  have hpath := hr.path
  obtain ⟨ha⟩ := h
  obtain ⟨hb⟩ := h'
  refine ⟨hr.revision, hr.reported, hr.kind, ?_, hr.name, hr.told, hr.queued⟩
  split at hpath
  · next hdelete =>
    rw [if_pos hdelete]
    exact (ha.path _).trans hpath
  · next hkeep =>
    rw [if_neg hkeep]
    exact (hb.path _).trans hpath

/-- A message is answered as by the store that the tables show. One that is refused or dropped
leaves all tables and everything beside them as they are, and only a create is dropped. One that is
applied raises the revision once, tells of one event, and queues one change unless it comes from the
bridge. -/
theorem change_is_all_or_nothing (h : t.Reachable) (message : Message) (origin : Origin) :
    (∃ s : Store, s.Reachable ∧ t.Shows s ∧
      t.Answers (s.apply message origin) ((apply message origin).run t)) ∧
    (∀ e t', (apply message origin).run t = .error e t' → t' = t) ∧
    (∀ q t', (apply message origin).run t = .ok (.dropped q) t' →
      t' = t ∧ ∃ new, message = .create q new) ∧
    (∀ change t', (apply message origin).run t = .ok (.applied change) t' →
      t.Recorded message origin change t') := by
  obtain ⟨s, hs, hshows⟩ := h.exists_shows
  have hanswers : t.Answers (s.apply message origin) ((apply message origin).run t) :=
    run_apply hshows hs.wellFormed message
  refine ⟨⟨s, hs, hshows, hanswers⟩, fun e t' hrun => (hanswers.of_error hrun).2,
    fun q t' hrun => ?_, fun change t' hrun => ?_⟩
  · obtain ⟨s', ha, hshows'⟩ := hanswers.exists_of_ok hrun
    obtain ⟨rfl, hcreate⟩ := Store.eq_of_dropped ha
    exact ⟨hshows'.unique hshows, hcreate⟩
  · obtain ⟨s', ha, hshows'⟩ := hanswers.exists_of_ok hrun
    exact hshows.recorded hshows' (Store.recorded_apply hs.wellFormed ha)

/-- A box cannot go to the room without a name, and nothing is written. With its own name it can,
and is the second box there. -/
theorem change_is_all_or_nothing_furnished :
    (∃ e, (apply (.reparent ["Shelf", "Box"] ["Room"] (some "")) .agent).run furnished =
      .error e furnished) ∧
    ∃ change t', (apply (.reparent ["Shelf", "Box"] ["Room"] none) .agent).run furnished =
        .ok (.applied change) t' ∧
      t'.revision = 2 ∧ change.revision = 2 ∧
      t'.pending = furnished.pending.push ⟨"b"⟩
        (.reparent ["Shelf", "Box"] ["Room"] (some "Box_2")) := by
  have hreachable : furnished.Reachable := .replaceAll _ (.empty _)
  constructor
  · obtain ⟨e, t', hrun⟩ : ∃ e t',
        (apply (.reparent ["Shelf", "Box"] ["Room"] (some "")) .agent).run furnished =
          .error e t' := ⟨_, _, rfl⟩
    obtain ⟨_, hrefused, _⟩ := change_is_all_or_nothing hreachable
      (.reparent ["Shelf", "Box"] ["Room"] (some "")) .agent
    obtain rfl := hrefused e t' hrun
    exact ⟨e, hrun⟩
  · obtain ⟨change, t', hrun, hid, hname⟩ : ∃ change t',
        (apply (.reparent ["Shelf", "Box"] ["Room"] none) .agent).run furnished =
          .ok (.applied change) t' ∧ change.id = ⟨"b"⟩ ∧ change.name = "Box_2" :=
      ⟨_, _, rfl, by decide +kernel, by decide +kernel⟩
    obtain ⟨_, _, _, happlied⟩ := change_is_all_or_nothing hreachable
      (.reparent ["Shelf", "Box"] ["Room"] none) .agent
    have hrecorded := happlied change t' hrun
    have hrevision : t'.revision = 2 := hrecorded.revision
    refine ⟨change, t', hrun, hrevision, hrecorded.reported.trans hrevision, ?_⟩
    rw [hrecorded.queued, hid, hname]
    rfl

end SharedScene.ArenaStore
