import SharedScene.Proofs.Scene.Subtree

/-!
# What an applied message leaves

A message that is applied leaves more than another forest: the revision has risen, there is an event
about the instance, and the bridge gets the message unless it has sent it (`Recorded`,
`recorded_apply`). The queued message is **settled**: it says which id and which name the instance
got.
-/

namespace SharedScene

namespace Store

/-- The message with what was settled as it was applied: the id and the name of a new instance, and
the name that a rename or a move came to. -/
def settled (id : InstanceId) (name : String) : Message → Message
  | .create q new => .create q { new with id := some id, name }
  | .update path key value => .update path key (if key = nameKey then .string name else value)
  | .delete path => .delete path
  | .reparent path q _ => .reparent path q (some name)

/-- What is written of a message that was applied, and what is reported of it. -/
structure Recorded (s : Store) (message : Message) (origin : Origin) (change : Applied)
    (s' : Store) : Prop where
  /-- The revision rises by one, -/
  revision : s'.revision = s.revision + 1
  /-- and is the one that is reported, -/
  reported : change.revision = s'.revision
  /-- with the kind of the message, -/
  kind : change.kind = message.kind
  /-- the path where the instance is then, or of a delete where it was, -/
  path : Forest.pathOf? change.id (if message.kind = .delete then s else s').forest =
    some change.path
  /-- and its name there. -/
  name : change.path.name? = some change.name
  /-- There is one more event, about the same instance, -/
  told : ∃ event, s'.outbox = s.outbox ++ [event] ∧ event.id = change.id ∧ event.ReportsOn message
  /-- and unless the bridge knows already, one more change is queued. -/
  queued : s'.pending = if origin.needsDelivery
    then s.pending.push change.id (settled change.id change.name message) else s.pending

section Recorded

open Forest

variable {s s' : Store} {origin : Origin} {path q : Path} {change : Applied}

/-- A new instance stands under the parent that was asked for. -/
theorem recorded_create (h : s.forest.WellFormed) {new : NewInstance}
    (ha : s.create q new origin = .ok (.applied change, s')) :
    s.Recorded (.create q new) origin change s' := by
  have hcases := create_cases h ha
  rcases create_eq_ok ha with ⟨heq, _⟩ | ⟨siblings, ids, id, hq, _, _, _, heq, rfl⟩
  · cases heq
  cases heq
  rcases hcases with hsame | hchanged
  · exact absurd (congrArg Store.revision hsame) (Nat.succ_ne_self _)
  have hchildren : (s.forest.childrenAt? q).isSome := by rw [hq]; rfl
  have hrow := hchanged.wellFormed.placed?_eq_some_iff.mpr
    ⟨(table_graft _ hchildren).mem_iff.mpr List.mem_cons_self, rfl⟩
  have hpath := hchanged.wellFormed.pathOf?_of_placed? hrow
    (hchanged.parentPath?_eq h hchildren fun _ _ hd => hd)
  exact ⟨rfl, rfl, rfl, hpath, Path.name?_child _ _, ⟨_, rfl, rfl, List.dropLast_concat⟩, rfl⟩

theorem recorded_update (h : s.forest.WellFormed) {key : String} {value : Value}
    (ha : s.update path key value origin = .ok (.applied change, s')) :
    s.Recorded (.update path key value) origin change s' := by
  have hchanged := update_changed h ha
  obtain ⟨item, children, hfind, ⟨rfl, desired, hrename⟩ | ⟨hkey, heq, rfl⟩⟩ := update_eq_ok ha
  · have hpath := (moves_of_rename h ha).1.path
    obtain ⟨_, heq, rfl⟩ := rename_eq_ok hrename
    cases heq
    exact ⟨rfl, rfl, rfl, hpath, Path.name?_child _ _, ⟨_, rfl, rfl, rfl, rfl⟩, rfl⟩
  · cases heq
    have hne : key ≠ nameKey := ne_of_unreserved hkey rfl
    have hpath := hchanged.pathOf?_eq h (pathOf?_of_find? (WellFormed.nodup_ids h) hfind)
      fun _ _ hd => hne hd.2
    refine ⟨rfl, rfl, rfl, hpath, ?_, ⟨_, rfl, rfl, rfl, rfl⟩, ?_⟩
    · rw [eq_child_of_find? hfind]
      exact Path.name?_child _ _
    · rw [settled, if_neg hne]
      rfl

theorem recorded_delete (h : s.forest.WellFormed)
    (ha : s.delete path origin = .ok (.applied change, s')) :
    s.Recorded (.delete path) origin change s' := by
  obtain ⟨item, children, hfind, heq, rfl⟩ := delete_eq_ok ha
  cases heq
  refine ⟨rfl, rfl, rfl, pathOf?_of_find? (WellFormed.nodup_ids h) hfind, ?_,
    ⟨_, rfl, rfl, rfl⟩, rfl⟩
  rw [eq_child_of_find? hfind]
  exact Path.name?_child _ _

theorem recorded_reparent (h : s.forest.WellFormed) {name : Option String}
    (ha : s.reparent path q name origin = .ok (.applied change, s')) :
    s.Recorded (.reparent path q name) origin change s' := by
  have hpath := (moves_of_reparent h ha).1.path
  obtain ⟨item, children, hfind, _, _, _, heq, rfl⟩ := reparent_eq_ok ha
  cases heq
  exact ⟨rfl, rfl, rfl, hpath, Path.name?_child _ _, ⟨_, rfl, rfl, rfl, rfl⟩, rfl⟩

theorem recorded_apply (h : s.forest.WellFormed) {message : Message}
    (ha : s.apply message origin = .ok (.applied change, s')) :
    s.Recorded message origin change s' := by
  cases message with
  | create q new => exact recorded_create h ha
  | update path key value => exact recorded_update h ha
  | delete path => exact recorded_delete h ha
  | reparent path q name => exact recorded_reparent h ha

/-- Only a create is dropped, and then nothing is written. -/
theorem eq_of_dropped {message : Message} (ha : s.apply message origin = .ok (.dropped q, s')) :
    s' = s ∧ ∃ new, message = .create q new := by
  cases message with
  | create q' new =>
    rcases create_eq_ok ha with ⟨heq, hs⟩ | ⟨_, _, _, _, _, _, _, heq, _⟩
    · cases heq
      exact ⟨hs, new, rfl⟩
    · cases heq
  | update path key value =>
    obtain ⟨_, _, _, ⟨_, _, hrename⟩ | ⟨_, heq, _⟩⟩ := update_eq_ok ha
    · obtain ⟨_, heq, _⟩ := rename_eq_ok hrename
      cases heq
    · cases heq
  | delete path =>
    obtain ⟨_, _, _, heq, _⟩ := delete_eq_ok ha
    cases heq
  | reparent path q' name =>
    obtain ⟨_, _, _, _, _, _, heq, _⟩ := reparent_eq_ok ha
    cases heq

end Recorded

end Store

end SharedScene
