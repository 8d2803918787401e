import SharedScene.Proofs.Scene.Delivery.Literal
import SharedScene.Proofs.Success

/-!
# What an applied message does

A message that is applied leaves a well-formed forest, and tells of one event that an observer of
the forest before can follow to it (`Store.apply_cases`). The paths, names and parents in the event
are those with which the change was made, and a resolved name is free, so nothing in it fails to
fit. What is queued for the bridge says the same as the event. A message that is dropped changes
nothing.
-/

namespace SharedScene

/-- An event tells what became of a message: it is about the same path, and for a create or a move
about the same parent. -/
def Event.ReportsOn : Event → Message → Prop
  | .create _ path _, .create q _ => path.parent = q
  | .update _ path key _, .update p key' _ => path = p ∧ key = key'
  | .delete _ path, .delete p => path = p
  | .reparent _ path q _, .reparent p q' _ => path = p ∧ q = q'
  | _, _ => False

/-- A key that addresses no record is none of those that do. -/
theorem ne_of_unreserved {key reserved : String} (hkey : isReservedKey key = false)
    (h : isReservedKey reserved = true) : key ≠ reserved := by
  rintro rfl
  cases h.symm.trans hkey

namespace Store

open Forest Success

variable {s s' : Store} {outcome : Outcome} {origin : Origin} {path q : Path} {item : Item}
  {children : Forest} {key : String}

/-- A message that was applied: the forest is well-formed, an observer of the forest before follows
the one event to it, which reports on the message, the revision rises by one, and unless the bridge
knows already a change is queued that brings a replica of the forest before to it. That change is
the message with resolved names, and the message itself where a later update may take its place. -/
structure Changed (s : Store) (message : Message) (origin : Origin) (s' : Store) : Prop where
  wellFormed : s'.forest.WellFormed
  told : ∃ event, s'.outbox = s.outbox ++ [event] ∧ s.forest.replay? event = some s'.forest ∧
    event.ReportsOn message
  revision : s'.revision = s.revision + 1
  queued : ∃ target resolved,
    s'.pending = (if origin.needsDelivery then s.pending.push target resolved else s.pending) ∧
      (∀ n, s.forest.deliver? ⟨n, target, resolved⟩ = some s'.forest) ∧
      (resolved = message ∨ ∀ n, (PendingChange.mk n target resolved).sharedKey? = none ∧
        (PendingChange.mk n target message).sharedKey? = none)

/-- What is committed changes a store as one event and the message for the bridge say. -/
theorem commit_changed (ids : IdSupply) {forest : Forest} {event : Event}
    {message resolved : Message} (hwf : forest.WellFormed)
    (he : s.forest.replay? event = some forest) (hreports : event.ReportsOn message)
    (hevent : ∀ n, (PendingChange.mk n event.id resolved).event? s.forest = some event)
    (hshared : resolved = message ∨ ∀ n, (PendingChange.mk n event.id resolved).sharedKey? = none ∧
      (PendingChange.mk n event.id message).sharedKey? = none) :
    s.Changed message origin (commit { s with ids } origin forest event resolved) where
  wellFormed := hwf
  told := ⟨event, rfl, he, hreports⟩
  revision := rfl
  queued := ⟨event.id, resolved, rfl, fun n => deliver?_eq_some.mpr ⟨event, hevent n, he⟩, hshared⟩

/-- A resolved name is free among the siblings. -/
theorem isFree_resolve (desired : String) (id : InstanceId)
    (hq : (s.forest.childrenAt? q).isSome) :
    s.forest.isFree q (Name.resolve desired (siblingNames s.forest q id)) id = true := by
  rw [isFree, hq, Bool.true_and, decide_eq_true_iff]
  exact Name.resolve_not_mem _ _

theorem lookup_eq_ok {node : Item × Forest} :
    s.lookup path = .ok node ↔ s.forest.find? path = some node := by
  unfold lookup
  cases s.forest.find? path with
  | none => exact ⟨fun h => (by cases h), fun h => (by cases h)⟩
  | some n => exact ⟨fun h => (by cases h; rfl), fun h => (by cases h; rfl)⟩

theorem idAt?_of_find? (h : s.forest.find? path = some (item, children)) :
    s.forest.idAt? path = some item.id := by
  rw [idAt?, h, Option.map_some]

/-! ## What each message does

What is answered to a message that is not refused, and the store after it. -/

theorem checkName_eq_ok {name : String} :
    checkName name = .ok ⟨⟩ ↔ Name.isValid name = true := by
  unfold checkName Name.isValid
  rw [mapError_eq_ok]
  cases Name.check name with
  | error e => exact ⟨nofun, nofun⟩
  | ok _ => exact ⟨fun _ => rfl, fun _ => rfl⟩

/-- A property that may be given is not reserved. -/
theorem unreserved_of_checkProperty {value : Value} (h : checkProperty key value = .ok ⟨⟩) :
    isReservedKey key = false := by
  unfold checkProperty at h
  split at h
  · cases h
  · next hkey => exact Bool.not_eq_true _ ▸ hkey

/-- A create is dropped when there is no such parent. Otherwise it adds an instance with a new id,
under a name that was checked and resolved. -/
theorem create_eq_ok {new : NewInstance} (ha : s.create q new origin = .ok (outcome, s')) :
    (outcome = .dropped q ∧ s' = s) ∨
    ∃ siblings ids id, s.forest.childrenAt? q = some siblings ∧
      Name.isValid new.name = true ∧
      (∀ key ∈ new.properties.keys, isReservedKey key = false) ∧ id ∉ s.forest.ids ∧
      let name := Name.resolve new.name siblings.names
      let item : Item := ⟨id, new.className, name, new.properties⟩
      outcome = .applied ⟨.create, id, q.child name, name, s.revision + 1⟩ ∧
      s' = commit { s with ids } origin (graft (single item .nil) s.forest q)
        (.create id (q.child name) (item.toInstance (s.forest.idAt? q) []))
        (.create q { new with id := some id, name }) := by
  unfold create at ha
  cases hq : s.forest.childrenAt? q with
  | none =>
    rw [hq] at ha
    cases ha
    exact .inl ⟨rfl, rfl⟩
  | some siblings =>
    rw [hq] at ha
    simp only [bind_eq_ok] at ha
    obtain ⟨_, hname, ⟨⟩, hproperties, ha⟩ := ha
    have hkeys : ∀ key ∈ new.properties.keys, isReservedKey key = false := by
      intro key hkey
      obtain ⟨e, he, rfl⟩ := List.mem_map.mp hkey
      exact unreserved_of_checkProperty (forM_eq_ok hproperties e he)
    split at ha
    · cases ha
    · next hlive =>
      have hnew : new.id.getD s.ids.next ∉ s.forest.ids :=
        fun hmem => hlive (isSome_pathOf?_iff.mpr hmem)
      have hname := checkName_eq_ok.mp hname
      split at ha
      · cases ha
        exact .inr ⟨siblings, s.ids, _, rfl, hname, hkeys, hnew, rfl, rfl⟩
      · cases ha
        exact .inr ⟨siblings, s.ids.advance, _, rfl, hname, hkeys, hnew, rfl, rfl⟩

theorem rename_eq_ok {desired : String}
    (ha : s.rename path item desired origin = .ok (outcome, s')) :
    let name := Name.resolve desired (siblingNames s.forest path.parent item.id)
    Name.isValid desired = true ∧
      outcome = .applied ⟨.update, item.id, path.parent.child name, name, s.revision + 1⟩ ∧
      s' = s.commit origin (s.forest.relocate path path.parent name)
        (.rename item.id path name) (.update path nameKey (.string name)) := by
  simp only [rename, bind_eq_ok, pure_eq_ok] at ha
  obtain ⟨_, hname, ha⟩ := ha
  cases ha
  exact ⟨checkName_eq_ok.mp hname, rfl, rfl⟩

/-- An update renames, or sets one property that is not reserved. -/
theorem update_eq_ok {value : Value} (ha : s.update path key value origin = .ok (outcome, s')) :
    ∃ item children, s.forest.find? path = some (item, children) ∧
      ((key = nameKey ∧ ∃ desired, s.rename path item desired origin = .ok (outcome, s')) ∨
        isReservedKey key = false ∧
          outcome = .applied ⟨.update, item.id, path, item.name, s.revision + 1⟩ ∧
          s' = s.commit origin (Forest.modify (Item.withProperty key (some value)) s.forest path)
            (.update item.id path key (some value)) (.update path key value)) := by
  simp only [update, bind_eq_ok] at ha
  obtain ⟨⟨item, children⟩, hlookup, ha⟩ := ha
  refine ⟨item, children, lookup_eq_ok.mp hlookup, ?_⟩
  split at ha
  · next hkey =>
    split at ha
    · cases ha
    · exact .inl ⟨hkey, _, ha⟩
  · split at ha
    · cases ha
    · next hkey =>
      refine .inr ⟨Bool.not_eq_true _ ▸ hkey, ?_⟩
      obtain ⟨_, _, ha⟩ := bind_eq_ok.mp ha
      split at ha
      · split at ha
        · cases ha
          exact ⟨rfl, rfl⟩
        · cases ha
      · cases ha
        exact ⟨rfl, rfl⟩

theorem delete_eq_ok (ha : s.delete path origin = .ok (outcome, s')) :
    ∃ item children, s.forest.find? path = some (item, children) ∧
      outcome = .applied ⟨.delete, item.id, path, item.name, s.revision + 1⟩ ∧
      s' = s.commit origin (s.forest.remove path) (.delete item.id path) (.delete path) := by
  simp only [delete, bind_eq_ok, pure_eq_ok] at ha
  obtain ⟨⟨item, children⟩, hlookup, ha⟩ := ha
  cases ha
  exact ⟨item, children, lookup_eq_ok.mp hlookup, rfl, rfl⟩

/-- A reparent moves a node to a parent that is there and not below it, under the name that is
given or its own, checked and resolved. -/
theorem reparent_eq_ok {name : Option String}
    (ha : s.reparent path q name origin = .ok (outcome, s')) :
    ∃ item children, s.forest.find? path = some (item, children) ∧
      (s.forest.childrenAt? q).isSome ∧ ¬ path <+: q ∧ Name.isValid (name.getD item.name) = true ∧
      let resolved := Name.resolve (name.getD item.name) (siblingNames s.forest q item.id)
      outcome = .applied ⟨.reparent, item.id, q.child resolved, resolved, s.revision + 1⟩ ∧
      s' = s.commit origin (s.forest.relocate path q resolved)
        (.reparent item.id path q resolved) (.reparent path q (some resolved)) := by
  simp only [reparent, bind_eq_ok] at ha
  obtain ⟨⟨item, children⟩, hlookup, ha⟩ := ha
  refine ⟨item, children, lookup_eq_ok.mp hlookup, ?_⟩
  split at ha
  · cases ha
  · next hcycle =>
    rw [Path.isAtOrAbove, List.isPrefixOf_iff_prefix] at hcycle
    split at ha
    · cases ha
    · next hexists =>
      rw [pathExists, Bool.not_eq_true', Bool.not_eq_false] at hexists
      simp only [bind_eq_ok, pure_eq_ok] at ha
      obtain ⟨_, hname, ha⟩ := ha
      cases ha
      exact ⟨hexists, hcycle, checkName_eq_ok.mp hname, rfl, rfl⟩

/-! ## What is told of it -/

/-- A create that is applied adds an instance with a name that no sibling has. -/
theorem create_cases (h : s.forest.WellFormed) {new : NewInstance}
    (ha : s.create q new origin = .ok (outcome, s')) :
    s' = s ∨ s.Changed (.create q new) origin s' := by
  rcases create_eq_ok ha with ⟨_, heq⟩ | ⟨siblings, ids, id, hq, _, hkeys, hnew, _, rfl⟩
  · exact .inl heq
  · have hchildren : (s.forest.childrenAt? q).isSome := by rw [hq]; rfl
    have hfree := Name.resolve_not_mem new.name siblings.names
    generalize Name.resolve new.name siblings.names = name at hfree
    let item : Item := ⟨id, new.className, name, new.properties⟩
    have hslot := h.slot_free_of_not_mem_names hq hfree
    have hwf : (graft (single item .nil) s.forest q).WellFormed :=
      h.graft hchildren hnew hslot hkeys
    have hfits : s.forest.isFree q item.name item.id = true :=
      h.isFree_iff.mpr ⟨hchildren, fun row hrow heq => absurd heq (hslot row hrow)⟩
    have hcreated : s.forest.replay? (.create item.id (q.child item.name)
        (item.toInstance (s.forest.idAt? q) [])) =
          some (graft (single item .nil) s.forest q) := replay?_create rfl hnew hfits
    exact .inr (commit_changed ids hwf hcreated List.dropLast_concat (fun _ => if_pos rfl)
      (.inr fun _ => ⟨rfl, rfl⟩))

/-- A rename that is applied gives a name that no other sibling has. -/
theorem rename_changed (h : s.forest.WellFormed)
    (hfind : s.forest.find? path = some (item, children)) {desired : String} {value : Value}
    (ha : s.rename path item desired origin = .ok (outcome, s')) :
    s.Changed (.update path nameKey value) origin s' := by
  obtain ⟨_, _, rfl⟩ := rename_eq_ok ha
  obtain ⟨siblings, hsiblings, _⟩ := exists_childrenAt?_parent hfind
  have hchildren : (s.forest.childrenAt? path.parent).isSome := by rw [hsiblings]; rfl
  have hfree := isFree_resolve desired item.id hchildren
  refine commit_changed s.ids ?_ (replay?_rename (idAt?_of_find? hfind) hfree) ⟨rfl, rfl⟩
    (fun _ => rfl) (.inr fun _ => ⟨rfl, rfl⟩)
  exact h.relocate hfind hchildren (not_prefix_parent hfind) (h.isFree_iff.mp hfree).2

/-- Setting a property that is not reserved. -/
theorem set_changed (h : s.forest.WellFormed)
    (hfind : s.forest.find? path = some (item, children)) (hkey : isReservedKey key = false)
    (value : Value) :
    s.Changed (.update path key value) origin
      (s.commit origin (Forest.modify (Item.withProperty key (some value)) s.forest path)
        (.update item.id path key (some value)) (.update path key value)) := by
  have hname : key ≠ nameKey := ne_of_unreserved hkey rfl
  refine commit_changed s.ids ?_ (replay?_update (some value) (idAt?_of_find? hfind) hname)
    ⟨rfl, rfl⟩ (fun _ => rfl) (.inl rfl)
  refine h.modify hfind rfl rfl fun k hk => ?_
  rcases SortedMap.mem_keys_insert.mp hk with rfl | hk
  · exact hkey
  · exact h.unreserved _ (mem_table_of_find? hfind) k hk

/-- An update that is applied renames, or sets one property that is not reserved. -/
theorem update_changed (h : s.forest.WellFormed) {value : Value}
    (ha : s.update path key value origin = .ok (outcome, s')) :
    s.Changed (.update path key value) origin s' := by
  obtain ⟨item, children, hfind, ⟨rfl, desired, ha⟩ | ⟨hkey, _, rfl⟩⟩ := update_eq_ok ha
  · exact rename_changed h hfind ha
  · exact set_changed h hfind hkey value

/-- A delete that is applied takes out a node and all below it. -/
theorem delete_changed (h : s.forest.WellFormed)
    (ha : s.delete path origin = .ok (outcome, s')) : s.Changed (.delete path) origin s' := by
  obtain ⟨item, children, hfind, _, rfl⟩ := delete_eq_ok ha
  exact commit_changed s.ids (h.remove hfind) (if_pos (idAt?_of_find? hfind)) rfl (fun _ => rfl)
    (.inr fun _ => ⟨rfl, rfl⟩)

/-- A reparent that is applied moves a node to a parent that is not below it, with a name that no
child there has. -/
theorem reparent_changed (h : s.forest.WellFormed) {name : Option String}
    (ha : s.reparent path q name origin = .ok (outcome, s')) :
    s.Changed (.reparent path q name) origin s' := by
  obtain ⟨item, children, hfind, hchildren, hcycle, _, _, rfl⟩ := reparent_eq_ok ha
  have hfree := isFree_resolve (name.getD item.name) item.id hchildren
  refine commit_changed s.ids ?_ (replay?_reparent (idAt?_of_find? hfind) hcycle hfree)
    ⟨rfl, rfl⟩ (fun _ => rfl) (.inr fun _ => ⟨rfl, rfl⟩)
  exact h.relocate hfind hchildren hcycle (h.isFree_iff.mp hfree).2

/-- A message that is not refused is dropped, and changes nothing, or is applied, and tells of one
event. -/
theorem apply_cases (h : s.forest.WellFormed) {message : Message}
    (ha : s.apply message origin = .ok (outcome, s')) :
    s' = s ∨ s.Changed message origin s' := by
  cases message with
  | create q new => exact create_cases h ha
  | update path key value => exact .inr (update_changed h ha)
  | delete path => exact .inr (delete_changed h ha)
  | reparent path q name => exact .inr (reparent_changed h ha)

end Store

end SharedScene
