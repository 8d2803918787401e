import SharedScene.Proofs.Scene.Delivery.Literal
import SharedScene.Proofs.Scene.ItemMap
import SharedScene.Proofs.SortedMap

/-!
# Assigning a property early or late

One property of one instance is **assigned** wherever the instance stands (`Forest.assign`). That
does not touch ids, names and places, so a change that is delivered has the same effect before the
assignment and after it, unless it creates the instance or sets the same property of it
(`deliver?_assign`). An update that is delivered is such an assignment (`modify_eq_assign`), and of
two assignments of one property the later one counts (`assign_assign`).
-/

namespace SharedScene

/-! ## Properties of one item -/

namespace Item

variable {id : InstanceId} {key key' : String} {item : Item}

/-- Of two values for one property the later one counts. -/
theorem withProperty_withProperty (item : Item) (key : String) (a b : Option Value) :
    (item.withProperty key a).withProperty key b = item.withProperty key b := by
  have hproperties : ((item.withProperty key a).withProperty key b).properties =
      (item.withProperty key b).properties := by
    refine SortedMap.ext_get? fun k => ?_
    rw [get?_withProperty, get?_withProperty, get?_withProperty]
    by_cases hk : k = key
    · rw [if_pos hk, if_pos hk]
    · rw [if_neg hk, if_neg hk, if_neg hk]
  exact congrArg (fun properties => { item with properties }) hproperties

/-- Values for two properties may come in either order. -/
theorem withProperty_comm (hne : key ≠ key') (item : Item) (a b : Option Value) :
    (item.withProperty key a).withProperty key' b =
      (item.withProperty key' b).withProperty key a := by
  have hproperties : ((item.withProperty key a).withProperty key' b).properties =
      ((item.withProperty key' b).withProperty key a).properties := by
    refine SortedMap.ext_get? fun k => ?_
    rw [get?_withProperty, get?_withProperty, get?_withProperty, get?_withProperty]
    by_cases hk : k = key
    · rw [hk, if_neg hne, if_pos rfl, if_pos rfl]
    · rw [if_neg hk, if_neg hk]
  exact congrArg (fun properties => { item with properties }) hproperties

/-- The item with a property set, if it is the one that is meant. -/
def assign (id : InstanceId) (key : String) (value : Value) (item : Item) : Item :=
  if item.id = id then item.withProperty key (some value) else item

theorem assign_of_eq (h : item.id = id) (value : Value) :
    item.assign id key value = item.withProperty key (some value) := if_pos h

theorem assign_of_ne (h : item.id ≠ id) (value : Value) : item.assign id key value = item :=
  if_neg h

theorem id_assign (id : InstanceId) (key : String) (value : Value) (item : Item) :
    (item.assign id key value).id = item.id := by
  unfold assign
  split <;> rfl

theorem name_assign (id : InstanceId) (key : String) (value : Value) (item : Item) :
    (item.assign id key value).name = item.name := by
  unfold assign
  split <;> rfl

theorem assign_renamed (id : InstanceId) (key : String) (value : Value) (name : String)
    (item : Item) :
    (item.renamed name).assign id key value = (item.assign id key value).renamed name := by
  by_cases h : item.id = id
  · rw [assign_of_eq h, assign_of_eq (show (item.renamed name).id = id from h)]
    rfl
  · rw [assign_of_ne h, assign_of_ne (show (item.renamed name).id ≠ id from h)]

end Item

/-! ## A property of one instance -/

/-- Whether an event creates an instance or sets a property of it. -/
def Event.Touches (id : InstanceId) (key : String) : Event → Prop
  | .create target _ _ => target = id
  | .update target _ property _ => target = id ∧ property = key
  | _ => False

namespace Forest

/-- The forest with a property of an instance set, wherever the instance stands. -/
def assign (f : Forest) (id : InstanceId) (key : String) (value : Value) : Forest :=
  f.mapItems (Item.assign id key value)

variable {f g : Forest} {id : InstanceId} {key : String} {p : Path} {event : Event}

theorem assign_assign (f : Forest) (id : InstanceId) (key : String) (a b : Value) :
    (f.assign id key a).assign id key b = f.assign id key b := by
  unfold assign
  rw [mapItems_mapItems]
  refine congrArg (fun φ => f.mapItems φ) (funext fun item => ?_)
  by_cases h : item.id = id
  · rw [Item.assign_of_eq h, Item.assign_of_eq h, Item.assign_of_eq (by exact h),
      Item.withProperty_withProperty]
  · rw [Item.assign_of_ne h, Item.assign_of_ne h]

theorem assign_of_not_mem (h : id ∉ f.ids) (value : Value) : f.assign id key value = f := by
  refine mapItems_of_forall fun item hitem => Item.assign_of_ne (fun heq => h ?_) value
  exact heq ▸ List.mem_map_of_mem hitem

/-- Setting a property at the path of an instance. -/
theorem modify_eq_assign (h : f.ids.Nodup) (hid : f.idAt? p = some id) (value : Value) :
    modify (Item.withProperty key (some value)) f p = f.assign id key value := by
  induction f generalizing p with
  | nil => rfl
  | cons item children rest ihc ihr =>
    rw [ids_cons, List.nodup_cons, List.nodup_append] at h
    obtain ⟨hfirst, hbelow, hrest, hdisjoint⟩ := h
    rw [List.mem_append, not_or] at hfirst
    obtain ⟨⟨found, below⟩, hfind, rfl⟩ := Option.map_eq_some_iff.mp hid
    cases p with
    | nil => cases hfind
    | cons n p =>
      show _ = Forest.cons (item.assign found.id key value) (children.assign found.id key value)
        (rest.assign found.id key value)
      by_cases hn : item.name = n
      · cases p with
        | nil =>
          rw [find?_cons_single hn] at hfind
          cases hfind
          rw [modify_cons_single _ hn, Item.assign_of_eq rfl, assign_of_not_mem hfirst.1,
            assign_of_not_mem hfirst.2]
        | cons m p =>
          rw [find?_cons_of_eq hn] at hfind
          have hmem := mem_ids_of_find? hfind
          have hitem : item.id ≠ found.id := fun heq => hfirst.1 (heq ▸ hmem)
          have hout : found.id ∉ rest.ids := fun hmem' => hdisjoint _ hmem _ hmem' rfl
          rw [modify_cons_of_eq _ hn, Item.assign_of_ne hitem, assign_of_not_mem hout,
            ihc hbelow (Option.map_eq_some_iff.mpr ⟨_, hfind, rfl⟩)]
      · rw [find?_cons_of_ne hn] at hfind
        have hmem := mem_ids_of_find? hfind
        have hitem : item.id ≠ found.id := fun heq => hfirst.2 (heq ▸ hmem)
        have hout : found.id ∉ children.ids := fun hmem' => hdisjoint _ hmem' _ hmem rfl
        rw [modify_cons_of_ne _ hn, Item.assign_of_ne hitem, assign_of_not_mem hout,
          ihr hrest (Option.map_eq_some_iff.mpr ⟨_, hfind, rfl⟩)]

section Assigned

variable (f) (id) (key) (value : Value)

theorem idAt?_assign (p : Path) : (f.assign id key value).idAt? p = f.idAt? p :=
  idAt?_mapItems (Item.id_assign id key value) (Item.name_assign id key value) f p

theorem isFree_assign (q : Path) (name : String) (other : InstanceId) :
    (f.assign id key value).isFree q name other = f.isFree q name other :=
  isFree_mapItems (Item.id_assign id key value) (Item.name_assign id key value) f q name other

theorem isNone_pathOf?_assign (other : InstanceId) :
    (pathOf? other (f.assign id key value)).isNone = (pathOf? other f).isNone :=
  isNone_pathOf?_mapItems (Item.id_assign id key value) f other

theorem relocate_assign (p q : Path) (name : String) :
    (f.relocate p q name).assign id key value = (f.assign id key value).relocate p q name :=
  relocate_mapItems (Item.name_assign id key value) f p q name
    (Item.assign_renamed id key value name)

theorem remove_assign (p : Path) :
    (f.remove p).assign id key value = (f.assign id key value).remove p :=
  remove_mapItems (Item.name_assign id key value) f p

end Assigned

/-- A property may be assigned before an event as well as after it. -/
theorem replay?_assign (h : ¬ event.Touches id key) (he : f.replay? event = some g)
    (value : Value) : (f.assign id key value).replay? event = some (g.assign id key value) := by
  cases event with
  | create target path record =>
    simp only [replay?, idAt?_assign, isNone_pathOf?_assign, isFree_assign] at he ⊢
    split at he
    · next hfits =>
      cases he
      have hother : record.toItem.id ≠ id := fun heq => h (hfits.2.1.symm.trans heq)
      have hgraft : (graft (single record.toItem .nil) f path.parent).assign id key value =
          graft (single (record.toItem.assign id key value) .nil) (f.assign id key value)
            path.parent :=
        graft_mapItems (Item.name_assign id key value) _ f path.parent
      rw [if_pos hfits, hgraft, Item.assign_of_ne hother]
    · cases he
  | update target path property new =>
    simp only [replay?, replayRename?, idAt?_assign, isFree_assign] at he ⊢
    split at he
    · next hid =>
      rw [if_pos hid]
      split at he
      · next hrename =>
        rw [if_pos hrename]
        split at he
        · split at he
          · next hfree =>
            cases he
            rw [if_pos hfree, relocate_assign]
          · cases he
        · cases he
      · next hrename =>
        cases he
        rw [if_neg hrename]
        refine congrArg some (modify_mapItems (Item.name_assign id key value) ?_).symm
        intro item children hfind
        have htarget : item.id = target := by
          rw [idAt?, hfind, Option.map_some] at hid
          exact Option.some.inj hid
        by_cases hitem : item.id = id
        · have hproperty : property ≠ key := fun heq => h ⟨htarget.symm.trans hitem, heq⟩
          rw [Item.assign_of_eq hitem, Item.assign_of_eq (by exact hitem),
            Item.withProperty_comm hproperty]
        · rw [Item.assign_of_ne hitem, Item.assign_of_ne (by exact hitem)]
    · cases he
  | delete target path =>
    simp only [replay?, idAt?_assign] at he ⊢
    split at he
    · next hid =>
      cases he
      rw [if_pos hid, remove_assign]
    · cases he
  | reparent target path q name =>
    simp only [replay?, idAt?_assign, isFree_assign] at he ⊢
    split at he
    · next hfits =>
      cases he
      rw [if_pos hfits, relocate_assign]
    · cases he

end Forest

/-! ## Changes that are delivered -/

/-- Whether a change that waited creates the instance of an id. -/
def PendingChange.creates (c : PendingChange) (id : InstanceId) : Bool :=
  decide (c.target = id) && decide (c.message.kind = .create)

/-- A change that waited and may share its turn with a later one sets a property. -/
theorem PendingChange.sharedKey?_eq_some {c : PendingChange} {id : InstanceId} {key : String} :
    c.sharedKey? = some (id, key) ↔
      c.target = id ∧ key ≠ nameKey ∧ ∃ path value, c.message = .update path key value := by
  obtain ⟨n, target, message⟩ := c
  cases message with
  | update path property value =>
    simp only [sharedKey?]
    constructor
    · intro h
      split at h
      · cases h
      · next hkey =>
        cases h
        exact ⟨rfl, hkey, path, value, rfl⟩
    · rintro ⟨rfl, hkey, _, _, ⟨⟩⟩
      exact if_neg hkey
  | create | delete | reparent =>
    exact ⟨fun h => (by cases h), fun ⟨_, _, _, _, h⟩ => (by cases h)⟩

namespace Forest

variable {f g : Forest} {id : InstanceId} {key : String} {p : Path} {c : PendingChange}

theorem event?_assign (f : Forest) (id : InstanceId) (key : String) (value : Value)
    (c : PendingChange) : c.event? (f.assign id key value) = c.event? f := by
  simp only [PendingChange.event?, idAt?_assign]

theorem not_touches_of_event? {event : Event} (h : c.event? f = some event)
    (hkey : key ≠ nameKey) (hcreates : c.creates id = false)
    (hshared : c.sharedKey? ≠ some (id, key)) : ¬ event.Touches id key := by
  obtain ⟨n, target, message⟩ := c
  cases message with
  | create q new =>
    simp only [PendingChange.event?] at h
    split at h
    · cases h
      rintro rfl
      simp only [PendingChange.creates, Message.kind, decide_true, Bool.and_self] at hcreates
      cases hcreates
    · cases h
  | update path property value =>
    cases h
    rintro ⟨rfl, rfl⟩
    exact hshared (PendingChange.sharedKey?_eq_some.mpr ⟨rfl, hkey, path, value, rfl⟩)
  | delete path =>
    cases h
    exact not_false
  | reparent path q name =>
    cases name with
    | none => cases h
    | some name =>
      cases h
      exact not_false

/-- A property of an instance may be assigned before a change is delivered as well as after it,
unless the change creates the instance or sets that property of it. -/
theorem deliver?_assign (hkey : key ≠ nameKey) (hcreates : c.creates id = false)
    (hshared : c.sharedKey? ≠ some (id, key)) (h : f.deliver? c = some g) (value : Value) :
    (f.assign id key value).deliver? c = some (g.assign id key value) := by
  obtain ⟨event, hevent, he⟩ := deliver?_eq_some.mp h
  have htouches := not_touches_of_event? hevent hkey hcreates hshared
  exact deliver?_eq_some.mpr
    ⟨event, (event?_assign f id key value c).trans hevent, replay?_assign htouches he value⟩

theorem deliverAll?_assign (hkey : key ≠ nameKey) {changes : List PendingChange}
    (hcreates : ∀ c ∈ changes, c.creates id = false)
    (hshared : ∀ c ∈ changes, c.sharedKey? ≠ some (id, key))
    (h : f.deliverAll? changes = some g) (value : Value) :
    (f.assign id key value).deliverAll? changes = some (g.assign id key value) := by
  induction changes generalizing f with
  | nil =>
    cases h
    rfl
  | cons c changes ih =>
    rw [List.forall_mem_cons] at hcreates hshared
    rw [deliverAll?_cons] at h ⊢
    obtain ⟨f', hf', h⟩ := Option.bind_eq_some_iff.mp h
    rw [deliver?_assign hkey hcreates.1 hshared.1 hf' value]
    exact ih hcreates.2 hshared.2 h

/-- A change that creates an instance finds no other one with its id. -/
theorem not_mem_ids_of_creates (hcreates : c.creates id = true) (h : f.deliver? c = some g) :
    id ∉ f.ids := by
  obtain ⟨event, hevent, he⟩ := deliver?_eq_some.mp h
  obtain ⟨n, target, message⟩ := c
  rw [PendingChange.creates, Bool.and_eq_true, decide_eq_true_iff, decide_eq_true_iff] at hcreates
  obtain ⟨rfl, hkind⟩ := hcreates
  cases message with
  | create q new =>
    simp only [PendingChange.event?] at hevent
    split at hevent
    · cases hevent
      simp only [replay?] at he
      split at he
      · next hfits =>
        intro hmem
        have hsome := isSome_pathOf?_iff.mpr hmem
        rw [Option.isNone_iff_eq_none.mp hfits.2.2.2.2.1] at hsome
        cases hsome
      · cases he
    · cases hevent
  | update | delete | reparent => cases hkind

/-- An update of a property that is delivered assigns the property. -/
theorem deliver?_update (h : f.ids.Nodup) (hkey : key ≠ nameKey) (n : Nat) (value : Value) :
    f.deliver? ⟨n, id, .update p key value⟩ = some g ↔
      f.idAt? p = some id ∧ g = f.assign id key value := by
  have hdeliver : f.deliver? ⟨n, id, .update p key value⟩ =
      f.replay? (.update id p key (some value)) := rfl
  rw [hdeliver]
  constructor
  · intro hg
    by_cases hid : f.idAt? p = some id
    · rw [replay?_update (some value) hid hkey, modify_eq_assign h hid] at hg
      exact ⟨hid, (Option.some.inj hg).symm⟩
    · simp only [replay?, if_neg hid] at hg
      cases hg
  · rintro ⟨hid, rfl⟩
    rw [replay?_update (some value) hid hkey, modify_eq_assign h hid]

end Forest

end SharedScene
