import SharedScene.Proofs.Scene.Edit
import SharedScene.Proofs.Value.Agreement

/-!
# An observer who follows the events

An **observer** holds a copy of the scene and applies each event as it says: it looks up the
instance at the event's path, asks that the id there is the event's, takes names as given, puts new
instances and those under a new parent last among the children, leaves all others in their place,
and drops a property that an update gives no value. It resolves no collision and repairs nothing:
`replay?` fails when the path leads elsewhere, when there is no such parent, or when a sibling has
the name.

Two forests **agree** when they have the same items in the same places and order, with properties
that agree. An observer whose copy agrees with a scene can follow whatever leads on from that scene,
and its copy still agrees (`replay?_agree`, `follow?_agree`).
-/

namespace SharedScene

/-! ## Literal application -/

/-- The item of a new instance's record. -/
def Instance.toItem (r : Instance) : Item := ⟨r.id, r.className, r.name, r.properties⟩

/-- An item with one property set, or dropped when there is no value. -/
def Item.withProperty (key : String) (value : Option Value) (item : Item) : Item :=
  { item with
    properties := match value with
      | some v => item.properties.insert key v
      | none => item.properties.erase key }

/-- What stands under a key after it, or another one, was set or dropped. -/
theorem Item.get?_withProperty (key k : String) (value : Option Value) (item : Item) :
    (item.withProperty key value).properties.get? k =
      if k = key then value else item.properties.get? k := by
  cases value with
  | none => exact SortedMap.get?_erase item.properties key k
  | some v => exact SortedMap.get?_insert item.properties key k v

namespace Forest

/-- Whether there is a parent at `q` where no child but `id` has the name. -/
def isFree (f : Forest) (q : Path) (name : String) (id : InstanceId) : Bool :=
  (f.childrenAt? q).isSome && decide (name ∉ Store.siblingNames f q id)

/-- The instance at a path, under another name in its place. -/
def replayRename? (f : Forest) (id : InstanceId) (path : Path) (name : String) : Option Forest :=
  if f.isFree path.parent name id then some (f.relocate path path.parent name) else none

/-- What an observer makes of an event; nothing when the event does not fit. -/
def replay? (f : Forest) : Event → Option Forest
  | .create id path record =>
    if path = Path.child path.parent record.name ∧ record.id = id ∧
        record.parent = f.idAt? path.parent ∧ record.children = [] ∧ (pathOf? id f).isNone ∧
        f.isFree path.parent record.name id then
      some (graft (single record.toItem .nil) f path.parent)
    else none
  | .update id path key value =>
    if f.idAt? path = some id then
      if key = nameKey then
        match value with
        | some (.string name) => f.replayRename? id path name
        | _ => none
      else some (modify (Item.withProperty key value) f path)
    else none
  | .delete id path => if f.idAt? path = some id then some (f.remove path) else none
  | .reparent id path q name =>
    if f.idAt? path = some id ∧ ¬ path.isAtOrAbove q ∧ f.isFree q name id then
      some (f.relocate path q name)
    else none

/-- What an observer makes of a stream of events. -/
def follow? (f : Forest) (events : List Event) : Option Forest := events.foldlM replay? f

section Fits

variable {f : Forest} {id : InstanceId} {path q : Path} {name : String}

/-- In a well-formed forest a slot under a parent is free when no other row has it. -/
theorem WellFormed.isFree_iff (h : f.WellFormed) : f.isFree q name id = true ↔
    (f.childrenAt? q).isSome ∧ ∀ row ∈ f.table, row.slot = (f.idAt? q, name) → row.id = id := by
  rw [isFree, Bool.and_eq_true, decide_eq_true_iff]
  refine and_congr_right fun hq => ⟨h.slot_free_of_not_mem_siblings hq, fun hslot hmem => ?_⟩
  obtain ⟨siblings, hsiblings⟩ := Option.isSome_iff_exists.mp hq
  rw [Store.siblingNames, hsiblings] at hmem
  obtain ⟨item, hitem, rfl⟩ := List.mem_map.mp hmem
  obtain ⟨hitem, hne⟩ := List.mem_filter.mp hitem
  exact of_decide_eq_true hne (hslot ⟨f.idAt? q, item⟩ (mem_table_of_mem_items hsiblings hitem) rfl)

theorem replay?_rename (hid : f.idAt? path = some id)
    (hfree : f.isFree path.parent name id = true) :
    f.replay? (.rename id path name) = some (f.relocate path path.parent name) := by
  rw [Event.rename, replay?, if_pos hid, if_pos rfl]
  exact if_pos hfree

/-- A move to a free name under a parent that is not below fits. -/
theorem replay?_reparent (hid : f.idAt? path = some id) (hcycle : ¬ path <+: q)
    (hfree : f.isFree q name id = true) :
    f.replay? (.reparent id path q name) = some (f.relocate path q name) := by
  refine if_pos ⟨hid, ?_, hfree⟩
  rw [Path.isAtOrAbove, List.isPrefixOf_iff_prefix]
  exact hcycle

/-- The creation of a new instance in a free slot fits. -/
theorem replay?_create {item : Item} {parent : Option InstanceId} (hparent : f.idAt? q = parent)
    (hnew : item.id ∉ f.ids) (hfree : f.isFree q item.name item.id = true) :
    f.replay? (.create item.id (q.child item.name) (item.toInstance parent [])) =
      some (graft (single item .nil) f q) := by
  have hq : (q.child item.name).parent = q := List.dropLast_concat
  have habsent : (pathOf? item.id f).isNone :=
    Option.isNone_iff_eq_none.mpr (Option.not_isSome_iff_eq_none.mp fun h =>
      hnew (isSome_pathOf?_iff.mp h))
  rw [replay?, hq]
  exact if_pos ⟨rfl, rfl, hparent.symm, rfl, habsent, hfree⟩

theorem replay?_update {key : String} (value : Option Value) (hid : f.idAt? path = some id)
    (hkey : key ≠ nameKey) : f.replay? (.update id path key value) =
      some (modify (Item.withProperty key value) f path) := by
  simp only [replay?, if_pos hid, if_neg hkey]

end Fits

theorem follow?_append (f : Forest) (events more : List Event) :
    f.follow? (events ++ more) = (f.follow? events).bind fun g => g.follow? more :=
  List.foldlM_append

theorem follow?_single (f : Forest) (e : Event) : f.follow? [e] = f.replay? e := by
  show (f.replay? e).bind some = f.replay? e
  cases f.replay? e <;> rfl

end Forest

/-! ## Agreement -/

/-- The same id, class and name, and properties that agree. -/
structure Item.Agree (a b : Item) : Prop where
  id : a.id = b.id
  className : a.className = b.className
  name : a.name = b.name
  properties : Properties.Agree a.properties b.properties

namespace Item.Agree

theorem refl (a : Item) : Agree a a := ⟨rfl, rfl, rfl, .refl _⟩

theorem symm {a b : Item} (h : Agree a b) : Agree b a :=
  ⟨h.id.symm, h.className.symm, h.name.symm,
    Properties.Agree.symm h.properties⟩

theorem trans {a b c : Item} (h : Agree a b) (k : Agree b c) : Agree a c :=
  ⟨h.id.trans k.id, h.className.trans k.className, h.name.trans k.name,
    h.properties.trans k.properties⟩

theorem renamed {a b : Item} (h : Agree a b) (name : String) :
    Agree (a.renamed name) (b.renamed name) :=
  ⟨h.id, h.className, rfl, h.properties⟩

theorem withProperty {a b : Item} (h : Agree a b) (key : String) (value : Option Value) :
    Agree (a.withProperty key value) (b.withProperty key value) := by
  refine ⟨h.id, h.className, h.name, ?_⟩
  cases value with
  | none => exact h.properties.erase key
  | some v => exact h.properties.insert key v

/-- Lists of items that agree have the same names, also without those of one id. -/
theorem map_name_filter {l l' : List Item} (h : List.Forall₂ Agree l l') (id : InstanceId) :
    (l.filter fun item => decide (item.id ≠ id)).map (·.name) =
      (l'.filter fun item => decide (item.id ≠ id)).map (·.name) := by
  induction h with
  | nil => rfl
  | @cons a b l l' hitem _ ih =>
    rw [List.filter_cons, List.filter_cons, hitem.id]
    split
    · rw [List.map_cons, List.map_cons, hitem.name, ih]
    · exact ih

end Item.Agree

namespace Forest

/-- The same items in the same places and order, with properties that agree. -/
inductive Agree : Forest → Forest → Prop where
  | nil : Agree .nil .nil
  | cons {a b : Item} {f f' g g' : Forest} :
    a.Agree b → Agree f f' → Agree g g' → Agree (.cons a f g) (.cons b f' g')

/-- Nodes that agree: the item and what is below it. -/
def NodesAgree (m n : Item × Forest) : Prop := m.1.Agree n.1 ∧ m.2.Agree n.2

namespace Agree

theorem refl (f : Forest) : Agree f f := by
  induction f with
  | nil => exact .nil
  | cons item children rest ihc ihr => exact .cons (.refl item) ihc ihr

theorem symm {f g : Forest} (h : Agree f g) : Agree g f := by
  induction h with
  | nil => exact .nil
  | cons hitem _ _ ihc ihr => exact .cons hitem.symm ihc ihr

theorem trans {f g h : Forest} (hfg : Agree f g) (hgh : Agree g h) : Agree f h := by
  induction hfg generalizing h with
  | nil => exact hgh
  | cons hitem _ _ ihc ihr =>
    cases hgh with
    | cons hitem' hc hr => exact .cons (hitem.trans hitem') (ihc hc) (ihr hr)

variable {f g new new' : Forest} {p q : Path}

theorem append (h : Agree f g) (hnew : Agree new new') : Agree (f.append new) (g.append new') := by
  induction h with
  | nil => exact hnew
  | cons hitem hc _ _ ihr => exact .cons hitem hc ihr

theorem find? (h : Agree f g) (p : Path) : Option.Rel NodesAgree (f.find? p) (g.find? p) := by
  induction h generalizing p with
  | nil => exact .none
  | @cons a b _ _ _ _ hitem hc hr ihc ihr =>
    cases p with
    | nil => exact .none
    | cons n p =>
      by_cases hn : a.name = n
      · have hn' : b.name = n := hitem.name.symm.trans hn
        cases p with
        | nil =>
          rw [find?_cons_single hn, find?_cons_single hn']
          exact .some ⟨hitem, hc⟩
        | cons m p =>
          rw [find?_cons_of_eq hn, find?_cons_of_eq hn']
          exact ihc (m :: p)
      · have hn' : b.name ≠ n := fun h => hn (hitem.name.trans h)
        rw [find?_cons_of_ne hn, find?_cons_of_ne hn']
        exact ihr (n :: p)

theorem idAt? (h : Agree f g) (p : Path) : f.idAt? p = g.idAt? p := by
  have hp := h.find? p
  unfold Forest.idAt?
  generalize f.find? p = m, g.find? p = n at hp
  cases hp with
  | none => rfl
  | some hnode => exact congrArg some hnode.1.id

theorem childrenAt? (h : Agree f g) (q : Path) :
    Option.Rel Agree (f.childrenAt? q) (g.childrenAt? q) := by
  cases q with
  | nil => exact .some h
  | cons n q =>
    have hq := h.find? (n :: q)
    rw [childrenAt?_cons, childrenAt?_cons]
    generalize f.find? (n :: q) = m, g.find? (n :: q) = k at hq
    cases hq with
    | none => exact .none
    | some hnode => exact .some hnode.2

theorem items (h : Agree f g) : List.Forall₂ Item.Agree f.items g.items := by
  induction h with
  | nil => exact .nil
  | cons hitem _ _ _ ihr => exact .cons hitem ihr

theorem ids (h : Agree f g) : f.ids = g.ids := by
  induction h with
  | nil => rfl
  | cons hitem _ _ ihc ihr => rw [ids_cons, ids_cons, hitem.id, ihc, ihr]

theorem isNone_pathOf? (h : Agree f g) (id : InstanceId) :
    (pathOf? id f).isNone = (pathOf? id g).isNone := by
  have hmem : (pathOf? id f).isSome ↔ (pathOf? id g).isSome := by
    rw [isSome_pathOf?_iff, isSome_pathOf?_iff, h.ids]
  rw [← Option.not_isSome, ← Option.not_isSome, Bool.eq_iff_iff.mpr hmem]

theorem siblingNames (h : Agree f g) (q : Path) (id : InstanceId) :
    Store.siblingNames f q id = Store.siblingNames g q id := by
  have hq := h.childrenAt? q
  unfold Store.siblingNames
  generalize f.childrenAt? q = m, g.childrenAt? q = n at hq
  cases hq with
  | none => rfl
  | some hc => exact Item.Agree.map_name_filter hc.items id

theorem isFree (h : Agree f g) (q : Path) (name : String) (id : InstanceId) :
    f.isFree q name id = g.isFree q name id := by
  have hq := h.childrenAt? q
  unfold Forest.isFree
  rw [h.siblingNames]
  generalize f.childrenAt? q = m, g.childrenAt? q = n at hq
  cases hq with
  | none => rfl
  | some _ => rfl

theorem modify {change change' : Item → Item}
    (hchange : ∀ a b : Item, a.Agree b → (change a).Agree (change' b)) (h : Agree f g) (p : Path) :
    Agree (modify change f p) (modify change' g p) := by
  induction h generalizing p with
  | nil => exact .nil
  | @cons a b _ _ _ _ hitem hc hr ihc ihr =>
    cases p with
    | nil => exact .cons hitem hc hr
    | cons n p =>
      by_cases hn : a.name = n
      · have hn' : b.name = n := hitem.name.symm.trans hn
        cases p with
        | nil =>
          rw [modify_cons_single _ hn, modify_cons_single _ hn']
          exact .cons (hchange _ _ hitem) hc hr
        | cons m p =>
          rw [modify_cons_of_eq _ hn, modify_cons_of_eq _ hn']
          exact .cons hitem (ihc (m :: p)) hr
      · have hn' : b.name ≠ n := fun h => hn (hitem.name.trans h)
        rw [modify_cons_of_ne _ hn, modify_cons_of_ne _ hn']
        exact .cons hitem hc (ihr (n :: p))

theorem remove (h : Agree f g) (p : Path) : Agree (f.remove p) (g.remove p) := by
  induction h generalizing p with
  | nil => exact .nil
  | @cons a b _ _ _ _ hitem hc hr ihc ihr =>
    cases p with
    | nil => exact .cons hitem hc hr
    | cons n p =>
      by_cases hn : a.name = n
      · have hn' : b.name = n := hitem.name.symm.trans hn
        cases p with
        | nil =>
          rw [remove_cons_single hn, remove_cons_single hn']
          exact hr
        | cons m p =>
          rw [remove_cons_of_eq hn, remove_cons_of_eq hn']
          exact .cons hitem (ihc (m :: p)) hr
      · have hn' : b.name ≠ n := fun h => hn (hitem.name.trans h)
        rw [remove_cons_of_ne hn, remove_cons_of_ne hn']
        exact .cons hitem hc (ihr (n :: p))

theorem graft (h : Agree f g) (hnew : Agree new new') (q : Path) :
    Agree (graft new f q) (Forest.graft new' g q) := by
  induction h generalizing q with
  | nil => cases q with
    | nil => exact hnew
    | cons n q => exact .nil
  | @cons a b _ _ _ _ hitem hc hr ihc ihr =>
    cases q with
    | nil => exact (Agree.cons hitem hc hr).append hnew
    | cons n q =>
      by_cases hn : a.name = n
      · have hn' : b.name = n := hitem.name.symm.trans hn
        rw [graft_cons_of_eq _ hn, graft_cons_of_eq _ hn']
        exact .cons hitem (ihc q) hr
      · have hn' : b.name ≠ n := fun h => hn (hitem.name.trans h)
        rw [graft_cons_of_ne _ hn, graft_cons_of_ne _ hn']
        exact .cons hitem hc (ihr (n :: q))

theorem relocate (h : Agree f g) (p q : Path) (name : String) :
    Agree (f.relocate p q name) (g.relocate p q name) := by
  unfold Forest.relocate
  split
  · exact h.modify (fun _ _ hitem => hitem.renamed name) p
  · have hp := h.find? p
    generalize f.find? p = m, g.find? p = n at hp
    cases hp with
    | none => exact h
    | some hnode => exact (h.remove p).graft (.cons (hnode.1.renamed name) hnode.2 .nil) q

end Agree

/-- Events lead on from forests that agree to forests that agree. -/
theorem replay?_agree {f g f' : Forest} (h : f.Agree g) {e : Event} (he : f.replay? e = some f') :
    ∃ g', g.replay? e = some g' ∧ f'.Agree g' := by
  cases e with
  | create id path record =>
    simp only [replay?, h.idAt?, h.isNone_pathOf?, h.isFree] at he ⊢
    split at he
    · next hfits =>
      cases he
      exact ⟨_, if_pos hfits, h.graft (.refl _) _⟩
    · cases he
  | update id path key value =>
    simp only [replay?, replayRename?, h.idAt?, h.isFree] at he ⊢
    split at he
    · next hid =>
      rw [if_pos hid]
      split at he
      · next hkey =>
        rw [if_pos hkey]
        split at he
        · split at he
          · next hfree =>
            cases he
            exact ⟨_, if_pos hfree, h.relocate _ _ _⟩
          · cases he
        · cases he
      · next hkey =>
        cases he
        exact ⟨_, if_neg hkey, h.modify (fun _ _ hitem => hitem.withProperty key value) path⟩
    · cases he
  | delete id path =>
    simp only [replay?, h.idAt?] at he ⊢
    split at he
    · next hid =>
      cases he
      exact ⟨_, if_pos hid, h.remove path⟩
    · cases he
  | reparent id path q name =>
    simp only [replay?, h.idAt?, h.isFree] at he ⊢
    split at he
    · next hfits =>
      cases he
      exact ⟨_, if_pos hfits, h.relocate _ _ _⟩
    · cases he

/-- Streams of events lead on from forests that agree to forests that agree. -/
theorem follow?_agree {f g f' : Forest} (h : f.Agree g) {events : List Event}
    (he : f.follow? events = some f') : ∃ g', g.follow? events = some g' ∧ f'.Agree g' := by
  induction events generalizing f g with
  | nil =>
    cases he
    exact ⟨g, rfl, h⟩
  | cons e events ih =>
    obtain ⟨f₁, hf₁, hrest⟩ := Option.bind_eq_some_iff.mp he
    obtain ⟨g₁, hg₁, hagree⟩ := replay?_agree h hf₁
    obtain ⟨g', hg', hagree'⟩ := ih hagree hrest
    exact ⟨g', Option.bind_eq_some_iff.mpr ⟨g₁, hg₁, hg'⟩, hagree'⟩

end Forest

end SharedScene
