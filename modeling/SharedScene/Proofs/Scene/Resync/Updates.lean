import SharedScene.Proofs.Scene.Resync.Creates

/-!
# Survivors get their properties

The last part of a plan. The scene takes over the wanted map as a whole, while an observer sets and
drops single properties, those in which the maps differ. Both end with maps that agree: under every
other key the values were equal before, and the two sides keep one each.
-/

namespace SharedScene

namespace Forest

variable {f : Forest} {p : Path} {item : Item} {children : Forest}

/-! ## Changing one item -/

theorem find?_modify {change : Item → Item} (hname : ∀ item, (change item).name = item.name) :
    (modify change f p).find? p = (f.find? p).map fun n => (change n.1, n.2) := by
  induction f generalizing p with
  | nil => rfl
  | cons first below rest ihc ihr =>
    cases p with
    | nil => rfl
    | cons n p =>
      by_cases hn : first.name = n
      · cases p with
        | nil =>
          rw [modify_cons_single change hn, find?_cons_single ((hname first).trans hn),
            find?_cons_single hn, Option.map_some]
        | cons m p =>
          rw [modify_cons_of_eq change hn, find?_cons_of_eq hn, find?_cons_of_eq hn, ihc]
      · rw [modify_cons_of_ne change hn, find?_cons_of_ne hn, find?_cons_of_ne hn, ihr]

/-- Two changes of one item are one change. -/
theorem modify_modify (later : Item → Item) {change : Item → Item}
    (hname : ∀ item, (change item).name = item.name) :
    modify later (modify change f p) p = modify (later ∘ change) f p := by
  induction f generalizing p with
  | nil => rfl
  | cons first below rest ihc ihr =>
    cases p with
    | nil => rfl
    | cons n p =>
      by_cases hn : first.name = n
      · cases p with
        | nil =>
          rw [modify_cons_single change hn, modify_cons_single later ((hname first).trans hn),
            modify_cons_single _ hn, Function.comp_apply]
        | cons m p =>
          rw [modify_cons_of_eq change hn, modify_cons_of_eq later hn, modify_cons_of_eq _ hn, ihc]
      · rw [modify_cons_of_ne change hn, modify_cons_of_ne later hn, modify_cons_of_ne _ hn, ihr]

/-- Changes that make items agree make forests agree. -/
theorem modify_agree {change change' : Item → Item} (h : f.find? p = some (item, children))
    (hitem : (change item).Agree (change' item)) :
    (modify change f p).Agree (modify change' f p) := by
  induction f generalizing p with
  | nil => cases h
  | cons first below rest ihc ihr =>
    cases p with
    | nil => cases h
    | cons n p =>
      by_cases hn : first.name = n
      · cases p with
        | nil =>
          rw [find?_cons_single hn] at h
          cases h
          rw [modify_cons_single change hn, modify_cons_single change' hn]
          exact .cons hitem (.refl _) (.refl _)
        | cons m p =>
          rw [find?_cons_of_eq hn] at h
          rw [modify_cons_of_eq change hn, modify_cons_of_eq change' hn]
          exact .cons (.refl _) (ihc h) (.refl _)
      · rw [find?_cons_of_ne hn] at h
        rw [modify_cons_of_ne change hn, modify_cons_of_ne change' hn]
        exact .cons (.refl _) (.refl _) (ihr h)

end Forest

/-! ## Setting one property after the other -/

namespace Item

variable {item : Item} {changes : List (String × Option Value)}

/-- An item with several properties set or dropped, one after the other. -/
def withProperties (changes : List (String × Option Value)) (item : Item) : Item :=
  changes.foldl (fun item c => item.withProperty c.1 c.2) item

theorem withProperties_cons (c : String × Option Value) (item : Item) :
    item.withProperties (c :: changes) = (item.withProperty c.1 c.2).withProperties changes := rfl

/-- Setting properties changes nothing else. -/
theorem withProperties_eq (item : Item) : item.withProperties changes =
    { item with properties := (item.withProperties changes).properties } := by
  induction changes generalizing item with
  | nil => rfl
  | cons c changes ih => exact ih (item.withProperty c.1 c.2)

/-- What stands under a key after changes that all bring the values of one map. -/
theorem get?_withProperties {wanted : Properties} (h : ∀ c ∈ changes, c.2 = wanted.get? c.1)
    (k : String) : (item.withProperties changes).properties.get? k =
      if k ∈ changes.map Prod.fst then wanted.get? k else item.properties.get? k := by
  induction changes generalizing item with
  | nil => rfl
  | cons c changes ih =>
    rw [withProperties_cons, ih fun c' hc' => h c' (List.mem_cons_of_mem _ hc'), get?_withProperty,
      List.map_cons]
    by_cases hk : k ∈ changes.map Prod.fst
    · rw [if_pos hk, if_pos (List.mem_cons_of_mem _ hk)]
    · by_cases hc : k = c.1
      · rw [if_neg hk, if_pos hc, if_pos (List.mem_cons.mpr (.inl hc)), h c List.mem_cons_self, hc]
      · rw [if_neg hk, if_neg hc, if_neg fun hmem => (List.mem_cons.mp hmem).elim hc hk]

end Item

namespace Resync

open Forest

/-! ## The changes of a plan -/

section Differences

variable {before wanted : Properties} {c : String × Option Value}

/-- The changes are the keys in which two maps differ, with the values of the second. -/
theorem Plan.mem_differences : c ∈ Plan.differences before wanted ↔
    c.2 = wanted.get? c.1 ∧ (before.get? c.1 != wanted.get? c.1) = true := by
  unfold Plan.differences
  simp only [List.mem_map, List.mem_filter]
  constructor
  · rintro ⟨key, ⟨_, hne⟩, rfl⟩
    exact ⟨rfl, hne⟩
  · rintro ⟨hvalue, hne⟩
    refine ⟨c.1, ⟨?_, hne⟩, Prod.ext rfl hvalue.symm⟩
    rw [SortedMap.mem_keys_ofList, List.map_append, List.mem_append]
    by_contra habsent
    obtain ⟨hbefore, hwanted⟩ := not_or.mp habsent
    rw [SortedMap.get?, SortedMap.get?, SortedMap.find?_eq_none hbefore,
      SortedMap.find?_eq_none hwanted] at hne
    cases hne

/-- Without a difference maps agree. -/
theorem agree_of_not_differ {key : String} (h : ¬ (before.get? key != wanted.get? key) = true) :
    Option.Rel Value.Same (before.get? key) (wanted.get? key) := by
  rw [bne, Bool.not_eq_true, Bool.not_eq_false'] at h
  generalize before.get? key = a, wanted.get? key = b at h
  cases a with
  | none => cases b with
    | none => exact .none
    | some b => cases h
  | some a => cases b with
    | none => cases h
    | some b => exact .some (.inr h)

/-- Setting the properties in which a map differs from another one makes the maps agree. -/
theorem agree_withProperties (item : Item) (wanted : Properties) :
    Properties.Agree
      (item.withProperties (Plan.differences item.properties wanted)).properties wanted := by
  intro key
  rw [Item.get?_withProperties fun c hc => (Plan.mem_differences.mp hc).1]
  split
  · exact Properties.Agree.refl wanted key
  · next hkey =>
    refine agree_of_not_differ fun hne => hkey ?_
    exact List.mem_map.mpr ⟨(key, wanted.get? key), Plan.mem_differences.mpr ⟨rfl, hne⟩, rfl⟩

/-- Between maps without reserved keys no change is a rename. -/
theorem ne_nameKey_of_mem_differences
    (hbefore : ∀ key ∈ before.keys, isReservedKey key = false)
    (hwanted : ∀ key ∈ wanted.keys, isReservedKey key = false)
    (h : c ∈ Plan.differences before wanted) : c.1 ≠ nameKey := by
  rintro hname
  have habsent : ∀ {ps : Properties}, (∀ key ∈ ps.keys, isReservedKey key = false) →
      ps.get? c.1 = none := by
    intro ps hps
    rw [← Option.not_isSome_iff_eq_none, SortedMap.isSome_get?_iff, hname]
    intro hmem
    cases hps nameKey hmem
  have hne := (Plan.mem_differences.mp h).2
  rw [habsent hbefore, habsent hwanted] at hne
  cases hne

end Differences

variable {old target : Forest} {there settled : List InstanceId} {p : Plan} {w : Placed}
  {rows : List Placed}

/-- An observer sets the properties of one item, one after the other. -/
theorem follow?_updates {f : Forest} {path : Path} {id : InstanceId}
    {changes : List (String × Option Value)} (hid : f.idAt? path = some id)
    (hkeys : ∀ c ∈ changes, c.1 ≠ nameKey) :
    f.follow? (changes.map fun c => .update id path c.1 c.2) =
      some (modify (Item.withProperties changes) f path) := by
  induction changes generalizing f with
  | nil => exact congrArg some (modify_id f path).symm
  | cons c changes ih =>
    -- no update renames, so the next one finds the item at the same path
    have hname : ∀ item : Item, (item.withProperty c.1 c.2).name = item.name := fun _ => rfl
    have hid' : (modify (Item.withProperty c.1 c.2) f path).idAt? path = some id := by
      rw [idAt?, find?_modify hname, Option.map_map]
      exact hid
    rw [List.map_cons, follow?_cons, replay?_update c.2 hid (hkeys c List.mem_cons_self),
      Option.bind_some,
      ih hid' fun c' hc' => hkeys c' (List.mem_cons_of_mem _ hc'), modify_modify _ hname]
    rfl

namespace Building

/-- Setting the properties that the target wants settles a row. -/
theorem setProperties (h : Building old target there settled p) (ht : target.WellFormed)
    (hw : w ∈ target.table) {current : Placed} (hcurrent : p.scene.placed? w.id = some current)
    {path : Path} (hpath : pathOf? w.id p.scene = some path) :
    let set : Item → Item := fun item => { item with properties := w.item.properties }
    let changes := Plan.differences current.item.properties w.item.properties
    Building old target there (w.id :: settled)
      ⟨modify set p.scene path,
        p.events ++ changes.map fun c => .update w.id path c.1 c.2⟩ := by
  intro set changes
  obtain ⟨row, children, hrow, hfind, hid, habove, _⟩ := h.wellFormed.exists_placed? hpath
  obtain rfl := Option.some.inj (hcurrent.symm.trans hrow)
  obtain ⟨hparent, _⟩ := h.wellFormed.parentPath?_eq_some_iff.mp habove
  have hmem := (h.wellFormed.placed?_eq_some_iff.mp hcurrent).1
  obtain ⟨w', hw', hstands, _⟩ := h.rows current hmem
  obtain rfl : w' = w := ht.eq_of_id_eq hw' hw (hstands.id.symm.trans hid)
  have hkeys := ht.unreserved w' hw
  have hwf : (modify set p.scene path).WellFormed :=
    WellFormed.modify h.wellFormed hfind rfl rfl hkeys
  have hrows : ∀ x, (modify set p.scene path).placed? x =
      if x = current.item.id then some ⟨p.scene.idAt? path.parent, set current.item⟩
      else p.scene.placed? x := WellFormed.placed?_modify h.wellFormed hfind rfl hwf
  rw [hparent, show current.item.id = w'.id from hid] at hrows
  have hrename : ∀ c ∈ changes, c.1 ≠ nameKey := fun c hc =>
    ne_nameKey_of_mem_differences (h.wellFormed.unreserved current hmem) hkeys hc
  have hagree : (current.item.withProperties changes).Agree (set current.item) := by
    rw [Item.withProperties_eq]
    exact ⟨rfl, rfl, rfl, agree_withProperties current.item w'.item.properties⟩
  refine ⟨hwf, ?_, fun id => ?_, fun row hrow' => ?_⟩
  · exact h.told.append (follow?_updates (h.wellFormed.pathOf?_eq_some_iff.mp hpath) hrename)
      (modify_agree hfind hagree)
  · rw [← h.ids id, ← isSome_placed?_iff, ← isSome_placed?_iff, hrows]
    split
    · next hx => rw [hx, hcurrent, Option.isSome_some, Option.isSome_some]
    · exact Iff.rfl
  · have hplaced := (hrows row.id).symm.trans (hwf.placed?_eq_some_iff.mpr ⟨hrow', rfl⟩)
    split at hplaced
    · obtain rfl := Option.some.inj hplaced
      exact ⟨w', hw, ⟨hid, hstands.slot, hstands.className⟩, fun _ => .refl _⟩
    · next hne =>
      obtain ⟨hrow'', _⟩ := h.wellFormed.placed?_eq_some_iff.mp hplaced
      obtain ⟨v, hv, hsv, hpv⟩ := h.rows row hrow''
      exact ⟨v, hv, hsv, fun hmem => hpv ((List.mem_cons.mp hmem).resolve_left hne)⟩

/-- An update settles a row of the target. -/
theorem update (h : Building old target there settled p) (ht : target.WellFormed)
    (hw : w ∈ target.table) :
    Building old target there (w.id :: settled) (p.updateProperties w) := by
  cases hcurrent : p.scene.placed? w.item.id with
  | none =>
    simp only [Plan.updateProperties, hcurrent]
    refine h.settle ht hw fun row hrow heq => ?_
    have hplaced := h.wellFormed.placed?_eq_some_iff.mpr ⟨hrow, heq⟩
    cases hcurrent.symm.trans hplaced
  | some current =>
    obtain ⟨path, _, hpath, _⟩ := h.wellFormed.exists_pathOf? hcurrent
    have hset := h.setProperties ht hw hcurrent hpath
    have hagree := agree_withProperties current.item w.item.properties
    simp only [Plan.updateProperties, hcurrent, hpath]
    cases hchanges : Plan.differences current.item.properties w.item.properties with
    | nil =>
      -- the row is left alone, and its properties agree with the wanted ones as they are
      rw [hchanges] at hagree
      refine h.settle ht hw fun row hrow heq => ?_
      have hplaced := h.wellFormed.placed?_eq_some_iff.mpr ⟨hrow, heq⟩
      obtain rfl := Option.some.inj (hcurrent.symm.trans hplaced)
      exact hagree
    | cons c changes =>
      rw [hchanges] at hset
      exact hset

theorem foldl_update (h : Building old target there settled p) (ht : target.WellFormed)
    (hrows : ∀ w ∈ rows, w ∈ target.table) :
    Building old target there ((rows.map Placed.id).reverse ++ settled)
      (rows.foldl Plan.updateProperties p) := by
  induction rows generalizing settled p with
  | nil => exact h
  | cons w rows ih =>
    rw [List.map_cons, List.reverse_cons, List.append_assoc]
    exact ih (h.update ht (hrows w List.mem_cons_self))
      fun r hr => hrows r (List.mem_cons_of_mem _ hr)

/-- An update is about its own instance, and leaves that one alone too when it has the properties
already. -/
theorem spares_update (h : Building old target there settled p) (ht : target.WellFormed)
    (hw : w ∈ target.table) {x : InstanceId}
    (hsame : w.id = x → ∀ current, p.scene.placed? x = some current →
      Plan.differences current.item.properties w.item.properties = []) :
    p.Spares (p.updateProperties w) x := by
  have hwf := (h.update ht hw).wellFormed
  cases hcurrent : p.scene.placed? w.item.id with
  | none =>
    simp only [Plan.updateProperties, hcurrent]
    exact .refl p x
  | some current =>
    obtain ⟨path, children, hpath, hfind, _⟩ := h.wellFormed.exists_pathOf? hcurrent
    have hid : current.item.id = w.item.id := (h.wellFormed.placed?_eq_some_iff.mp hcurrent).2
    simp only [Plan.updateProperties, hcurrent, hpath] at hwf ⊢
    cases hchanges : Plan.differences current.item.properties w.item.properties with
    | nil => exact .refl p x
    | cons c changes =>
      rw [hchanges] at hwf
      have hother : x ≠ w.item.id := by
        rintro rfl
        rw [hsame rfl current hcurrent] at hchanges
        cases hchanges
      refine ⟨?_, _, rfl, fun e he => ?_⟩
      · refine (h.wellFormed.placed?_modify hfind rfl hwf x).trans (if_neg ?_)
        rw [hid]
        exact hother
      · obtain ⟨_, _, rfl⟩ := List.mem_map.mp he
        exact hother.symm

/-- Updates one after the other leave alone whoever has its properties already. -/
theorem spares_foldl_update (h : Building old target there settled p) (ht : target.WellFormed)
    (hrows : ∀ w ∈ rows, w ∈ target.table) {x : InstanceId}
    (hsame : ∀ w ∈ rows, w.id = x → ∀ current, p.scene.placed? x = some current →
      Plan.differences current.item.properties w.item.properties = []) :
    p.Spares (rows.foldl Plan.updateProperties p) x := by
  induction rows generalizing settled p with
  | nil => exact .refl p x
  | cons w rows ih =>
    have hw := hrows w List.mem_cons_self
    have hfirst := h.spares_update ht hw (hsame w List.mem_cons_self)
    refine hfirst.trans (ih (h.update ht hw) (fun r hr => hrows r (List.mem_cons_of_mem _ hr)) ?_)
    rw [hfirst.row]
    exact fun r hr => hsame r (List.mem_cons_of_mem _ hr)

end Building

end Resync

end SharedScene
