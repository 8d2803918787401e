import SharedScene.Proofs.Name.Valid
import SharedScene.Proofs.Scene.History

/-!
# The names that are stored

A message asks for a name that is checked, and stores it with a number when a sibling has it. A
report asks for its own name or, when that breaks a rule, for its class, which nobody checks. So a
stored name keeps the rules but in two cases (`stored_names`): the number of a collision made it too
long, or a report brought neither a name nor a class that keeps them.

A move without a new name asks for the stored one once more. It is possible exactly when that one
keeps the rules, so an instance with any other name stays where it is until it gets a new one.
-/

namespace SharedScene

/-- A name that was asked for rightly, as it is stored. -/
def Name.Granted (name : String) : Prop :=
  ∃ desired siblings, isValid desired = true ∧ name = resolve desired siblings

/-- A report that brings nothing by which an instance may be named. -/
def Report.Nameless (r : Report) : Prop :=
  Name.isValid r.name = false ∧ Name.isValid r.className = false

/-- An item that was named rightly, or after the class of a report that has no name. -/
def Item.Named (reported : Report → Prop) (item : Item) : Prop :=
  Name.Granted item.name ∨ ∃ r, reported r ∧ r.Nameless ∧ r.id = item.id ∧
    ∃ siblings, item.name = Name.resolve r.className siblings

/-- How an item was named is said of its id and its name. -/
theorem Item.Named.congr {reported : Report → Prop} {old new : Item} (h : old.Named reported)
    (hid : new.id = old.id) (hname : new.name = old.name) : new.Named reported := by
  unfold Item.Named at h ⊢
  rwa [hid, hname]

/-- The items of a forest have their names of before, or new ones that were asked for rightly. -/
def Forest.KeepsNames (f g : Forest) : Prop :=
  ∀ row ∈ g.table, (∃ old ∈ f.table, old.id = row.id ∧ old.item.name = row.item.name) ∨
    Name.Granted row.item.name

namespace Forest

variable {f g : Forest} {row : Placed} {p q : Path} {item : Item} {children : Forest}
  {name : String}

theorem KeepsNames.refl (f : Forest) : f.KeepsNames f :=
  fun row hrow => .inl ⟨row, hrow, rfl, rfl⟩

theorem keepsNames_graft (hq : (f.childrenAt? q).isSome) (hname : Name.Granted item.name) :
    f.KeepsNames (graft (single item .nil) f q) := by
  intro row hrow
  rcases List.mem_cons.mp ((table_graft item hq).mem_iff.mp hrow) with rfl | hrow
  · exact .inr hname
  · exact .inl ⟨row, hrow, rfl, rfl⟩

theorem keepsNames_modify {change : Item → Item} (hp : f.find? p = some (item, children))
    (hid : (change item).id = item.id) (hname : (change item).name = item.name) :
    f.KeepsNames (modify change f p) := by
  intro row hrow
  have hmem := fun {r : Placed} => (table_remove hp).mem_iff (a := r)
  rcases List.mem_cons.mp ((table_modify hp hid).mem_iff.mp hrow) with rfl | hrow
  · exact .inl ⟨_, hmem.mpr List.mem_cons_self, hid.symm, hname.symm⟩
  · exact .inl ⟨row, hmem.mpr (List.mem_cons_of_mem _ hrow), rfl, rfl⟩

theorem keepsNames_remove (hp : f.find? p = some (item, children)) :
    f.KeepsNames (f.remove p) := by
  intro row hrow
  refine .inl ⟨row, (table_remove hp).mem_iff.mpr ?_, rfl, rfl⟩
  exact List.mem_cons_of_mem _ (List.mem_append_right _ hrow)

theorem keepsNames_relocate (hp : f.find? p = some (item, children))
    (hq : (f.childrenAt? q).isSome) (hpq : ¬ p <+: q) (hname : Name.Granted name) :
    f.KeepsNames (f.relocate p q name) := by
  intro row hrow
  rcases List.mem_cons.mp ((table_relocate hp hq hpq name).mem_iff.mp hrow) with rfl | hrow
  · exact .inr hname
  · exact .inl ⟨row, (table_remove hp).mem_iff.mpr (List.mem_cons_of_mem _ hrow), rfl, rfl⟩

end Forest

namespace Store

open Forest Success

variable {s s' : Store} {outcome : Outcome} {message : Message} {origin : Origin} {path q : Path}
  {item : Item} {children : Forest} {reported : Report → Prop}

/-! ## What happens to names -/

/-- Every message leaves the names that are there, or gives one that was asked for rightly. -/
theorem apply_keepsNames (ha : s.apply message origin = .ok (outcome, s')) :
    s.forest.KeepsNames s'.forest := by
  cases message with
  | create q new =>
    rcases create_eq_ok ha with ⟨_, rfl⟩ | ⟨siblings, ids, id, hq, hname, _, _, _, rfl⟩
    · exact .refl _
    · exact keepsNames_graft (by rw [hq]; rfl) ⟨_, _, hname, rfl⟩
  | update path key value =>
    obtain ⟨item, children, hfind, ⟨_, desired, ha⟩ | ⟨_, _, rfl⟩⟩ := update_eq_ok ha
    · obtain ⟨hname, _, rfl⟩ := rename_eq_ok ha
      obtain ⟨siblings, hsiblings, _⟩ := exists_childrenAt?_parent hfind
      exact keepsNames_relocate hfind (by rw [hsiblings]; rfl) (not_prefix_parent hfind)
        ⟨_, _, hname, rfl⟩
    · exact keepsNames_modify hfind rfl rfl
  | delete path =>
    obtain ⟨item, children, hfind, _, rfl⟩ := delete_eq_ok ha
    exact keepsNames_remove hfind
  | reparent path q name =>
    obtain ⟨item, children, hfind, hq, hpq, hname, _, rfl⟩ := reparent_eq_ok ha
    exact keepsNames_relocate hfind hq hpq ⟨_, _, hname, rfl⟩

/-- After a resync every instance is named as a report names it. -/
theorem exists_report_of_mem_replaceAll (hwf : s.forest.WellFormed) {reports : List Report}
    {row : Placed} (hrow : row ∈ (s.replaceAll reports).2.forest.table) :
    ∃ r ∈ reports, ∃ siblings, row.item.id = (r.toItem siblings).id ∧
      row.item.name = (r.toItem siblings).name := by
  have hsame := sameRows_replaceAll hwf reports row.id
  rw [(wellFormed_replaceAll hwf reports).placed?_eq_some_iff.mpr ⟨hrow, rfl⟩] at hsame
  generalize htarget : (Report.toForest reports).placed? row.id = found at hsame
  cases hsame with
  | some hagree =>
    obtain ⟨hwanted, _⟩ := (Report.wellFormed_toForest reports).placed?_eq_some_iff.mp htarget
    obtain ⟨r, hr, _, siblings, hitem⟩ := Report.exists_report_of_mem_table hwanted
    exact ⟨r, hr, siblings, hitem ▸ hagree.item.id, hitem ▸ hagree.item.name⟩

/-- A report names its item rightly, unless it is nameless. -/
theorem named_toItem {r : Report} (hr : reported r) (siblings : List String) :
    (r.toItem siblings).Named reported := by
  by_cases hname : Name.isValid r.name = true
  · exact .inl ⟨r.name, siblings, hname, by rw [Report.toItem, Report.desiredName, if_pos hname]⟩
  · have hdesired : (r.toItem siblings).name = Name.resolve r.className siblings := by
      rw [Report.toItem, Report.desiredName, if_neg hname]
    by_cases hclass : Name.isValid r.className = true
    · exact .inl ⟨r.className, siblings, hclass, hdesired⟩
    · rw [Bool.not_eq_true] at hname hclass
      exact .inr ⟨r, hr, ⟨hname, hclass⟩, rfl, siblings, hdesired⟩

theorem named_perform (hwf : s.forest.WellFormed)
    (h : ∀ row ∈ s.forest.table, row.item.Named reported) (act : Act)
    (hreports : ∀ reports, act = .replaceAll reports → ∀ r ∈ reports, reported r) :
    ∀ row ∈ (s.perform act).forest.table, row.item.Named reported := by
  cases act with
  | apply message origin =>
    rw [perform]
    split
    · next ha =>
      intro row hrow
      rcases apply_keepsNames ha row hrow with ⟨old, hold, hid, hname⟩ | hgranted
      · exact (h old hold).congr hid.symm hname.symm
      · exact .inl hgranted
    · exact h
  | replaceAll reports =>
    intro row hrow
    obtain ⟨r, hr, siblings, hid, hname⟩ := exists_report_of_mem_replaceAll hwf hrow
    exact (named_toItem (hreports reports rfl r hr) siblings).congr hid hname
  | takeEvents => exact h
  | takePending => exact h

theorem named_run (hs : s.Reachable) (h : ∀ row ∈ s.forest.table, row.item.Named reported)
    (acts : List Act)
    (hreports : ∀ reports, .replaceAll reports ∈ acts → ∀ r ∈ reports, reported r) :
    ∀ row ∈ (s.run acts).forest.table, row.item.Named reported := by
  induction acts generalizing s with
  | nil => exact h
  | cons act acts ih =>
    refine ih (hs.perform act) (named_perform hs.wellFormed h act fun reports hact => ?_)
      fun reports hmem => hreports reports (List.mem_cons_of_mem _ hmem)
    exact hreports reports (hact ▸ List.mem_cons_self)

/-! ## Moves without a new name -/

/-- Whether the instance at a path goes under another parent when no new name is given for it. -/
def MovesUnnamed (s : Store) (path q : Path) (origin : Origin) : Prop :=
  ∃ change s', s.apply (.reparent path q none) origin = .ok (.applied change, s') ∧
    s.forest.idAt? path = some change.id ∧ change.path.parent = q

theorem movesUnnamed_iff (hfind : s.forest.find? path = some (item, children))
    (hq : (s.forest.childrenAt? q).isSome) (hpq : ¬ path <+: q) :
    s.MovesUnnamed path q origin ↔ Name.isValid item.name = true := by
  have hcycle : ¬ path.isAtOrAbove q = true := by
    rwa [Path.isAtOrAbove, List.isPrefixOf_iff_prefix]
  have hexists : ¬ (!s.pathExists q) = true := by
    rw [pathExists, hq]
    decide
  show (∃ change s', s.reparent path q none origin = _ ∧ _) ↔ _
  unfold reparent
  rw [lookup_eq_ok.mpr hfind]
  show (∃ change s', (if path.isAtOrAbove q = true then _ else if (!s.pathExists q) = true then _
    else (checkName item.name >>= _)) = _ ∧ _) ↔ _
  rw [if_neg hcycle, if_neg hexists, ← checkName_eq_ok]
  constructor
  · rintro ⟨change, s', ha, _⟩
    obtain ⟨_, hname, _⟩ := bind_eq_ok.mp ha
    exact hname
  · intro hname
    rw [hname]
    exact ⟨_, _, rfl, idAt?_of_find? hfind, List.dropLast_concat⟩

/-- Whatever happens to a store that begins empty: the name of every instance keeps the rules, or is
too long by the number that a collision put there, or is that of a class, which a report without a
proper name or class brought. And an instance may be moved under any other parent that is not below
it, without a new name, exactly when its own keeps the rules. -/
theorem stored_names (ids : IdSupply) (acts : List Act) :
    let s := (empty ids).run acts
    (∀ item ∈ s.forest.preorder,
      Name.isValid item.name = true ∨ Name.Outgrown item.name ∨
        ∃ reports, .replaceAll reports ∈ acts ∧ ∃ r ∈ reports, r.Nameless ∧ r.id = item.id ∧
          ∃ siblings, item.name = Name.resolve r.className siblings) ∧
    ∀ (path q : Path) (item : Item) (children : Forest) (origin : Origin),
      s.forest.find? path = some (item, children) → (s.forest.childrenAt? q).isSome →
      ¬ path <+: q → (s.MovesUnnamed path q origin ↔ Name.isValid item.name = true) := by
  intro s
  refine ⟨fun item hitem => ?_, fun path q item children origin hfind hq hpq =>
    movesUnnamed_iff hfind hq hpq⟩
  rw [← map_item_placements none] at hitem
  obtain ⟨row, hrow, rfl⟩ := List.mem_map.mp hitem
  have hnamed : row.item.Named fun r => ∃ reports, .replaceAll reports ∈ acts ∧ r ∈ reports :=
    named_run (.empty ids) (fun _ h => absurd h List.not_mem_nil) acts
      (fun reports hreports r hr => ⟨reports, hreports, hr⟩) row hrow
  rcases hnamed with ⟨desired, siblings, hdesired, hname⟩ | ⟨r, ⟨reports, hreports, hr⟩, hr'⟩
  · rw [hname]
    exact (Name.isValid_or_outgrown_resolve hdesired siblings).imp_right .inl
  · exact .inr (.inr ⟨reports, hreports, r, hr, hr'⟩)

/-- A name of 100 characters. -/
def longName : String := String.ofList (List.replicate 100 'a')

/-- Two parts of a long name, and a shelf. -/
def crowded : Store :=
  (empty (.stemmed "id")).run [newPart "a" longName, newPart "b" longName, newPart "c" "Shelf"]

/-- The part that came first goes on the shelf, and the other one stays. -/
theorem stored_names_crowded :
    crowded.MovesUnnamed [longName] ["Shelf"] .agent ∧
      ¬ crowded.MovesUnnamed [longName ++ "_2"] ["Shelf"] .agent := by
  obtain ⟨_, hmoves⟩ := stored_names (.stemmed "id")
    [newPart "a" longName, newPart "b" longName, newPart "c" "Shelf"]
  have hshelf : (crowded.forest.childrenAt? ["Shelf"]).isSome = true := by decide +kernel
  have hnames : ∀ name ∈ [longName, longName ++ "_2"],
      (crowded.forest.find? [name]).map (·.1.name) = some name ∧ ¬ [name] <+: ["Shelf"] := by
    decide +kernel
  have hmoves' : ∀ name ∈ [longName, longName ++ "_2"],
      crowded.MovesUnnamed [name] ["Shelf"] .agent ↔ Name.isValid name = true := by
    intro name hname
    obtain ⟨hfind, hoff⟩ := hnames name hname
    obtain ⟨⟨item, children⟩, hfind, rfl⟩ := Option.map_eq_some_iff.mp hfind
    exact hmoves _ ["Shelf"] item children .agent hfind hshelf hoff
  refine ⟨(hmoves' _ List.mem_cons_self).mpr (by decide +kernel), fun h => ?_⟩
  have hvalid := (hmoves' _ (List.mem_cons_of_mem _ List.mem_cons_self)).mp h
  revert hvalid
  decide +kernel

/-- A stored name may break the rules: that of the second part is longer than any that may be asked
for, and that of an instance that was reported without a name and without a class is empty. -/
theorem stored_name_breaks_rules :
    (¬ ∀ item ∈ crowded.forest.preorder, Name.isValid item.name = true) ∧
      ¬ ∀ item ∈ ((empty (.stemmed "id")).run
          [.replaceAll [⟨⟨"a"⟩, "", "", none, .empty⟩]]).forest.preorder,
        Name.isValid item.name = true := by
  decide +kernel

end Store

end SharedScene
