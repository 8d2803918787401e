import SharedScene.Proofs.Name.Free
import SharedScene.Proofs.SortedMap
import SharedScene.Proofs.Scene.WellFormed
import SharedScene.Scene.Resync

/-!
# What reports describe is well-formed

Reports may name one id twice, a parent that nobody reports, or a chain of parents that runs in a
circle. The forest that they describe is well-formed all the same (`wellFormed_toForest`).

Two places in it for one id are ruled out by **lineages**: the chain of parents from an id up to a
report without one. With one report for each id a lineage is determined by its lowest id, and
whatever grows below a parent has a lineage that goes on with the parent's (`exists_lineage`). So an
id below two siblings would have both of them at one place of its one lineage.
-/

namespace SharedScene

namespace Forest

variable {f : Forest} {item : Item} {children : Forest} {parent : Option InstanceId}

/-- Where ids are distinct, and names at every level, no slot is taken twice. -/
theorem nodup_slots_of_namesDistinct (names : NamesDistinct f) (nodup : f.ids.Nodup)
    (outside : ∀ id ∈ f.ids, parent ≠ some id) :
    ((placements parent f).map Placed.slot).Nodup := by
  induction f generalizing parent with
  | nil => exact List.nodup_nil
  | cons first below rest ihc ihr =>
    obtain ⟨hname, hbelow, hrest⟩ := names
    rw [ids_cons, ← List.cons_append] at nodup outside
    obtain ⟨nodupb, nodupr, disjoint⟩ := List.nodup_append.mp nodup
    obtain ⟨hfirst, nodupb⟩ := List.nodup_cons.mp nodupb
    have outsideb : ∀ id ∈ below.ids, some first.id ≠ some id := fun id hid heq =>
      hfirst (Option.some.inj heq ▸ hid)
    have outsider : ∀ id ∈ rest.ids, parent ≠ some id := fun id hid =>
      outside id (List.mem_append_right _ hid)
    rw [placements, List.map_cons, List.map_append, List.nodup_cons, List.nodup_append]
    refine ⟨fun hmem => ?_, ihc hbelow nodupb outsideb, ihr hrest nodupr outsider, ?_⟩
    · rw [← List.map_append] at hmem
      obtain ⟨row, hrow, hslot⟩ := List.mem_map.mp hmem
      obtain ⟨hparent, hitem⟩ := Prod.ext_iff.mp hslot
      rcases List.mem_append.mp hrow with hrow | hrow
      · obtain ⟨id, hid, heq⟩ := exists_parent_of_mem hrow
        exact outside id (List.mem_append_left _ hid) (Eq.trans (Eq.symm hparent) heq)
      · refine hname ?_
        rw [← show row.item.name = first.name from hitem]
        exact List.mem_map_of_mem (mem_items_of_mem_placements outsider hrow hparent)
    · -- a row below the first node has its parent there, a later one has not
      intro slot hslot slot' hslot' heq
      obtain ⟨row, hrow, rfl⟩ := List.mem_map.mp hslot
      obtain ⟨row', hrow', rfl⟩ := List.mem_map.mp hslot'
      obtain ⟨id, hid, hparent⟩ := exists_parent_of_mem hrow
      refine parent_ne_of_mem hrow' (outside id (List.mem_append_left _ hid)) ?_
        (Eq.trans (Eq.symm (Prod.ext_iff.mp heq).1) hparent)
      exact fun hid' => disjoint _ hid _ hid' rfl

theorem names_append (f g : Forest) : (f.append g).names = f.names ++ g.names := by
  induction f with
  | nil => rfl
  | cons first below rest _ ihr => exact congrArg (first.name :: ·) ihr

theorem ids_append (f g : Forest) : (f.append g).ids = f.ids ++ g.ids := by
  rw [← map_id_placements none, placements_append, List.map_append, map_id_placements,
    map_id_placements]

/-- One more node at the end, with a name of its own. -/
theorem NamesDistinct.append_single (hf : NamesDistinct f) (hc : NamesDistinct children)
    (hname : item.name ∉ f.names) : NamesDistinct (f.append (single item children)) := by
  induction f with
  | nil => exact ⟨List.not_mem_nil, hc, trivial⟩
  | cons first below rest _ ihr =>
    obtain ⟨hfirst, hbelow, hrest⟩ := hf
    obtain ⟨hne, hname⟩ := not_or.mp (fun h => hname (List.mem_cons.mpr h))
    refine ⟨?_, hbelow, ihr hrest hname⟩
    rw [names_append, List.mem_append, not_or]
    exact ⟨hfirst, fun h => hne (List.mem_singleton.mp h).symm⟩

end Forest

namespace Report

open Forest

/-! ## One report for each id -/

theorem firsts_sublist (seen : List InstanceId) (reports : List Report) :
    (firsts seen reports).Sublist reports := by
  induction reports generalizing seen with
  | nil => exact List.Sublist.slnil
  | cons r rest ih =>
    unfold firsts
    split
    · exact (ih seen).cons r
    · exact (ih (r.id :: seen)).cons_cons r

/-- Of the reports that count no two have one id, and none an id that was seen before. -/
theorem nodup_firsts (seen : List InstanceId) (reports : List Report) :
    ((firsts seen reports).map (·.id)).Nodup ∧ ∀ r ∈ firsts seen reports, r.id ∉ seen := by
  induction reports generalizing seen with
  | nil => exact ⟨List.nodup_nil, fun _ h => absurd h List.not_mem_nil⟩
  | cons r rest ih =>
    unfold firsts
    split
    · exact ih seen
    · next hr =>
      obtain ⟨hnodup, hfresh⟩ := ih (r.id :: seen)
      refine ⟨List.nodup_cons.mpr ⟨fun hmem => ?_, hnodup⟩, fun r' hr' => ?_⟩
      · obtain ⟨r', hr', heq⟩ := List.mem_map.mp hmem
        exact hfresh r' hr' (heq ▸ List.mem_cons_self)
      · rcases List.mem_cons.mp hr' with rfl | hr'
        · exact hr
        · exact fun hmem => hfresh r' hr' (List.mem_cons_of_mem _ hmem)

/-! ## Lineages -/

/-- The chain of parents from an id up to a report without one; the root has an empty chain. -/
inductive Lineage (reports : List Report) : Option InstanceId → List InstanceId → Prop where
  | root : Lineage reports none []
  | step {r : Report} {above : List InstanceId} :
    r ∈ reports → Lineage reports r.parentId above → Lineage reports (some r.id) (r.id :: above)

variable {reports : List Report} {parent : Option InstanceId} {above : List InstanceId}

/-- With one report for each id there is one lineage for each. -/
theorem Lineage.unique (nodup : (reports.map (·.id)).Nodup) {above' : List InstanceId}
    (h : Lineage reports parent above) (h' : Lineage reports parent above') : above = above' := by
  induction h generalizing above' with
  | root => cases h'; rfl
  | @step r _ hr _ ih =>
    generalize hid : some r.id = a at h'
    cases h' with
    | root => cases hid
    | @step r' _ hr' hl' =>
      obtain rfl := List.inj_on_of_nodup_map nodup hr hr' (Option.some.inj hid)
      rw [ih hl']

/-- The lineage of a report under a parent goes on with the parent's. -/
theorem Lineage.child (h : Lineage reports parent above) {r : Report}
    (hr : r ∈ reports.filter fun r => decide (r.parentId = parent)) :
    Lineage reports (some r.id) (r.id :: above) := by
  obtain ⟨hreport, hparent⟩ := List.mem_filter.mp hr
  refine .step hreport ?_
  rw [of_decide_eq_true hparent]
  exact h

/-! ## One level -/

section Level

variable {below : Report → Forest}

/-- The ids of a level that grew from reports, and of all below it. -/
theorem ids_foldl (level : List Report) (f : Forest) :
    (level.foldl (fun f r => f.append (.single (r.toItem f.names) (below r))) f).ids =
      f.ids ++ level.flatMap fun r => r.id :: (below r).ids := by
  induction level generalizing f with
  | nil => exact (List.append_nil _).symm
  | cons r level ih =>
    rw [List.foldl_cons, ih, ids_append, List.flatMap_cons, List.append_assoc, single, ids_cons]
    show f.ids ++ (r.id :: ((below r).ids ++ []) ++ _) = _
    rw [List.append_nil]

/-- The names of a level that grew from reports are distinct. -/
theorem namesDistinct_foldl (level : List Report) {f : Forest} (hf : NamesDistinct f)
    (hbelow : ∀ r ∈ level, NamesDistinct (below r)) :
    NamesDistinct (level.foldl (fun f r => f.append (.single (r.toItem f.names) (below r))) f) := by
  induction level generalizing f with
  | nil => exact hf
  | cons r level ih =>
    refine ih ?_ fun r' hr' => hbelow r' (List.mem_cons_of_mem _ hr')
    exact hf.append_single (hbelow r List.mem_cons_self) (Name.resolve_not_mem _ _)

/-- A row of a level that grew from reports: that of a report, or a row below one. -/
theorem mem_placements_foldl {level : List Report} {f : Forest} {row : Placed}
    (h : row ∈ placements parent
      (level.foldl (fun f r => f.append (.single (r.toItem f.names) (below r))) f)) :
    row ∈ placements parent f ∨ ∃ r ∈ level,
      (∃ siblings, row = ⟨parent, r.toItem siblings⟩) ∨ row ∈ placements (some r.id) (below r) := by
  induction level generalizing f with
  | nil => exact .inl h
  | cons r level ih =>
    rcases ih h with h | ⟨r', hr', h⟩
    · rw [placements_append, List.mem_append] at h
      rcases h with h | h
      · exact .inl h
      · refine .inr ⟨r, List.mem_cons_self, ?_⟩
        rcases List.mem_cons.mp h with rfl | h
        · exact .inl ⟨_, rfl⟩
        · rw [placements, List.append_nil] at h
          exact .inr h
    · exact .inr ⟨r', List.mem_cons_of_mem _ hr', h⟩

end Level

/-! ## Level by level -/

/-- Whatever grows below a parent has a lineage that goes on with the parent's. -/
theorem exists_lineage {depth : Nat} {id : InstanceId} (hparent : Lineage reports parent above)
    (hid : id ∈ (grow reports depth parent).ids) :
    ∃ between, Lineage reports (some id) (id :: between) ∧ above <:+ between := by
  induction depth generalizing parent above with
  | zero => cases hid
  | succ depth ih =>
    rw [grow, ids_foldl] at hid
    obtain ⟨r, hr, hid⟩ := List.mem_flatMap.mp hid
    have hline := hparent.child hr
    rcases List.mem_cons.mp hid with rfl | hid
    · exact ⟨above, hline, List.suffix_rfl⟩
    · obtain ⟨between, hbetween, hsuffix⟩ := ih hline hid
      exact ⟨between, hbetween, (List.suffix_cons _ _).trans hsuffix⟩

/-- No id grows twice below a parent that has a lineage. -/
theorem nodup_ids_grow (nodup : (reports.map (·.id)).Nodup) {depth : Nat}
    (hparent : Lineage reports parent above) : (grow reports depth parent).ids.Nodup := by
  induction depth generalizing parent above with
  | zero => exact List.nodup_nil
  | succ depth ih =>
    have hline : ∀ r ∈ reports.filter (fun r => decide (r.parentId = parent)),
        Lineage reports (some r.id) (r.id :: above) := fun _ => hparent.child
    -- what stands at a report or below it has a lineage through the report
    have hthrough : ∀ r ∈ reports.filter (fun r => decide (r.parentId = parent)),
        ∀ id ∈ r.id :: (grow reports depth (some r.id)).ids,
          ∃ l, Lineage reports (some id) l ∧ (r.id :: above) <:+ l := by
      intro r hr id hid
      rcases List.mem_cons.mp hid with rfl | hid
      · exact ⟨_, hline r hr, List.suffix_rfl⟩
      · obtain ⟨between, hl, hsuffix⟩ := exists_lineage (hline r hr) hid
        exact ⟨_, hl, hsuffix.trans (List.suffix_cons _ _)⟩
    rw [grow, ids_foldl]
    refine List.nodup_flatMap.mpr ⟨fun r hr => ?_, ?_⟩
    · refine List.nodup_cons.mpr ⟨fun hmem => ?_, ih (hline r hr)⟩
      obtain ⟨between, hl, hsuffix⟩ := exists_lineage (hline r hr) hmem
      have heq := (hline r hr).unique nodup hl
      have hle := hsuffix.length_le
      rw [← List.tail_eq_of_cons_eq heq, List.length_cons] at hle
      exact absurd hle (Nat.not_succ_le_self _)
    · refine List.Pairwise.imp_of_mem ?_ ((nodup.of_map _).filter _)
      intro r r' hr hr' hne id hid hid'
      obtain ⟨l, hl, hsuffix⟩ := hthrough r hr id hid
      obtain ⟨l', hl', hsuffix'⟩ := hthrough r' hr' id hid'
      obtain rfl := hl.unique nodup hl'
      have hshort := List.suffix_of_suffix_length_le hsuffix hsuffix' (Nat.le_refl _)
      have heq := hshort.eq_of_length rfl
      refine hne (List.inj_on_of_nodup_map nodup ?_ ?_ (List.head_eq_of_cons_eq heq))
      · exact (List.mem_filter.mp hr).1
      · exact (List.mem_filter.mp hr').1

/-- At every level that grows the names are distinct. -/
theorem namesDistinct_grow (depth : Nat) (parent : Option InstanceId) :
    NamesDistinct (grow reports depth parent) := by
  induction depth generalizing parent with
  | zero => trivial
  | succ depth ih => exact namesDistinct_foldl _ trivial fun r _ => ih (some r.id)

/-- Every row that grows is that of a report. -/
theorem exists_report_of_mem_grow {depth : Nat} {row : Placed}
    (h : row ∈ placements parent (grow reports depth parent)) :
    ∃ r ∈ reports, row.parent = r.parentId ∧ ∃ siblings, row.item = r.toItem siblings := by
  induction depth generalizing parent with
  | zero => cases h
  | succ depth ih =>
    rcases mem_placements_foldl h with h | ⟨r, hr, ⟨siblings, rfl⟩ | h⟩
    · cases h
    · obtain ⟨hreport, hlevel⟩ := List.mem_filter.mp hr
      exact ⟨r, hreport, (of_decide_eq_true hlevel).symm, siblings, rfl⟩
    · exact ih h

/-- The properties of a reported item have no reserved key. -/
theorem unreserved_toItem (r : Report) (siblings : List String) :
    ∀ key ∈ (r.toItem siblings).properties.keys, isReservedKey key = false := by
  intro key hkey
  have hkept := (SortedMap.mem_keys_filter (p := fun key => !isReservedKey key)).mp hkey
  exact Bool.not_eq_true' _ ▸ hkept.2

/-- Each row of what reports describe is that of a report, and has its parent. -/
theorem exists_report_of_mem_table {row : Placed} (h : row ∈ (toForest reports).table) :
    ∃ r ∈ reports, row.parent = r.parentId ∧ ∃ siblings, row.item = r.toItem siblings := by
  obtain ⟨r, hr, hrow⟩ := exists_report_of_mem_grow h
  exact ⟨r, (firsts_sublist [] reports).subset hr, hrow⟩

/-- Whatever is reported describes a well-formed forest. -/
theorem wellFormed_toForest (reports : List Report) : (toForest reports).WellFormed := by
  have nodup : (toForest reports).ids.Nodup := nodup_ids_grow (nodup_firsts [] reports).1 .root
  refine ⟨by rwa [map_id_placements], ?_, ?_⟩
  · exact nodup_slots_of_namesDistinct (namesDistinct_grow _ _) nodup fun _ _ heq => by cases heq
  · intro row hrow
    obtain ⟨r, _, _, siblings, hitem⟩ := exists_report_of_mem_table hrow
    rw [hitem]
    exact unreserved_toItem r siblings

end Report

end SharedScene
