import SharedScene.Proofs.Scene.Rows
import SharedScene.Proofs.Scene.Records
import SharedScene.Proofs.Scene.Resync.Target

/-!
# Reports that are taken as they are

Whoever reports a scene that is well-formed reports nothing that has to be put right: no id comes
twice, the names keep the rules and no two siblings share one, and no property has a reserved key
(`Plain`). Of such reports every one counts as it is, so what they describe grows from their rows
(`toForest_eq_ofRows`).

It follows that the reports of a forest describe it. In the order of the forest they give it back
with its order of siblings (`toForest_eq`); in any other order they give the same rows
(`table_toForest_perm`).
-/

namespace SharedScene

open Forest

/-- What the engine reports of an instance with this record. -/
def Instance.toReport (r : Instance) : Report :=
  ⟨r.id, r.className, r.name, r.parent, r.properties⟩

/-- The row that a report asks for. -/
def Report.toPlaced (r : Report) : Placed :=
  ⟨r.parentId, ⟨r.id, r.className, r.name, r.properties⟩⟩

/-- The records of a forest report its rows. -/
theorem Forest.map_toPlaced_index (f : Forest) (parent : Option InstanceId) (above : Path) :
    ((index parent above f).map fun e => e.record.toReport.toPlaced) = placements parent f := by
  induction f generalizing parent above with
  | nil => rfl
  | cons item children rest ihc ihr =>
    rw [index, List.map_cons, List.map_append, ihc, ihr, placements]
    rfl

namespace Report

variable {f : Forest} {reports level : List Report} {r : Report} {parent : Option InstanceId}

/-- Reports of which none has to be put right. -/
structure Plain (reports : List Report) : Prop where
  sound : Sound (reports.map toPlaced)
  valid : ∀ r ∈ reports, Name.isValid r.name = true

/-- Where no id comes twice, every report is the first of its id. -/
theorem firsts_eq_self {seen : List InstanceId} (nodup : (reports.map (·.id)).Nodup)
    (fresh : ∀ r ∈ reports, r.id ∉ seen) : firsts seen reports = reports := by
  induction reports generalizing seen with
  | nil => rfl
  | cons r rest ih =>
    obtain ⟨hr, nodup⟩ := List.nodup_cons.mp nodup
    rw [firsts, if_neg (fresh r List.mem_cons_self), ih nodup]
    intro r' hr' hmem
    rcases List.mem_cons.mp hmem with heq | hmem
    · exact hr (List.mem_map.mpr ⟨r', hr', heq⟩)
    · exact fresh r' (List.mem_cons_of_mem _ hr') hmem

/-- Properties without a reserved key are kept as they are. -/
theorem withoutReserved_eq_self {ps : Properties}
    (h : ∀ key ∈ ps.keys, isReservedKey key = false) : SortedMap.withoutReserved ps = ps := by
  refine SortedMap.ext (List.filter_eq_self.mpr fun e he => ?_)
  simp [h e.1 (List.mem_map_of_mem he)]

/-- A report with a valid name that no sibling has is taken as it is. -/
theorem toItem_eq {siblings : List String} (valid : Name.isValid r.name = true)
    (free : r.name ∉ siblings)
    (unreserved : ∀ key ∈ r.properties.keys, isReservedKey key = false) :
    r.toItem siblings = r.toPlaced.item := by
  simp only [toItem, desiredName, if_pos valid, Name.resolve, if_neg free,
    withoutReserved_eq_self unreserved, toPlaced]

/-- Plain reports of one level add a node each to those that are there. -/
theorem foldl_plain {below : Report → Forest} {ns : List (Item × Forest)}
    (valid : ∀ r ∈ level, Name.isValid r.name = true)
    (unreserved : ∀ r ∈ level, ∀ key ∈ r.properties.keys, isReservedKey key = false)
    (names : (ns.map (·.1.name) ++ level.map (·.name)).Nodup) :
    level.foldl (fun f r => f.append (.single (r.toItem f.names) (below r))) (ofNodes ns) =
      ofNodes (ns ++ level.map fun r => (r.toPlaced.item, below r)) := by
  induction level generalizing ns with
  | nil => rw [List.foldl_nil, List.map_nil, List.append_nil]
  | cons r level ih =>
    have free : r.name ∉ (ofNodes ns).names := by
      rw [names_ofNodes]
      exact fun hmem => (List.nodup_append.mp names).2.2 _ hmem _ List.mem_cons_self rfl
    have hitem := toItem_eq (valid r List.mem_cons_self) free (unreserved r List.mem_cons_self)
    rw [List.foldl_cons, hitem,
      show single r.toPlaced.item (below r) = ofNodes [(r.toPlaced.item, below r)] from rfl,
      ← ofNodes_append, ih (fun r hr => valid r (List.mem_cons_of_mem _ hr))
        (fun r hr => unreserved r (List.mem_cons_of_mem _ hr)),
      List.append_assoc, List.singleton_append, List.map_cons]
    rw [List.map_append, List.append_assoc]
    exact names

namespace Plain

/-- No two reports of one level share a name. -/
theorem nodup_names (h : Plain reports) (parent : Option InstanceId) :
    ((reports.filter fun r => decide (r.parentId = parent)).map (·.name)).Nodup := by
  have hsub : (reports.filter fun r => decide (r.parentId = parent)).Sublist reports :=
    List.filter_sublist
  have nodup := h.sound.nodup_slots.sublist ((hsub.map toPlaced).map Placed.slot)
  -- on one level a slot is the name beside the one parent
  have hslots : ((reports.filter fun r => decide (r.parentId = parent)).map toPlaced).map
      Placed.slot = ((reports.filter fun r => decide (r.parentId = parent)).map
        (·.name)).map (Prod.mk parent) := by
    rw [List.map_map, List.map_map]
    refine List.map_congr_left fun r hr => ?_
    rw [← of_decide_eq_true (List.mem_filter.mp hr).2]
    rfl
  rw [hslots] at nodup
  exact nodup.of_map _

/-- What grows from plain reports grows from their rows. -/
theorem grow_eq_ofRows (h : Plain reports) (depth : Nat) (parent : Option InstanceId) :
    grow reports depth parent = ofRows (reports.map toPlaced) depth parent := by
  induction depth generalizing parent with
  | zero => rfl
  | succ depth ih =>
    have hmem : ∀ r ∈ reports.filter (fun r => decide (r.parentId = parent)), r ∈ reports :=
      fun r hr => (List.mem_filter.mp hr).1
    have hlevel := @foldl_plain _ (fun r => grow reports depth (some r.id)) []
      (fun r hr => h.valid r (hmem r hr))
      (fun r hr => h.sound.unreserved _ (List.mem_map_of_mem (hmem r hr)))
      (h.nodup_names parent)
    simp only [ih] at hlevel
    rw [grow, ofRows, rowsUnder, List.filter_map, List.map_map]
    simp only [ih]
    exact hlevel

theorem toForest_eq_ofRows (h : Plain reports) :
    toForest reports = ofRows (reports.map toPlaced) reports.length none := by
  have nodup : (reports.map (·.id)).Nodup := by
    have := h.sound.nodup_ids
    rwa [List.map_map] at this
  rw [toForest, firsts_eq_self nodup fun _ _ => List.not_mem_nil]
  exact h.grow_eq_ofRows _ _

end Plain

/-! ## The reports of a forest -/

theorem plain_of_perm (hf : f.WellFormed)
    (valid : ∀ item ∈ f.preorder, Name.isValid item.name = true)
    (hperm : (reports.map toPlaced).Perm f.table) : Plain reports where
  sound := hf.perm hperm
  valid r hr := by
    have hrow := hperm.mem_iff.mp (List.mem_map_of_mem hr)
    exact valid r.toPlaced.item (map_item_placements none f ▸ List.mem_map_of_mem hrow)

/-- There is one report for each instance. -/
theorem size_eq_length (hperm : (reports.map toPlaced).Perm f.table) :
    f.size = reports.length := by
  rw [← length_table, ← hperm.length_eq, List.length_map]

/-- The reports of a forest describe its rows, in whatever order they come. -/
theorem table_toForest_perm (hf : f.WellFormed)
    (valid : ∀ item ∈ f.preorder, Name.isValid item.name = true)
    (hperm : (reports.map toPlaced).Perm f.table) : (toForest reports).table.Perm f.table := by
  rw [(plain_of_perm hf valid hperm).toForest_eq_ofRows]
  refine (placements_ofRows_perm hperm _ none).trans ?_
  rw [ofRows_table (size_eq_length hperm).le (WellFormed.nodup_ids hf)]

/-- The reports of a forest in its own order describe it, order of siblings included. -/
theorem toForest_eq (hf : f.WellFormed)
    (valid : ∀ item ∈ f.preorder, Name.isValid item.name = true)
    (hrows : reports.map toPlaced = f.table) : toForest reports = f := by
  have hperm : (reports.map toPlaced).Perm f.table := .of_eq hrows
  rw [(plain_of_perm hf valid hperm).toForest_eq_ofRows, hrows,
    ofRows_table (size_eq_length hperm).le (WellFormed.nodup_ids hf)]

end Report

end SharedScene
