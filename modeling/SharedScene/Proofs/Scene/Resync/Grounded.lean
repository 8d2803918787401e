import SharedScene.Proofs.Scene.Records
import SharedScene.Proofs.Scene.Resync.Target

/-!
# Which reports describe an instance

Of the reports with one id the first counts. It describes an instance when its chain of parents ends
at a report without one (`Grounded`): a chain that runs in a circle never ends, and one that asks
for a parent that nobody reports breaks off. Where reports come in the list does not matter, so a
child may be reported before its parent.

A forest grows from the top, level by level, and to a depth that is bounded by the number of
reports. The bound cuts nothing off, since no id comes twice in a lineage
(`Lineage.length_le`); so what grows is exactly what is grounded (`mem_ids_toForest_iff`).
-/

namespace SharedScene.Report

open Forest

/-- The report that counts for an id. -/
def firstOf? (reports : List Report) (id : InstanceId) : Option Report :=
  reports.find? fun r => decide (r.id = id)

/-- Whether the chain of parents of an id ends at a report without one. -/
inductive Grounded (reports : List Report) : InstanceId → Prop where
  | top {id : InstanceId} {r : Report} :
    firstOf? reports id = some r → r.parentId = none → Grounded reports id
  | under {id parent : InstanceId} {r : Report} :
    firstOf? reports id = some r → r.parentId = some parent → Grounded reports parent →
      Grounded reports id

variable {reports : List Report} {r : Report} {id x : InstanceId}
  {parent parent' : Option InstanceId} {above between : List InstanceId}

/-! ## The first report of an id -/

/-- Whoever is among the first reports is the first one of its id, unless that was seen before. -/
theorem mem_firsts_iff {seen : List InstanceId} :
    r ∈ firsts seen reports ↔ firstOf? reports r.id = some r ∧ r.id ∉ seen := by
  induction reports generalizing seen with
  | nil => simp [firsts, firstOf?]
  | cons first rest ih =>
    have hfind : firstOf? (first :: rest) r.id =
        if first.id = r.id then some first else firstOf? rest r.id := by
      by_cases heq : first.id = r.id <;> simp [firstOf?, heq]
    rw [hfind]
    by_cases heq : first.id = r.id
    · rw [if_pos heq, firsts]
      split
      · next hseen => simp [ih, ← heq, hseen]
      · next hseen =>
        rw [List.mem_cons, ih]
        simp [← heq, hseen, eq_comm]
    · rw [if_neg heq, firsts]
      split
      · exact ih
      · rw [List.mem_cons, ih, List.mem_cons, not_or]
        constructor
        · rintro (rfl | ⟨hfirst, _, hseen⟩)
          · exact absurd rfl heq
          · exact ⟨hfirst, hseen⟩
        · exact fun ⟨hfirst, hseen⟩ => .inr ⟨hfirst, Ne.symm heq, hseen⟩

theorem firstOf?_eq_some_iff :
    firstOf? reports id = some r ↔ r ∈ firsts [] reports ∧ r.id = id := by
  constructor
  · intro hfirst
    obtain rfl : r.id = id :=
      of_decide_eq_true (List.find?_some (p := fun r : Report => decide (r.id = id)) hfirst)
    exact ⟨mem_firsts_iff.mpr ⟨hfirst, List.not_mem_nil⟩, rfl⟩
  · rintro ⟨hmem, rfl⟩
    exact (mem_firsts_iff.mp hmem).1

/-! ## How long a lineage is -/

namespace Lineage

/-- A lineage from some place on is the lineage of who stands there. -/
theorem suffix (h : Lineage reports parent above) (hs : x :: between <:+ above) :
    Lineage reports (some x) (x :: between) := by
  induction h with
  | root => exact absurd (List.suffix_nil.mp hs) (List.cons_ne_nil _ _)
  | @step r above hr hl ih =>
    rcases List.suffix_cons_iff.mp hs with heq | hs
    · obtain ⟨rfl, rfl⟩ := List.cons.inj heq
      exact .step hr hl
    · exact ih hs

theorem subset (h : Lineage reports parent above) : above ⊆ reports.map (·.id) := by
  induction h with
  | root => exact List.nil_subset _
  | step hr _ ih => exact List.cons_subset.mpr ⟨List.mem_map_of_mem hr, ih⟩

/-- With one report for each id none comes twice in a lineage. -/
theorem nodup (nodup : (reports.map (·.id)).Nodup) (h : Lineage reports parent above) :
    above.Nodup := by
  induction h with
  | root => exact List.nodup_nil
  | @step r above hr hl ih =>
    refine List.nodup_cons.mpr ⟨fun hmem => ?_, ih⟩
    -- from the second place on there would be a shorter lineage of the same id
    obtain ⟨lower, higher, rfl⟩ := List.append_of_mem hmem
    have hagain := hl.suffix (List.suffix_append lower (r.id :: higher))
    have hsame := congrArg List.length ((Lineage.step hr hl).unique nodup hagain)
    rw [List.length_cons, List.length_append] at hsame
    omega

theorem length_le (hids : (reports.map (·.id)).Nodup) (h : Lineage reports parent above) :
    above.length ≤ reports.length := by
  have hle := ((h.nodup hids).subperm h.subset).length_le
  rwa [List.length_map] at hle

/-- A lineage starts with the id whose it is. -/
theorem head?_eq (h : Lineage reports parent above) : above.head? = parent := by
  cases h <;> rfl

end Lineage

/-- The chain of parents of an id that is grounded is its lineage. -/
theorem grounded_iff_exists_lineage :
    Grounded reports id ↔ ∃ above, Lineage (firsts [] reports) (some id) above := by
  constructor
  · intro h
    induction h with
    | @top id r hfirst hparent =>
      obtain ⟨hmem, rfl⟩ := firstOf?_eq_some_iff.mp hfirst
      refine ⟨[r.id], .step hmem ?_⟩
      rw [hparent]
      exact .root
    | @under id parent r hfirst hparent _ ih =>
      obtain ⟨hmem, rfl⟩ := firstOf?_eq_some_iff.mp hfirst
      obtain ⟨above, hl⟩ := ih
      refine ⟨r.id :: above, .step hmem ?_⟩
      rw [hparent]
      exact hl
  · rintro ⟨above, hl⟩
    generalize hid : some id = parent at hl
    induction hl generalizing id with
    | root => cases hid
    | @step r _ hr hl ih =>
      obtain rfl := Option.some.inj hid
      have hfirst := firstOf?_eq_some_iff.mpr ⟨hr, rfl⟩
      cases hparent : r.parentId with
      | none => exact .top hfirst hparent
      | some x => exact .under hfirst hparent (ih hparent.symm)

/-! ## What grows -/

/-- Below a parent grows whatever has a lineage that goes on with the parent's, as deep as that is
longer. -/
theorem mem_ids_grow {depth : Nat} (hparent : Lineage reports parent above)
    (hid : Lineage reports (some id) (between ++ above)) (hne : between ≠ [])
    (hdepth : between.length ≤ depth) : id ∈ (grow reports depth parent).ids := by
  induction depth generalizing parent above between with
  | zero => exact absurd (List.length_eq_zero_iff.mp (Nat.le_zero.mp hdepth)) hne
  | succ depth ih =>
    obtain ⟨lower, z, rfl⟩ := List.eq_nil_or_concat between |>.resolve_left hne
    rw [List.concat_eq_append] at hid hdepth
    rw [List.append_assoc, List.singleton_append] at hid
    have hz := hid.suffix (List.suffix_append lower (z :: above))
    cases hz with
    | @step r _ hr hl =>
      rw [grow, ids_foldl]
      refine List.mem_flatMap.mpr ⟨r, List.mem_filter.mpr ⟨hr, ?_⟩, ?_⟩
      · exact decide_eq_true (hl.head?_eq.symm.trans hparent.head?_eq)
      · by_cases hlower : lower = []
        · have hhead := hid.head?_eq
          rw [hlower, List.nil_append] at hhead
          exact Option.some.inj hhead ▸ List.mem_cons_self
        · rw [List.length_append, List.length_singleton] at hdepth
          exact List.mem_cons_of_mem _ (ih (.step hr hl) hid hlower (by omega))

/-- What reports describe has exactly the ids that are grounded. -/
theorem mem_ids_toForest_iff : id ∈ (toForest reports).ids ↔ Grounded reports id := by
  have nodup := (nodup_firsts [] reports).1
  rw [grounded_iff_exists_lineage]
  constructor
  · intro hid
    obtain ⟨between, hl, _⟩ := exists_lineage .root hid
    exact ⟨_, hl⟩
  · rintro ⟨between, hl⟩
    have hl' : Lineage (firsts [] reports) (some id) (between ++ []) := by
      rwa [List.append_nil]
    refine mem_ids_grow .root hl' ?_ (hl.length_le nodup)
    rintro rfl
    cases hl.head?_eq

/-- There are no more instances than first reports, -/
theorem size_toForest_le_firsts (reports : List Report) :
    (toForest reports).size ≤ (firsts [] reports).length := by
  have hsub : (toForest reports).ids ⊆ (firsts [] reports).map (·.id) := by
    intro id hid
    obtain ⟨between, hl, _⟩ := exists_lineage .root hid
    exact hl.subset List.mem_cons_self
  have hle := ((WellFormed.nodup_ids (wellFormed_toForest reports)).subperm hsub).length_le
  rwa [length_ids, List.length_map] at hle

/-- and so no more than reports. -/
theorem size_toForest_le (reports : List Report) : (toForest reports).size ≤ reports.length :=
  (size_toForest_le_firsts reports).trans (firsts_sublist [] reports).length_le

end SharedScene.Report
