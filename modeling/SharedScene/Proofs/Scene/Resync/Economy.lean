import SharedScene.Proofs.Scene.Resync.Idle
import SharedScene.Proofs.Scene.Resync.Kept

/-!
# A resync tells no more than it has to

Events are spent on what changed (`Store.resync_tells_what_changed`). A survivor that keeps its
parent, its name and its properties is in no event. A move may rename a bystander, but only one that
stands in the slot of another row, and no unchanged survivor ever does. What is gone is told by one
delete for each part that hangs together: who does not survive is deleted by itself when it stood at
the top or below a survivor, and goes silently with its parent otherwise.

The deletes come when every survivor has been moved away from what is gone; in the meantime whoever
does not survive stays below its parent of before. That is why the parents that count here are those
of the old forest.
-/

namespace SharedScene

namespace Resync

open Forest

variable {old target : Forest} {id x : InstanceId} {before w : Placed}

/-! ## The parts of a plan -/

/-- An event after which the same instances are there. -/
def Alters (e : Event) : Prop := isCreate e = false ∧ isDelete e = false

theorem Plan.adds_park (p : Plan) (q : Path) (name : String) (keep : InstanceId) :
    p.Adds (p.park q name keep) Alters := by
  unfold Plan.park
  split
  · exact .refl p
  · split
    · exact .refl p
    · exact .step ⟨rfl, rfl⟩

theorem Plan.adds_place (p : Plan) (w : Placed) : p.Adds (p.place w) Alters := by
  unfold Plan.place
  dsimp only
  split
  · split
    · exact .refl p
    · split
      · exact p.adds_park _ _ _
      · refine (p.adds_park _ _ _).trans (.step ?_)
        split <;> exact ⟨rfl, rfl⟩
  · exact .refl p

theorem Plan.adds_updateProperties (p : Plan) (w : Placed) :
    p.Adds (p.updateProperties w) fun e => Alters e ∧ e.id = w.id := by
  unfold Plan.updateProperties
  dsimp only
  split
  · split
    · exact .refl p
    · refine ⟨_, rfl, fun e he => ?_⟩
      obtain ⟨_, _, rfl⟩ := List.mem_map.mp he
      exact ⟨⟨rfl, rfl⟩, rfl⟩
  · exact .refl p

/-- The deletes of a plan. -/
def deletions (old target : Forest) : List Event :=
  (Plan.doomed (survivors old target) Path.root (moved old target).scene).map deletion

/-- The events of a plan: moves, the deletes, one create for each row that is new, and updates of
survivors. -/
structure Parts (old target : Forest) (moves creates updates : List Event) : Prop where
  events : (plan old target).events = moves ++ deletions old target ++ creates ++ updates
  events_moved : (moved old target).events = moves
  alters : ∀ e ∈ moves, Alters e
  isCreate : ∀ e ∈ creates, isCreate e = true
  map_id_creates : creates.map Event.id = (freshRows old target).map Placed.id
  alters_survivor : ∀ e ∈ updates, Alters e ∧ e.id ∈ survivors old target

section Parts

variable (hold : old.WellFormed) (ht : target.WellFormed)

include hold ht

theorem exists_parts : ∃ moves creates updates, Parts old target moves creates updates := by
  obtain ⟨moves, hmoves, hkind⟩ : Plan.Adds ⟨old, []⟩ (moved old target) Alters :=
    .foldl fun p w _ => p.adds_place w
  obtain ⟨⟨creates, hcreates, hids, hcreate⟩, _⟩ :=
    (building_cleared hold ht).foldl_create_tells ht (fun _ hw => (mem_freshRows.mp hw).1)
      parentsFirst_freshRows (fun _ hw => (mem_freshRows.mp hw).2) (nodup_freshRows ht)
  obtain ⟨updates, hupdates, hupdate⟩ : (filled old target).Adds (plan old target)
      fun e => Alters e ∧ e.id ∈ survivors old target := by
    rw [plan_eq]
    refine .foldl fun p w hw => ?_
    obtain ⟨events, hevents, hkind⟩ := p.adds_updateProperties w
    refine ⟨events, hevents, fun e he => ⟨(hkind e he).1, ?_⟩⟩
    rw [(hkind e he).2]
    exact (mem_keptRows.mp hw).2
  have hcleared : (cleared old target).events = moves ++ deletions old target := by
    rw [cleared, Plan.deleteDoomed_eq (placing_moved hold ht).1.wellFormed, hmoves]
    rfl
  refine ⟨moves, creates, updates, ?_, hmoves, hkind, hcreate, hids, hupdate⟩
  rw [hupdates, filled, hcreates, hcleared]

/-! ## Who is deleted -/

/-- Who does not survive stays below its parent while others move. -/
theorem map_parent_moved (hid : id ∉ survivors old target) :
    ((moved old target).scene.placed? id).map (·.parent) =
      (old.placed? id).map (·.parent) := by
  refine ((placing_moved hold ht).2 id).parent fun w hw => ?_
  rintro rfl
  exact hid (mem_keptRows.mp hw).2

/-- A delete is about each instance that does not survive and stood at the top or below a survivor,
and about no other. -/
theorem mem_map_id_deletions : id ∈ (deletions old target).map Event.id ↔
    ∃ before, old.placed? id = some before ∧ id ∉ survivors old target ∧
      ∀ x, before.parent = some x → x ∈ survivors old target := by
  have hplacing := (placing_moved hold ht).1
  have up := hplacing.upClosed_survivors fun _ => mem_reverse_keptRows
  have hwf := hplacing.wellFormed
  have hparent : ∀ parent : Option InstanceId,
      (parent = none ∨ ∃ x ∈ survivors old target, parent = some x) ↔
        ∀ x, parent = some x → x ∈ survivors old target := by
    intro parent
    cases parent <;> simp
  rw [deletions, List.map_map, show Event.id ∘ deletion = Prod.snd from rfl,
    Plan.mem_doomed_iff (WellFormed.nodup_ids hwf) (fun _ _ heq => by cases heq) up]
  simp only [hparent]
  constructor
  · rintro ⟨row, hrow, rfl, hid, habove⟩
    have hsame := map_parent_moved hold ht hid
    rw [hwf.placed?_eq_some_iff.mpr ⟨hrow, rfl⟩] at hsame
    obtain ⟨before, hbefore, heq⟩ := Option.map_eq_some_iff.mp hsame.symm
    exact ⟨before, hbefore, hid, fun x hx => habove x (heq.symm.trans hx)⟩
  · rintro ⟨before, hbefore, hid, habove⟩
    have hsame := map_parent_moved hold ht hid
    rw [hbefore] at hsame
    obtain ⟨row, hrow, heq⟩ := Option.map_eq_some_iff.mp hsame
    obtain ⟨hmem, hrid⟩ := hwf.placed?_eq_some_iff.mp hrow
    exact ⟨row, hmem, hrid, hid, fun x hx => habove x (heq.symm.trans hx)⟩

theorem nodup_map_id_deletions : ((deletions old target).map Event.id).Nodup := by
  rw [deletions, List.map_map]
  exact (Plan.doomed_sublist _ _).nodup
    (WellFormed.nodup_ids (placing_moved hold ht).1.wellFormed)

/-! ## Who is left alone -/

/-- No event is about a survivor that stands where the target wants it and has the properties
already. -/
theorem ne_id_of_unchanged (hbefore : old.placed? w.id = some before) (hw : w ∈ target.table)
    (hs : w.id ∈ survivors old target) (hslot : before.slot = w.slot)
    (hprops : Plan.differences before.item.properties w.item.properties = []) :
    ∀ e ∈ (plan old target).events, e.id ≠ w.id := by
  have hplacing := (placing_moved hold ht).1
  have up := hplacing.upClosed_survivors fun _ => mem_reverse_keptRows
  have hmoved : Plan.Spares ⟨old, []⟩ (moved old target) w.id := by
    refine ((placing_moved hold ht).2 w.id).spared fun r hr => ?_
    have hrt := (mem_keptRows.mp hr).1
    rw [hbefore, Option.map_some, hslot, Option.some_inj]
    exact ⟨fun hid => by rw [ht.eq_of_id_eq hrt hw hid],
      fun heq => by rw [ht.eq_of_slot_eq hw hrt heq]⟩
  have hcleared : Plan.Spares (moved old target) (cleared old target) w.id := by
    rw [cleared, Plan.deleteDoomed_eq hplacing.wellFormed]
    refine ⟨(hplacing.wellFormed.placed?_prune up w.id).trans (if_pos hs), _, rfl,
      fun e he heq => ?_⟩
    have hmem : w.id ∈ (deletions old target).map Event.id := heq ▸ List.mem_map_of_mem he
    obtain ⟨_, _, hnot, _⟩ := (mem_map_id_deletions hold ht).mp hmem
    exact hnot hs
  obtain ⟨_, hfilled⟩ := (building_cleared hold ht).foldl_create_tells ht
    (fun _ hw => (mem_freshRows.mp hw).1) parentsFirst_freshRows
    (fun _ hw => (mem_freshRows.mp hw).2) (nodup_freshRows ht)
  have hrow := (hmoved.trans (hcleared.trans (hfilled w.id hs))).row
  have hupdated : (filled old target).Spares (plan old target) w.id := by
    rw [plan_eq]
    refine (building_filled hold ht).spares_foldl_update ht
      (fun _ hw => (mem_keptRows.mp hw).1) fun r hr hid current hcurrent => ?_
    rw [ht.eq_of_id_eq (mem_keptRows.mp hr).1 hw hid]
    obtain rfl := Option.some.inj (hcurrent.symm.trans (hrow.trans hbefore))
    exact hprops
  obtain ⟨events, hevents, hother⟩ :=
    (hmoved.trans (hcleared.trans ((hfilled w.id hs).trans hupdated))).events
  rw [hevents]
  exact hother

/-- What is gone with its parent is in no event but one that creates it anew. -/
theorem isCreate_of_gone (hbefore : old.placed? id = some before) (hparent : before.parent = some x)
    (hid : id ∉ survivors old target) (hx : x ∉ survivors old target) :
    ∀ e ∈ (plan old target).events, e.id = id → isCreate e = true ∧ id ∈ target.ids := by
  obtain ⟨moves, creates, updates, hparts⟩ := exists_parts hold ht
  have hspared : Plan.Spares ⟨old, []⟩ (moved old target) id := by
    refine ((placing_moved hold ht).2 id).spared fun r hr => iff_of_false ?_ fun hslot => ?_
    · rintro rfl
      exact hid (mem_keptRows.mp hr).2
    · -- a survivor wants no slot below what is gone
      rw [hbefore, Option.map_some, Option.some_inj] at hslot
      obtain ⟨hrt, hrs⟩ := mem_keptRows.mp hr
      have hrx : r.parent = some x := (Prod.ext_iff.mp hslot).1.symm.trans hparent
      rcases survivors_upward (WellFormed.nodup_ids ht) hrt hrs with heq | ⟨y, hy, heq⟩
      · cases heq.symm.trans hrx
      · exact hx (Option.some.inj (heq.symm.trans hrx) ▸ hy)
  intro e he heq
  rw [hparts.events, List.append_assoc, List.append_assoc] at he
  rcases List.mem_append.mp he with he | he
  · obtain ⟨events, hevents, hother⟩ := hspared.events
    rw [hparts.events_moved, List.nil_append] at hevents
    exact absurd heq (hother e (hevents ▸ he))
  rcases List.mem_append.mp he with he | he
  · have hmem : id ∈ (deletions old target).map Event.id := heq ▸ List.mem_map_of_mem he
    obtain ⟨row, hrow, _, habove⟩ := (mem_map_id_deletions hold ht).mp hmem
    obtain rfl := Option.some.inj (hbefore.symm.trans hrow)
    exact absurd (habove x hparent) hx
  rcases List.mem_append.mp he with he | he
  · refine ⟨hparts.isCreate e he, ?_⟩
    have hmem : id ∈ creates.map Event.id := heq ▸ List.mem_map_of_mem he
    rw [hparts.map_id_creates] at hmem
    obtain ⟨w, hw, rfl⟩ := List.mem_map.mp hmem
    exact mem_ids_of_mem (mem_freshRows.mp hw).1
  · exact absurd (heq ▸ (hparts.alters_survivor e he).2) hid

end Parts

/-! ## Creates and deletes -/

namespace Parts

variable {moves creates updates : List Event} (hparts : Parts old target moves creates updates)

include hparts

/-- The creates among the events of a plan. -/
theorem filter_isCreate : (plan old target).events.filter Resync.isCreate = creates := by
  have hmoves : moves.filter Resync.isCreate = [] :=
    List.filter_eq_nil_iff.mpr fun e he => Bool.eq_false_iff.mp (hparts.alters e he).1
  have hdeletes : (deletions old target).filter Resync.isCreate = [] := by
    refine List.filter_eq_nil_iff.mpr fun e he => ?_
    obtain ⟨_, _, rfl⟩ := List.mem_map.mp he
    exact Bool.false_ne_true
  have hupdates : updates.filter Resync.isCreate = [] :=
    List.filter_eq_nil_iff.mpr fun e he => Bool.eq_false_iff.mp (hparts.alters_survivor e he).1.1
  rw [hparts.events, List.filter_append, List.filter_append, List.filter_append, hmoves, hdeletes,
    hupdates, List.filter_eq_self.mpr hparts.isCreate]
  simp

/-- The deletes among the events of a plan. -/
theorem filter_isDelete : (plan old target).events.filter isDelete = deletions old target := by
  have hmoves : moves.filter isDelete = [] :=
    List.filter_eq_nil_iff.mpr fun e he => Bool.eq_false_iff.mp (hparts.alters e he).2
  have hcreates : creates.filter isDelete = [] := by
    refine List.filter_eq_nil_iff.mpr fun e he => ?_
    have hcreate := hparts.isCreate e he
    cases e with
    | create id path record => exact Bool.false_ne_true
    | _ => cases hcreate
  have hupdates : updates.filter isDelete = [] :=
    List.filter_eq_nil_iff.mpr fun e he => Bool.eq_false_iff.mp (hparts.alters_survivor e he).1.2
  have hdeletes : (deletions old target).filter isDelete = deletions old target := by
    refine List.filter_eq_self.mpr fun e he => ?_
    obtain ⟨_, _, rfl⟩ := List.mem_map.mp he
    rfl
  rw [hparts.events, List.filter_append, List.filter_append, List.filter_append, hmoves, hcreates,
    hupdates, hdeletes]
  simp

end Parts

/-- What a plan creates. -/
theorem mem_map_id_freshRows : id ∈ (freshRows old target).map Placed.id ↔
    id ∈ target.ids ∧ id ∉ survivors old target := by
  constructor
  · intro hid
    obtain ⟨w, hw, rfl⟩ := List.mem_map.mp hid
    obtain ⟨hmem, hs⟩ := mem_freshRows.mp hw
    exact ⟨mem_ids_of_mem hmem, hs⟩
  · rintro ⟨hid, hs⟩
    obtain ⟨w, hw, rfl⟩ := exists_mem_of_mem_ids none hid
    exact List.mem_map_of_mem (mem_freshRows.mpr ⟨hw, hs⟩)

/-- The ids that events of one kind are about. -/
theorem mem_map_id_filter {events : List Event} {kind : Event → Bool} :
    id ∈ (events.filter kind).map Event.id ↔ ∃ e ∈ events, e.id = id ∧ kind e = true := by
  simp only [List.mem_map, List.mem_filter, and_assoc]
  exact exists_congr fun e => and_congr_right fun _ => and_comm

/-- Of events about different instances one at most is about an id. -/
theorem countP_id_le_one {events : List Event} (nodup : (events.map Event.id).Nodup)
    (id : InstanceId) : events.countP (fun e => decide (e.id = id)) ≤ 1 := by
  have hcount := List.nodup_iff_count_le_one.mp nodup id
  rw [List.count, List.countP_map] at hcount
  refine le_trans (List.countP_mono_left fun e _ he => ?_) hcount
  exact beq_iff_eq.mpr (of_decide_eq_true he)

end Resync

/-! ## What a resync tells -/

/-- Maps that are equal to each other differ in nothing from a map that agrees with one of them. -/
theorem Properties.differences_eq_nil_of_beq {a b c : Properties} (hab : (a == b) = true)
    (hbc : Properties.Agree b c) : Resync.Plan.differences a c = [] := by
  refine List.eq_nil_iff_forall_not_mem.mpr fun change hchange => ?_
  have hne := (Resync.Plan.mem_differences.mp hchange).2
  have hequal : (a.get? change.1 == b.get? change.1) = true := SortedMap.find?_beq hab change.1
  have hagree := hbc change.1
  generalize a.get? change.1 = x, b.get? change.1 = y, c.get? change.1 = z at hne hequal hagree
  rw [bne, Bool.not_eq_true'] at hne
  refine absurd ?_ (Bool.eq_false_iff.mp hne)
  cases hagree with
  | none => exact hequal
  | some hsame => cases x with
    | none => cases hequal
    | some x =>
      rcases hsame with rfl | hsame
      · exact hequal
      · exact BEq.trans (α := Value) hequal hsame

namespace Store

open Forest Resync

theorem outbox_replaceAll (s : Store) (reports : List Report) :
    (s.replaceAll reports).2.outbox =
      s.outbox ++ (plan s.forest (Report.toForest reports)).events := by
  rcases replaceAll_cases s reports with ⟨hevents, heq, _⟩ | ⟨_, heq, _⟩
  · rw [heq, hevents, List.append_nil]
  · rw [heq]

/-- A resync tells what changed and nothing else. An instance that survives and has its parent, its
name and properties equal to those of before is in no event. No id is created twice or deleted
twice. Created is what is there and does not survive; deleted is what was there, does not survive,
and stood at the top or below a survivor. What is gone together with its parent is in no event,
unless one that creates it anew. -/
theorem resync_tells_what_changed {s : Store} (h : s.Reachable) (reports : List Report) :
    let after := (s.replaceAll reports).2
    ∃ events, after.outbox = s.outbox ++ events ∧
      (∀ id before now, s.forest.placed? id = some before → after.forest.placed? id = some now →
        now.parent = before.parent → now.item.name = before.item.name →
        (before.item.properties == now.item.properties) = true →
        Survives s.forest after.forest id → ∀ e ∈ events, e.id ≠ id) ∧
      (∀ id, events.countP (fun e => decide (e.id = id) && isCreate e) ≤ 1 ∧
        events.countP (fun e => decide (e.id = id) && isDelete e) ≤ 1) ∧
      (∀ id, (∃ e ∈ events, e.id = id ∧ isCreate e = true) ↔
        id ∈ after.forest.ids ∧ ¬ Survives s.forest after.forest id) ∧
      (∀ id, (∃ e ∈ events, e.id = id ∧ isDelete e = true) ↔
        ∃ before, s.forest.placed? id = some before ∧ ¬ Survives s.forest after.forest id ∧
          ∀ x, before.parent = some x → Survives s.forest after.forest x) ∧
      (∀ id before x, s.forest.placed? id = some before → before.parent = some x →
        ¬ Survives s.forest after.forest id → ¬ Survives s.forest after.forest x →
        ∀ e ∈ events, e.id = id → isCreate e = true ∧ id ∈ after.forest.ids) := by
  intro after
  have hold := h.wellFormed
  have ht := Report.wellFormed_toForest reports
  have same : SameRows after.forest (Report.toForest reports) := sameRows_replaceAll hold reports
  have hsurvives : ∀ id, Survives s.forest after.forest id ↔
      id ∈ survivors s.forest (Report.toForest reports) := fun id =>
    (survives_iff_of_sameRows same id).trans (mem_survivors_iff ht id).symm
  have hids := same.mem_ids_iff
  obtain ⟨moves, creates, updates, hparts⟩ := exists_parts hold ht
  have hcreates := hparts.filter_isCreate
  have hdeletes := hparts.filter_isDelete
  simp only [hsurvives, hids]
  refine ⟨_, outbox_replaceAll s reports, ?_, fun id => ⟨?_, ?_⟩, fun id => ?_, fun id => ?_, ?_⟩
  · intro id before now hbefore hnow hparent hname hprops hs
    have hid := same id
    rw [hnow] at hid
    generalize hwanted : (Report.toForest reports).placed? id = a at hid
    cases hid with
    | @some _ w hagree =>
      obtain ⟨hw, rfl⟩ := ht.placed?_eq_some_iff.mp hwanted
      refine ne_id_of_unchanged hold ht hbefore hw hs (Prod.ext ?_ ?_)
        (Properties.differences_eq_nil_of_beq hprops hagree.item.properties)
      · exact hparent.symm.trans hagree.parent
      · exact hname.symm.trans hagree.item.name
  · rw [← List.countP_filter, hcreates]
    refine countP_id_le_one ?_ id
    rw [hparts.map_id_creates]
    exact nodup_freshRows ht
  · rw [← List.countP_filter, hdeletes]
    exact countP_id_le_one (nodup_map_id_deletions hold ht) id
  · rw [← mem_map_id_filter, hcreates, hparts.map_id_creates, mem_map_id_freshRows]
  · rw [← mem_map_id_filter, hdeletes, mem_map_id_deletions hold ht]
  · exact fun id before x hbefore hparent hs hx => isCreate_of_gone hold ht hbefore hparent hs hx

/-- The second shelf goes, and its box moves to the first one. The first shelf is in no event, and
neither is the lid, which goes with the shelf where it was. -/
theorem resync_tells_what_changed_emptied :
    let reports : List Report := [⟨⟨"a"⟩, "Folder", "Shelf", none, .empty⟩,
      ⟨⟨"c"⟩, "Part", "Box", some ⟨"a"⟩, .ofList [("Weight", .number 0.5)]⟩]
    ∃ events, (shelved.replaceAll reports).2.outbox = shelved.outbox ++ events ∧
      (∃ e ∈ events, e.id = ⟨"b"⟩ ∧ isDelete e = true) ∧
      ∀ e ∈ events, e.id ≠ ⟨"a"⟩ ∧ e.id ≠ ⟨"d"⟩ := by
  intro reports
  obtain ⟨events, houtbox, hunchanged, _, _, hdeleted, hgone⟩ :=
    resync_tells_what_changed reachable_shelved reports
  have hshelf : ∀ before ∈ shelved.forest.placed? ⟨"a"⟩,
      ∀ now ∈ (shelved.replaceAll reports).2.forest.placed? ⟨"a"⟩,
        before.parent = none ∧ now.parent = none ∧ now.item.name = before.item.name ∧
          before.item.className = now.item.className ∧
          (before.item.properties == now.item.properties) = true := by decide +kernel
  have hthere : (shelved.forest.placed? ⟨"a"⟩).isSome = true ∧
      ((shelved.replaceAll reports).2.forest.placed? ⟨"a"⟩).isSome = true := by decide +kernel
  have hparents : (shelved.forest.placed? ⟨"b"⟩).map (·.parent) = some none ∧
      (shelved.forest.placed? ⟨"d"⟩).map (·.parent) = some (some ⟨"b"⟩) := by decide +kernel
  have hleft : ∀ id ∈ (shelved.replaceAll reports).2.forest.ids, id ≠ ⟨"b"⟩ ∧ id ≠ ⟨"d"⟩ := by
    decide +kernel
  obtain ⟨before, hbefore⟩ := Option.isSome_iff_exists.mp hthere.1
  obtain ⟨now, hnow⟩ := Option.isSome_iff_exists.mp hthere.2
  obtain ⟨htop, htop', hname, hclass, hprops⟩ := hshelf before hbefore now hnow
  obtain ⟨shelf, hshelf, hshelfTop⟩ := Option.map_eq_some_iff.mp hparents.1
  obtain ⟨lid, hlid, hlidParent⟩ := Option.map_eq_some_iff.mp hparents.2
  have hstays : Survives shelved.forest (shelved.replaceAll reports).2.forest ⟨"a"⟩ := by
    refine (survives_iff hnow).mpr ⟨⟨before, now, hbefore, hnow, hclass⟩, fun x hx => ?_⟩
    cases htop'.symm.trans hx
  have hb : ¬ Survives shelved.forest (shelved.replaceAll reports).2.forest ⟨"b"⟩ :=
    fun hs => (hleft _ hs.mem_ids).1 rfl
  have hd : ¬ Survives shelved.forest (shelved.replaceAll reports).2.forest ⟨"d"⟩ :=
    fun hs => (hleft _ hs.mem_ids).2 rfl
  refine ⟨events, houtbox, (hdeleted ⟨"b"⟩).mpr ⟨shelf, hshelf, hb, fun x hx => ?_⟩,
    fun e he => ⟨?_, fun heq => ?_⟩⟩
  · cases hshelfTop.symm.trans hx
  · exact hunchanged _ before now hbefore hnow (htop'.trans htop.symm) hname hprops hstays e he
  · exact (hleft _ (hgone _ lid _ hlid hlidParent hd hb e he heq).2).2 rfl

end Store

end SharedScene
