import SharedScene.Proofs.Scene.Lookup
import SharedScene.Scene.Resync

/-!
# Who survives a resync, and in which order instances are handled

A survivor has its class in both forests, and the instances above it in the target survive too
(`survivors_upward`). A plan handles rows parents first: `ParentsFirst`, a property of the table of
any forest (`parentsFirst_table`) which the rows of the survivors keep among themselves
(`parentsFirst_kept`) and those of all others keep when the survivors are there already
(`parentsFirst_fresh`).
-/

namespace SharedScene.Resync

open Forest

variable {old f : Forest} {parent : Option InstanceId} {row : Placed} {id : InstanceId}

/-! ## Survivors -/

/-- Whether an item has its class in the old forest too. -/
def KeepsClass (old : Forest) (item : Item) : Prop :=
  ∃ before, old.placed? item.id = some before ∧ before.item.className = item.className

/-- The survivors of a first node that keeps its class, and those of the nodes after it. -/
theorem mem_survivors_cons {item : Item} {children rest : Forest} :
    id ∈ survivors old (cons item children rest) ↔
      (KeepsClass old item ∧ (id = item.id ∨ id ∈ survivors old children)) ∨
        id ∈ survivors old rest := by
  rw [survivors, List.mem_append, KeepsClass]
  refine or_congr_left ?_
  cases hbefore : old.placed? item.id with
  | none => simp
  | some before => by_cases hclass : before.item.className = item.className <;> simp [hclass]

theorem mem_ids_of_mem_survivors (h : id ∈ survivors old f) : id ∈ f.ids := by
  induction f with
  | nil => cases h
  | cons item children rest ihc ihr =>
    rw [ids_cons]
    rcases mem_survivors_cons.mp h with ⟨_, rfl | h⟩ | h
    · exact List.mem_cons_self
    · exact List.mem_cons_of_mem _ (List.mem_append_left _ (ihc h))
    · exact List.mem_cons_of_mem _ (List.mem_append_right _ (ihr h))

/-- A survivor is in the old forest, with the class that the target wants. -/
theorem keepsClass_of_mem_survivors (nodup : f.ids.Nodup) (hrow : row ∈ placements parent f)
    (h : row.id ∈ survivors old f) : KeepsClass old row.item := by
  induction f generalizing parent with
  | nil => cases h
  | cons item children rest ihc ihr =>
    rw [ids_cons, List.nodup_cons, List.nodup_append] at nodup
    obtain ⟨hitem, nodupc, nodupr, disjoint⟩ := nodup
    rcases List.mem_cons.mp hrow with rfl | hrow
    · rcases mem_survivors_cons.mp h with ⟨hclass, _⟩ | h
      · exact hclass
      · exact absurd (List.mem_append_right _ (mem_ids_of_mem_survivors h)) hitem
    · rcases List.mem_append.mp hrow with hrow | hrow
      · have hmem := mem_ids_of_mem hrow
        rcases mem_survivors_cons.mp h with ⟨_, hid | h⟩ | h
        · exact absurd (hid ▸ List.mem_append_left _ hmem) hitem
        · exact ihc nodupc hrow h
        · exact absurd rfl (disjoint _ hmem _ (mem_ids_of_mem_survivors h))
      · have hmem := mem_ids_of_mem hrow
        rcases mem_survivors_cons.mp h with ⟨_, hid | h⟩ | h
        · exact absurd (hid ▸ List.mem_append_right _ hmem) hitem
        · exact absurd rfl (disjoint _ (mem_ids_of_mem_survivors h) _ hmem)
        · exact ihr nodupr hrow h

/-- Above a survivor stand survivors only. -/
theorem survivors_upward (nodup : f.ids.Nodup) (hrow : row ∈ placements parent f)
    (h : row.id ∈ survivors old f) :
    row.parent = parent ∨ ∃ above ∈ survivors old f, row.parent = some above := by
  induction f generalizing parent with
  | nil => cases h
  | cons item children rest ihc ihr =>
    rw [ids_cons, List.nodup_cons, List.nodup_append] at nodup
    obtain ⟨hitem, nodupc, nodupr, disjoint⟩ := nodup
    rcases List.mem_cons.mp hrow with rfl | hrow
    · exact .inl rfl
    · rcases List.mem_append.mp hrow with hrow | hrow
      · have hmem := mem_ids_of_mem hrow
        rcases mem_survivors_cons.mp h with ⟨hclass, hid | h⟩ | h
        · exact absurd (hid ▸ List.mem_append_left _ hmem) hitem
        · rcases ihc nodupc hrow h with heq | ⟨above, habove, heq⟩
          · exact .inr ⟨_, mem_survivors_cons.mpr (.inl ⟨hclass, .inl rfl⟩), heq⟩
          · exact .inr ⟨_, mem_survivors_cons.mpr (.inl ⟨hclass, .inr habove⟩), heq⟩
        · exact absurd rfl (disjoint _ hmem _ (mem_ids_of_mem_survivors h))
      · have hmem := mem_ids_of_mem hrow
        rcases mem_survivors_cons.mp h with ⟨_, hid | h⟩ | h
        · exact absurd (hid ▸ List.mem_append_right _ hmem) hitem
        · exact absurd rfl (disjoint _ (mem_ids_of_mem_survivors h) _ hmem)
        · rcases ihr nodupr hrow h with heq | ⟨above, habove, heq⟩
          · exact .inl heq
          · exact .inr ⟨_, mem_survivors_cons.mpr (.inr habove), heq⟩

/-- What keeps its class survives when it is at the top or below a survivor. -/
theorem mem_survivors_of_keepsClass (nodup : f.ids.Nodup)
    (outside : ∀ id ∈ f.ids, parent ≠ some id) (hrow : row ∈ placements parent f)
    (hclass : KeepsClass old row.item)
    (habove : row.parent = parent ∨ ∃ above ∈ survivors old f, row.parent = some above) :
    row.id ∈ survivors old f := by
  induction f generalizing parent with
  | nil => cases hrow
  | cons item children rest ihc ihr =>
    rw [ids_cons, List.nodup_cons, List.nodup_append] at nodup
    obtain ⟨hitem, nodupc, nodupr, disjoint⟩ := nodup
    rw [ids_cons] at outside
    refine mem_survivors_cons.mpr ?_
    rcases List.mem_cons.mp hrow with rfl | hrow
    · exact .inl ⟨hclass, .inl rfl⟩
    rcases List.mem_append.mp hrow with hrow | hrow
    · -- the parent is the first node or below it, so it survives as the first node does
      obtain ⟨x, hx, hparent⟩ := exists_parent_of_mem hrow
      have hxs : x ∈ survivors old (cons item children rest) := by
        rcases habove with heq | ⟨above, habove, heq⟩
        · refine absurd (heq.symm.trans hparent) (outside x ?_)
          exact List.mem_cons.mpr ((List.mem_cons.mp hx).imp_right (List.mem_append_left _))
        · exact Option.some.inj (heq.symm.trans hparent) ▸ habove
      have hfirst : KeepsClass old item ∧ (x = item.id ∨ x ∈ survivors old children) := by
        refine (mem_survivors_cons.mp hxs).resolve_right fun h => ?_
        have hrest := mem_ids_of_mem_survivors h
        rcases List.mem_cons.mp hx with rfl | hx
        · exact hitem (List.mem_append_right _ hrest)
        · exact disjoint _ hx _ hrest rfl
      refine .inl ⟨hfirst.1, .inr (ihc nodupc (fun id hid heq => ?_) hrow ?_)⟩
      · exact hitem (List.mem_append_left _ (Option.some.inj heq ▸ hid))
      · exact hfirst.2.imp (fun h => hparent.trans (congrArg some h)) fun h => ⟨x, h, hparent⟩
    · have outsider : ∀ id ∈ rest.ids, parent ≠ some id := fun id hid =>
        outside id (List.mem_cons_of_mem _ (List.mem_append_right _ hid))
      refine .inr (ihr nodupr outsider hrow ?_)
      rcases parent_of_mem hrow with heq | ⟨x, hx, hparent⟩
      · exact .inl heq
      refine habove.imp_right fun ⟨above, habove, heq⟩ => ⟨above, ?_, heq⟩
      obtain rfl := Option.some.inj (hparent.symm.trans heq)
      refine (mem_survivors_cons.mp habove).resolve_left fun ⟨_, h⟩ => ?_
      rcases h with rfl | h
      · exact hitem (List.mem_append_right _ hx)
      · exact disjoint _ (mem_ids_of_mem_survivors h) _ hx rfl

/-- When every instance of the target has its class in the old forest too, all survive. -/
theorem survivors_eq_ids (h : ∀ item ∈ f.preorder, KeepsClass old item) :
    survivors old f = f.ids := by
  induction f with
  | nil => rfl
  | cons item children rest ihc ihr =>
    obtain ⟨before, hbefore, hclass⟩ := h item List.mem_cons_self
    have hc := ihc fun i hi => h i (List.mem_cons_of_mem _ (List.mem_append_left _ hi))
    have hr := ihr fun i hi => h i (List.mem_cons_of_mem _ (List.mem_append_right _ hi))
    simp only [survivors, hbefore, hclass, if_pos, hc, hr, ids_cons, List.cons_append]

/-! ## Parents first -/

/-- Rows each of which has no parent, or one that was seen before or stands earlier in the list. -/
def ParentsFirst (seen : List InstanceId) : List Placed → Prop
  | [] => True
  | row :: rest => (∀ x, row.parent = some x → x ∈ seen) ∧ ParentsFirst (row.id :: seen) rest

namespace ParentsFirst

variable {seen more base : List InstanceId} {rows later : List Placed}

theorem mono (h : ParentsFirst seen rows) (hsub : seen ⊆ more) : ParentsFirst more rows := by
  induction rows generalizing seen more with
  | nil => trivial
  | cons row rest ih =>
    exact ⟨fun x hx => hsub (h.1 x hx), ih h.2 (List.cons_subset_cons _ hsub)⟩

/-- What holds of a row when it holds of its parent holds of all rows. -/
theorem forall_mem (h : ParentsFirst seen rows) {P : InstanceId → Prop} (hseen : ∀ x ∈ seen, P x)
    (step : ∀ row ∈ rows, (∀ x, row.parent = some x → P x) → P row.id) :
    ∀ row ∈ rows, P row.id := by
  induction rows generalizing seen with
  | nil => exact fun _ hrow => absurd hrow List.not_mem_nil
  | cons first rest ih =>
    have hfirst : P first.id := step first List.mem_cons_self fun x hx => hseen x (h.1 x hx)
    intro row hrow
    rcases List.mem_cons.mp hrow with rfl | hrow
    · exact hfirst
    · refine ih h.2 (fun x hx => ?_) (fun r hr => step r (List.mem_cons_of_mem _ hr)) row hrow
      rcases List.mem_cons.mp hx with rfl | hx
      · exact hfirst
      · exact hseen x hx

theorem append (h : ParentsFirst seen rows) (k : ParentsFirst seen later) :
    ParentsFirst seen (rows ++ later) := by
  induction rows generalizing seen with
  | nil => exact k
  | cons row rest ih => exact ⟨h.1, ih h.2 (k.mono (List.subset_cons_self _ _))⟩

/-- A selection of rows has parents first over a base when each parent that a selected row asks for
is selected too or in the base. -/
theorem filter {keep : Placed → Bool} (h : ParentsFirst seen rows) (asked : InstanceId → Prop)
    (hseen : ∀ x ∈ seen, asked x → x ∈ base)
    (hasked : ∀ row ∈ rows, keep row = true → ∀ x, row.parent = some x → asked x)
    (hkeep : ∀ row ∈ rows, asked row.id → keep row = true ∨ row.id ∈ base) :
    ParentsFirst base (rows.filter keep) := by
  induction rows generalizing seen base with
  | nil => trivial
  | cons row rest ih =>
    have hasked' := fun r hr => hasked r (List.mem_cons_of_mem _ hr)
    have hkeep' := fun r hr => hkeep r (List.mem_cons_of_mem _ hr)
    by_cases hrow : keep row = true
    · rw [List.filter_cons_of_pos hrow]
      refine ⟨fun x hx => ?_, ih h.2 (fun x hx hax => ?_) hasked' fun r hr har => ?_⟩
      · exact hseen x (h.1 x hx) (hasked row List.mem_cons_self hrow x hx)
      · rcases List.mem_cons.mp hx with rfl | hx
        · exact List.mem_cons_self
        · exact List.mem_cons_of_mem _ (hseen x hx hax)
      · exact (hkeep' r hr har).imp_right (List.mem_cons_of_mem _)
    · rw [List.filter_cons_of_neg hrow]
      refine ih h.2 (fun x hx hax => ?_) hasked' hkeep'
      rcases List.mem_cons.mp hx with rfl | hx
      · exact (hkeep row List.mem_cons_self hax).resolve_left hrow
      · exact hseen x hx hax

end ParentsFirst

/-- The rows below a parent have parents first. -/
theorem parentsFirst_placements {seen : List InstanceId}
    (hparent : ∀ x, parent = some x → x ∈ seen) :
    ParentsFirst seen (placements parent f) := by
  induction f generalizing parent seen with
  | nil => trivial
  | cons item children rest ihc ihr =>
    refine ⟨hparent, ParentsFirst.append (ihc fun x hx => ?_) (ihr fun x hx => ?_)⟩
    · obtain rfl := Option.some.inj hx
      exact List.mem_cons_self
    · exact List.mem_cons_of_mem _ (hparent x hx)

theorem parentsFirst_table (f : Forest) : ParentsFirst [] f.table :=
  parentsFirst_placements fun _ hx => by cases hx

/-- The survivors' rows in the order of the target have parents first. -/
theorem parentsFirst_kept (nodup : f.ids.Nodup) :
    ParentsFirst [] (f.table.filter fun w => decide (w.item.id ∈ survivors old f)) := by
  refine (parentsFirst_table f).filter (· ∈ survivors old f) (fun _ h _ => h) ?_ ?_
  · intro row hrow hkeep x hx
    rcases survivors_upward nodup hrow (of_decide_eq_true hkeep) with heq | ⟨above, habove, heq⟩
    · rw [heq] at hx
      cases hx
    · rw [heq] at hx
      obtain rfl := Option.some.inj hx
      exact habove
  · exact fun row _ hrow => .inl (decide_eq_true hrow)

/-- The other rows have parents first when the survivors are there. -/
theorem parentsFirst_fresh :
    ParentsFirst (survivors old f)
      (f.table.filter fun w => decide (w.item.id ∉ survivors old f)) := by
  refine (parentsFirst_table f).filter (fun _ => True) (fun _ h _ => ?_)
    (fun _ _ _ _ _ => trivial) fun row _ _ => ?_
  · cases h
  · by_cases hrow : row.item.id ∈ survivors old f
    · exact .inr hrow
    · exact .inl (decide_eq_true hrow)

end SharedScene.Resync
