import SharedScene.Proofs.Scene.Observer
import SharedScene.Proofs.Scene.Resync.Survival

/-!
# Survivors move to where the target wants them

The first part of a plan. Each step relocates one instance, and the invariant `Placing` says what
has been reached: the scene is well-formed, an observer of the events so far holds it, its instances
and their classes are those of before, and the rows that are **done** stand in their slots. A step
never disturbs what is done: another holder of the wanted slot is not done, since no two rows of the
target want one slot, and no instance moves below itself, since the parent is done and everything
above what is done is done.
-/

namespace SharedScene

/-- The class in a row. -/
def Forest.Placed.className (p : Forest.Placed) : String := p.item.className

namespace Resync

open Forest

variable {old : Forest} {done rows : List Placed} {p : Plan} {w : Placed} {q : Path}

@[simp] theorem Plan.step_scene (f : Forest) (e : Event) : (p.step f e).scene = f := rfl

@[simp] theorem Plan.step_events (f : Forest) (e : Event) : (p.step f e).events = p.events ++ [e] :=
  rfl

/-! ## Telling -/

/-- An observer who starts from a forest and follows the events of a plan holds its scene. -/
def Plan.Told (old : Forest) (p : Plan) : Prop :=
  ∃ g, old.follow? p.events = some g ∧ g.Agree p.scene

/-- More events that lead on from the scene. -/
theorem Plan.Told.append (h : p.Told old) {events : List Event} {f g : Forest}
    (he : p.scene.follow? events = some f) (hg : f.Agree g) :
    Plan.Told old ⟨g, p.events ++ events⟩ := by
  -- the observer's copy agrees with the scene, so it can follow whatever leads on from there
  obtain ⟨held, hheld, hagree⟩ := h
  obtain ⟨after, hafter, hagree'⟩ := follow?_agree hagree.symm he
  refine ⟨after, ?_, hagree'.symm.trans hg⟩
  rw [follow?_append, hheld]
  exact hafter

theorem Plan.Told.step (h : p.Told old) {e : Event} {f : Forest} (he : p.scene.replay? e = some f) :
    (p.step f e).Told old :=
  h.append ((follow?_single p.scene e).trans he) (.refl f)

/-! ## What is left alone -/

/-- What leads from one stage of a plan to a later one adds events of one kind. -/
def Plan.Adds (p p' : Plan) (kind : Event → Prop) : Prop :=
  ∃ events, p'.events = p.events ++ events ∧ ∀ e ∈ events, kind e

namespace Plan.Adds

variable {p' p'' : Plan} {kind : Event → Prop}

theorem refl (p : Plan) : p.Adds p kind :=
  ⟨[], (List.append_nil _).symm, fun _ he => absurd he List.not_mem_nil⟩

theorem trans (h : p.Adds p' kind) (k : p'.Adds p'' kind) : p.Adds p'' kind := by
  obtain ⟨events, hevents, hkind⟩ := h
  obtain ⟨more, hmore, hkind'⟩ := k
  refine ⟨events ++ more, ?_, fun e he => ?_⟩
  · rw [hmore, hevents, List.append_assoc]
  · exact (List.mem_append.mp he).elim (hkind e) (hkind' e)

theorem step {f : Forest} {e : Event} (he : kind e) : p.Adds (p.step f e) kind :=
  ⟨[e], rfl, fun _ hmem => List.mem_singleton.mp hmem ▸ he⟩

theorem foldl {next : Plan → Placed → Plan}
    (h : ∀ p : Plan, ∀ w ∈ rows, p.Adds (next p w) kind) :
    p.Adds (rows.foldl next p) kind := by
  induction rows generalizing p with
  | nil => exact .refl p
  | cons w rows ih =>
    exact (h p w List.mem_cons_self).trans (ih fun p r hr => h p r (List.mem_cons_of_mem _ hr))

end Plan.Adds

/-- What leads from one stage of a plan to a later one leaves an instance alone: its row is the
same, and no event is about it. -/
structure Plan.Spares (p p' : Plan) (x : InstanceId) : Prop where
  row : p'.scene.placed? x = p.scene.placed? x
  events : p.Adds p' fun e => e.id ≠ x

namespace Plan.Spares

variable {p' p'' : Plan} {x : InstanceId}

theorem refl (p : Plan) (x : InstanceId) : p.Spares p x := ⟨rfl, .refl p⟩

theorem trans (h : p.Spares p' x) (k : p'.Spares p'' x) : p.Spares p'' x :=
  ⟨k.row.trans h.row, h.events.trans k.events⟩

/-- One event about another instance. -/
theorem step {f : Forest} {e : Event} (hrow : f.placed? x = p.scene.placed? x) (he : e.id ≠ x) :
    p.Spares (p.step f e) x :=
  ⟨hrow, .step he⟩

end Plan.Spares

/-- What placing rows does to an instance. When none of the rows is its own it stays under its
parent; and when it stands in the slot of its own row, and in that of no other, it is left alone. -/
structure Aside (rows : List Placed) (p p' : Plan) (x : InstanceId) : Prop where
  parent : (∀ w ∈ rows, w.id ≠ x) →
    (p'.scene.placed? x).map (·.parent) = (p.scene.placed? x).map (·.parent)
  spared : (∀ w ∈ rows, w.id = x ↔ (p.scene.placed? x).map Placed.slot = some w.slot) →
    p.Spares p' x

namespace Aside

variable {p' p'' : Plan} {x : InstanceId}

theorem nil (p : Plan) (x : InstanceId) : Aside [] p p x := ⟨fun _ => rfl, fun _ => .refl p x⟩

theorem cons (h : Aside [w] p p' x) (k : Aside rows p' p'' x) : Aside (w :: rows) p p'' x where
  parent hne := by
    obtain ⟨hw, hrows⟩ := List.forall_mem_cons.mp hne
    rw [k.parent hrows, h.parent (List.forall_mem_singleton.mpr hw)]
  spared hslot := by
    obtain ⟨hw, hrows⟩ := List.forall_mem_cons.mp hslot
    have hspared := h.spared (List.forall_mem_singleton.mpr hw)
    refine hspared.trans (k.spared fun r hr => ?_)
    rw [hspared.row]
    exact hrows r hr

end Aside

/-- Who stands in the wanted slot is left there. -/
theorem Plan.place_of_slot (h : (p.scene.placed? w.id).map Placed.slot = some w.slot) :
    p.place w = p := by
  obtain ⟨current, hcurrent, hslot⟩ := Option.map_eq_some_iff.mp h
  unfold Plan.place
  simp only [show p.scene.placed? w.item.id = some current from hcurrent]
  split
  · next hrow _ =>
    obtain rfl := Option.some.inj hrow
    obtain ⟨hparent, hname⟩ := Prod.ext_iff.mp hslot
    exact if_pos ⟨hparent, hname⟩
  · rfl

/-! ## The invariant -/

/-- What holds while survivors move: the rows that are done stand in their slots, and nobody came,
went or changed class. -/
structure Placing (old : Forest) (done : List Placed) (p : Plan) : Prop where
  wellFormed : p.scene.WellFormed
  told : p.Told old
  className : ∀ id,
    (p.scene.placed? id).map Placed.className = (old.placed? id).map Placed.className
  placed : ∀ w ∈ done, (p.scene.placed? w.id).map Placed.slot = some w.slot
  closed : ∀ w ∈ done, ∀ x, w.parent = some x → x ∈ done.map Placed.id

namespace Placing

/-- Before the first move nothing is done. -/
theorem start (h : old.WellFormed) : Placing old [] ⟨old, []⟩ where
  wellFormed := h
  told := ⟨old, rfl, .refl old⟩
  className _ := rfl
  placed _ hw := absurd hw List.not_mem_nil
  closed _ hw := absurd hw List.not_mem_nil

/-- Above what is done everything is done. -/
theorem upClosed (h : Placing old done p) : p.scene.UpClosed (· ∈ done.map Placed.id) := by
  intro row hrow hid x hx
  obtain ⟨w, hw, heq⟩ := List.mem_map.mp hid
  have hplaced := h.placed w hw
  rw [heq, h.wellFormed.placed?_eq_some_iff.mpr ⟨hrow, rfl⟩] at hplaced
  obtain ⟨hparent, _⟩ := Prod.ext_iff.mp (Option.some.inj hplaced)
  refine h.closed w hw x ?_
  rw [← show row.parent = w.parent from hparent]
  exact hx

/-- A move keeps what is done when it is about another instance. -/
theorem relocate (h : Placing old done p) {current : Placed} {id : InstanceId}
    {parent : Option InstanceId} {path : Path} {name : String} {e : Event}
    (hrow : p.scene.placed? id = some current) (hpath : pathOf? id p.scene = some path)
    (hq : p.scene.parentPath? parent = some q) (hcycle : ¬ path <+: q)
    (hfree : ∀ row ∈ p.scene.table, row.slot = (parent, name) → row.id = id)
    (hdone : id ∉ done.map Placed.id)
    (he : p.scene.replay? e = some (p.scene.relocate path q name)) :
    Placing old done (p.step (p.scene.relocate path q name) e) ∧
      ∀ x, (p.scene.relocate path q name).placed? x =
        if x = id then some ⟨parent, current.item.renamed name⟩ else p.scene.placed? x := by
  obtain ⟨row, children, hrow', hfind, hid, _, _⟩ := h.wellFormed.exists_placed? hpath
  obtain rfl := Option.some.inj (hrow.symm.trans hrow')
  obtain ⟨hparent, hchildren⟩ := h.wellFormed.parentPath?_eq_some_iff.mp hq
  subst hparent
  have hwf : (p.scene.relocate path q name).WellFormed := by
    refine WellFormed.relocate h.wellFormed hfind hchildren hcycle fun r hr heq => ?_
    exact (hfree r hr heq).trans hid.symm
  have hrows : ∀ x, (p.scene.relocate path q name).placed? x =
      if x = id then some ⟨p.scene.idAt? q, current.item.renamed name⟩ else p.scene.placed? x := by
    rw [← hid]
    exact WellFormed.placed?_relocate h.wellFormed hfind hchildren hcycle hwf
  refine ⟨⟨hwf, h.told.step he, fun x => ?_, fun w hw => ?_, h.closed⟩, hrows⟩
  · rw [← h.className x]
    rw [Plan.step_scene, hrows x]
    split
    · next hx => rw [hx, hrow]; rfl
    · rfl
  · have hne : w.id ≠ id := fun heq => hdone (heq ▸ List.mem_map_of_mem hw)
    rw [Plan.step_scene, hrows, if_neg hne]
    exact h.placed w hw

/-- One more row is done. -/
theorem insert (h : Placing old done p)
    (hplaced : (p.scene.placed? w.id).map Placed.slot = some w.slot)
    (hparent : ∀ x, w.parent = some x → x ∈ done.map Placed.id) : Placing old (w :: done) p where
  wellFormed := h.wellFormed
  told := h.told
  className := h.className
  placed := fun r hr => by
    rcases List.mem_cons.mp hr with rfl | hr
    · exact hplaced
    · exact h.placed r hr
  closed := fun r hr x hx => by
    refine List.mem_cons_of_mem _ ?_
    rcases List.mem_cons.mp hr with rfl | hr
    · exact hparent x hx
    · exact h.closed r hr x hx

/-! ## Out of the way -/

/-- What parking is for: the wanted slot is free, and neither the row of the instance itself nor the
path of its parent has changed. Nobody gets another parent, and who does not stand in that slot is
left alone. -/
structure Parked (before : Plan) (w : Placed) (q : Path) (p : Plan) : Prop where
  row : p.scene.placed? w.id = before.scene.placed? w.id
  parentPath : p.scene.parentPath? w.parent = some q
  free : ∀ row ∈ p.scene.table, row.slot = w.slot → row.id = w.id
  parent : ∀ x, (p.scene.placed? x).map (·.parent) = (before.scene.placed? x).map (·.parent)
  spared : ∀ x, (before.scene.placed? x).map Placed.slot ≠ some w.slot → before.Spares p x

/-- Who stands in a slot that no row of what is done wants is not done. -/
theorem not_mem_done (h : Placing old done p) {row : Placed} {id : InstanceId}
    (hrow : p.scene.placed? id = some row) (hslot : row.slot ∉ done.map Placed.slot) :
    id ∉ done.map Placed.id := by
  intro hdone
  obtain ⟨r, hr, rfl⟩ := List.mem_map.mp hdone
  have hplaced := h.placed r hr
  rw [hrow] at hplaced
  exact hslot (List.mem_map.mpr ⟨r, hr, (Option.some.inj hplaced).symm⟩)

/-- A parent that is done keeps its path, whatever else has moved. -/
theorem parentPath?_congr {p' : Plan} (h : Placing old done p) (h' : Placing old done p')
    (hparent : ∀ x, w.parent = some x → x ∈ done.map Placed.id)
    (hq : p.scene.parentPath? w.parent = some q) : p'.scene.parentPath? w.parent = some q := by
  cases hwp : w.parent with
  | none => rw [hwp] at hq; exact hq
  | some x =>
    rw [hwp] at hq
    refine h.wellFormed.pathOf?_congr h'.wellFormed h.upClosed (fun y hy => ?_) hq (hparent x hwp)
    obtain ⟨r, hr, rfl⟩ := List.mem_map.mp hy
    rw [h.placed r hr, h'.placed r hr]

/-- A child under a name stands at the path that goes on with the name. -/
theorem pathOf?_holder (h : Placing old done p) {holder : Item} {parent : Option InstanceId}
    (hplaced : p.scene.placed? holder.id = some ⟨parent, holder⟩)
    (hq : p.scene.parentPath? parent = some q) :
    pathOf? holder.id p.scene = some (q.child holder.name) :=
  h.wellFormed.pathOf?_of_placed? hplaced hq

/-- A holder of the wanted slot gets a name that no sibling has. -/
theorem rename_holder (h : Placing old done p)
    (hparent : ∀ x, w.parent = some x → x ∈ done.map Placed.id)
    (hslot : w.slot ∉ done.map Placed.slot) (hq : p.scene.parentPath? w.parent = some q)
    {siblings : Forest} (hsiblings : p.scene.childrenAt? q = some siblings) {holder : Item}
    (hmem : holder ∈ siblings.items) (hne : holder.id ≠ w.id) (hname : holder.name = w.item.name)
    {free : String} (hnew : free ∉ siblings.names) :
    let path := q.child w.item.name
    let renamed := p.step (p.scene.relocate path q free) (.rename holder.id path free)
    Placing old done renamed ∧ Parked p w q renamed := by
  intro path renamed
  obtain ⟨hid, hchildren⟩ := h.wellFormed.parentPath?_eq_some_iff.mp hq
  have hholding : ⟨w.parent, holder⟩ ∈ p.scene.table := hid ▸ mem_table_of_mem_items hsiblings hmem
  have hslot' : Placed.slot ⟨w.parent, holder⟩ = w.slot := by rw [Placed.slot, Placed.slot, hname]
  have hplaced : p.scene.placed? holder.id = some ⟨w.parent, holder⟩ :=
    h.wellFormed.placed?_eq_some_iff.mpr ⟨hholding, rfl⟩
  have hpath : pathOf? holder.id p.scene = some path := by
    rw [h.pathOf?_holder hplaced hq, hname]
  have habove : path.parent = q := List.dropLast_concat
  have hcycle : ¬ path <+: q := by
    intro hprefix
    have hle := hprefix.length_le
    rw [show path.length = q.length + 1 from List.length_append] at hle
    omega
  have hfree : ∀ row ∈ p.scene.table, row.slot ≠ (w.parent, free) := by
    rw [← hid]
    exact h.wellFormed.slot_free_of_not_mem_names hsiblings hnew
  have hfits : p.scene.isFree path.parent free holder.id = true := by
    rw [habove, h.wellFormed.isFree_iff, hid]
    exact ⟨hchildren, fun row hrow heq => absurd heq (hfree row hrow)⟩
  have hevent : p.scene.replay? (.rename holder.id path free) =
      some (p.scene.relocate path q free) := by
    rw [replay?_rename (h.wellFormed.pathOf?_eq_some_iff.mp hpath) hfits, habove]
  obtain ⟨hrenamed, hrows⟩ := h.relocate hplaced hpath hq hcycle
    (fun row hrow heq => absurd heq (hfree row hrow)) (h.not_mem_done hplaced (hslot' ▸ hslot))
    hevent
  refine ⟨hrenamed, (hrows w.id).trans (if_neg (Ne.symm hne)),
    h.parentPath?_congr hrenamed hparent hq, fun row hrow heq => ?_, fun x => ?_, fun x hx => ?_⟩
  · have hrow' := (hrows row.id).symm.trans
      (hrenamed.wellFormed.placed?_eq_some_iff.mpr ⟨hrow, rfl⟩)
    by_cases hr : row.id = holder.id
    · -- the holder itself now has the new name, which is not the wanted one
      rw [if_pos hr] at hrow'
      obtain rfl := Option.some.inj hrow'
      obtain ⟨_, hrname⟩ := Prod.ext_iff.mp heq
      exact absurd (List.mem_map.mpr ⟨holder, hmem, hname.trans (Eq.symm hrname)⟩) hnew
    · rw [if_neg hr] at hrow'
      obtain ⟨hrow', _⟩ := h.wellFormed.placed?_eq_some_iff.mp hrow'
      exact absurd (congrArg Placed.id (h.wellFormed.eq_of_slot_eq hrow' hholding
        (heq.trans hslot'.symm))) hr
  · rw [Plan.step_scene, hrows x]
    split
    · next hx => rw [hx, hplaced, Option.map_some, Option.map_some]
    · rfl
  · have hother : x ≠ holder.id := by
      rintro rfl
      exact hx (by rw [hplaced, Option.map_some, hslot'])
    exact .step ((hrows x).trans (if_neg hother)) hother.symm

/-- Parking keeps what is done. -/
theorem park (h : Placing old done p)
    (hparent : ∀ x, w.parent = some x → x ∈ done.map Placed.id)
    (hslot : w.slot ∉ done.map Placed.slot) (hq : p.scene.parentPath? w.parent = some q) :
    Placing old done (p.park q w.item.name w.id) ∧
      Parked p w q (p.park q w.item.name w.id) := by
  obtain ⟨hid, hchildren⟩ := h.wellFormed.parentPath?_eq_some_iff.mp hq
  obtain ⟨siblings, hsiblings⟩ := Option.isSome_iff_exists.mp hchildren
  unfold Plan.park
  rw [hsiblings]
  dsimp only
  split
  · next hnone =>
    refine ⟨h, rfl, hq, fun row hrow heq => ?_, fun _ => rfl, fun x _ => .refl p x⟩
    obtain ⟨hrparent, hrname⟩ := Prod.ext_iff.mp heq
    have hmem : row.item ∈ siblings.items := by
      refine (h.wellFormed.mem_items_iff hsiblings).mpr ?_
      rw [hid, ← show row.parent = w.parent from hrparent]
      exact hrow
    have hother := List.find?_eq_none.mp hnone row.item hmem
    rw [show row.item.name = w.item.name from hrname, beq_self_eq_true, Bool.and_true,
      decide_eq_true_iff] at hother
    exact not_not.mp hother
  · next holder hholder =>
    obtain ⟨hne, hname⟩ := Bool.and_eq_true_iff.mp (List.find?_some
      (p := fun item : Item => decide (item.id ≠ w.id) && item.name == w.item.name) hholder)
    exact h.rename_holder hparent hslot hq hsiblings (List.mem_of_find?_eq_some hholder)
      (of_decide_eq_true hne) (beq_iff_eq.mp hname) (Name.resolve_not_mem _ _)

/-! ## Into place -/

theorem mem_ids (h : Placing old done p) {x : InstanceId} (hx : x ∈ done.map Placed.id) :
    x ∈ p.scene.ids := by
  obtain ⟨r, hr, rfl⟩ := List.mem_map.mp hx
  obtain ⟨row, hrow, _⟩ := Option.map_eq_some_iff.mp (h.placed r hr)
  exact isSome_placed?_iff.mp (by rw [hrow]; rfl)

/-- Whoever was there is there. -/
theorem exists_row (h : Placing old done p) {x : InstanceId} (hx : x ∈ old.ids) :
    ∃ row, p.scene.placed? x = some row := by
  rw [← Option.isSome_iff_exists, ← Option.isSome_map (f := Placed.className), h.className x,
    Option.isSome_map]
  exact isSome_placed?_iff.mpr hx

/-- What is not done is not above a parent that is done. -/
theorem not_prefix (h : Placing old done p) {path : Path}
    (hparent : ∀ x, w.parent = some x → x ∈ done.map Placed.id) (hid : w.id ∉ done.map Placed.id)
    (hq : p.scene.parentPath? w.parent = some q) (hpath : pathOf? w.id p.scene = some path) :
    ¬ path <+: q := by
  intro hprefix
  have hidAt := h.wellFormed.pathOf?_eq_some_iff.mp hpath
  cases hwp : w.parent with
  | none =>
    rw [hwp] at hq
    obtain rfl := Option.some.inj hq
    obtain rfl := List.prefix_nil.mp hprefix
    rw [idAt?, find?_root] at hidAt
    cases hidAt
  | some x =>
    rw [hwp] at hq
    exact hid (h.wellFormed.mem_of_prefix h.upClosed hq (hparent x hwp) hidAt hprefix)

/-- The event of a move fits: a rename under the same parent, a reparent under another one. -/
theorem replay?_move (h : Placing old done p) {current : Placed} {path : Path} {name : String}
    (hrow : p.scene.placed? w.id = some current) (hpath : pathOf? w.id p.scene = some path)
    (hq : p.scene.parentPath? w.parent = some q) (hcycle : ¬ path <+: q)
    (hfree : p.scene.isFree q name w.id = true) :
    p.scene.replay? (if current.parent = w.parent then .rename w.id path name
      else .reparent w.id path q name) = some (p.scene.relocate path q name) := by
  have hidAt := h.wellFormed.pathOf?_eq_some_iff.mp hpath
  split
  · next hsame =>
    obtain ⟨row, _, hrow', _, _, habove, _⟩ := h.wellFormed.exists_placed? hpath
    obtain rfl := Option.some.inj (hrow.symm.trans hrow')
    rw [hsame, hq] at habove
    obtain rfl := Option.some.inj habove
    exact replay?_rename hidAt hfree
  · exact replay?_reparent hidAt hcycle hfree

/-- Placing a survivor adds its row to what is done, and sets nobody else aside but the holder of
the slot. -/
theorem place (h : Placing old done p) (hold : w.id ∈ old.ids)
    (hparent : ∀ x, w.parent = some x → x ∈ done.map Placed.id)
    (hid : w.id ∉ done.map Placed.id) (hslot : w.slot ∉ done.map Placed.slot) :
    Placing old (w :: done) (p.place w) ∧ ∀ x, Aside [w] p (p.place w) x := by
  obtain ⟨q, hq⟩ := exists_parentPath? fun x hx => h.mem_ids (hparent x hx)
  obtain ⟨current, hcurrent⟩ := h.exists_row hold
  by_cases hsame : current.slot = w.slot
  · have hplaced : (p.scene.placed? w.id).map Placed.slot = some w.slot := by
      rw [hcurrent, Option.map_some, hsame]
    rw [Plan.place_of_slot hplaced]
    exact ⟨h.insert hplaced hparent, fun x => ⟨fun _ => rfl, fun _ => .refl p x⟩⟩
  · obtain ⟨hpark, hparked⟩ := h.park hparent hslot hq
    have hpp := hparked.parentPath
    have hrow := hparked.row.trans hcurrent
    obtain ⟨path, _, hpath, _⟩ := hpark.wellFormed.exists_pathOf? hrow
    have hcycle := hpark.not_prefix hparent hid hpp hpath
    have hfits : (p.park q w.item.name w.id).scene.isFree q w.item.name w.id = true := by
      obtain ⟨hidq, hchildren⟩ := hpark.wellFormed.parentPath?_eq_some_iff.mp hpp
      rw [hpark.wellFormed.isFree_iff, hidq]
      exact ⟨hchildren, hparked.free⟩
    obtain ⟨hmoved, hrows⟩ := hpark.relocate hrow hpath hpp hcycle hparked.free hid
      (hpark.replay?_move hrow hpath hpp hcycle hfits)
    have hne : ¬ (current.parent = w.parent ∧ current.item.name = w.item.name) :=
      fun heq => hsame (Prod.ext heq.1 heq.2)
    unfold Plan.place
    simp only [show p.scene.placed? w.item.id = _ from hcurrent, hq, if_neg hne,
      show (p.park q w.item.name w.item.id).scene.pathOf? w.item.id = some path from hpath]
    refine ⟨hmoved.insert ?_ hparent, fun x => ⟨fun hx => ?_, fun hx => ?_⟩⟩
    · rw [Plan.step_scene, hrows, if_pos rfl]
      rfl
    · have hx := List.forall_mem_singleton.mp hx
      have hkept := (hrows x).trans (if_neg hx.symm)
      exact (congrArg (Option.map _) hkept).trans (hparked.parent x)
    · have hx := List.forall_mem_singleton.mp hx
      have hother : w.id ≠ x := by
        rintro rfl
        refine hsame (Option.some.inj (Eq.trans ?_ (hx.mp rfl)))
        rw [hcurrent, Option.map_some]
      refine (hparked.spared x fun heq => hother (hx.mpr heq)).trans (.step ?_ ?_)
      · exact (hrows x).trans (if_neg hother.symm)
      · split <;> exact hother

/-- Placing rows one after the other, parents first. -/
theorem foldl (h : Placing old done p) (hold : ∀ w ∈ rows, w.id ∈ old.ids)
    (hfirst : ParentsFirst (done.map Placed.id) rows)
    (hids : ((rows ++ done).map Placed.id).Nodup)
    (hslots : ((rows ++ done).map Placed.slot).Nodup) :
    Placing old (rows.reverse ++ done) (rows.foldl Plan.place p) ∧
      ∀ x, Aside rows p (rows.foldl Plan.place p) x := by
  induction rows generalizing done p with
  | nil => exact ⟨h, .nil p⟩
  | cons w rows ih =>
    have hnew : w.id ∉ done.map Placed.id := fun hmem =>
      (List.nodup_cons.mp hids).1 (List.map_append ▸ List.mem_append_right _ hmem)
    have hfree : w.slot ∉ done.map Placed.slot := fun hmem =>
      (List.nodup_cons.mp hslots).1 (List.map_append ▸ List.mem_append_right _ hmem)
    obtain ⟨hplaced, haside⟩ := h.place (hold w List.mem_cons_self) hfirst.1 hnew hfree
    obtain ⟨hrest, hasides⟩ := ih hplaced (fun r hr => hold r (List.mem_cons_of_mem _ hr)) hfirst.2
      (((List.perm_middle.map Placed.id).nodup_iff).mpr hids)
      (((List.perm_middle.map Placed.slot).nodup_iff).mpr hslots)
    rw [List.reverse_cons, List.append_assoc]
    exact ⟨hrest, fun x => (haside x).cons (hasides x)⟩

end Placing

end Resync

end SharedScene
