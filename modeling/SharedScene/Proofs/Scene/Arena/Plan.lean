import SharedScene.Proofs.Scene.Arena.Edit
import SharedScene.Proofs.Scene.Resync.Plan
import SharedScene.Scene.Arena.Resync

/-!
# The plan on an arena

A plan on tables **mirrors** a plan on a forest when its copy stores the scene of the other one and
both have told the same events (`ArenaPlan.Mirrors`). Step by step it goes on doing so: the tables
are asked for ids and their paths, the forest for what stands at a path, and as long as the copy
stores the scene the answers are the same. In the end so are the plans (`Arena.plan_mirrors`).
-/

namespace SharedScene

open Forest Resync

variable {a b : Arena} {f old target : Forest} {w : Placed} {rows : List Placed} {q : Path}

/-- Lists of the same ids answer in the same way. -/
theorem contains_congr {ids ids' : List InstanceId} (h : ∀ x, x ∈ ids ↔ x ∈ ids')
    (x : InstanceId) : ids.contains x = ids'.contains x := by
  rw [List.contains_eq_mem, List.contains_eq_mem]
  exact decide_eq_decide.mpr (h x)

namespace Arena

/-- The record of a row. -/
theorem Stores.node_of_mem (h : a.Stores f) (hf : f.WellFormed) (hw : w ∈ f.table) :
    a.nodes.get? w.id = some (w.item.toInstance w.parent (f.childIds (some w.id))) := by
  rw [h.node_eq hf, hf.placed?_eq_some_iff.mpr ⟨hw, rfl⟩, Option.map_some]

/-! ## Who survives -/

/-- An instance survives with its class below a parent that survives. -/
theorem mem_survivors_iff (ht : target.WellFormed) (hw : w ∈ target.table) :
    w.id ∈ Resync.survivors old target ↔ KeepsClass old w.item ∧
      ∀ x, w.parent = some x → x ∈ Resync.survivors old target := by
  have nodup := Forest.WellFormed.nodup_ids ht
  constructor
  · refine fun h => ⟨keepsClass_of_mem_survivors nodup hw h, fun x hx => ?_⟩
    rcases survivors_upward nodup hw h with hnone | ⟨above, habove, hparent⟩
    · rw [hnone] at hx
      cases hx
    · exact Option.some.inj (hparent.symm.trans hx) ▸ habove
  · rintro ⟨hclass, habove⟩
    refine mem_survivors_of_keepsClass nodup (fun _ _ heq => by cases heq) hw hclass ?_
    cases hparent : w.parent with
    | none => exact .inl rfl
    | some x => exact .inr ⟨x, habove x hparent, rfl⟩

/-- When all above an instance were asked before, it is known whether it survives. -/
theorem mem_survive_iff (ha : a.Stores old) (hold : old.WellFormed) (hb : b.Stores target)
    (ht : target.WellFormed) (hw : w ∈ target.table) {seen surviving : List InstanceId}
    (habove : ∀ x, w.parent = some x → x ∈ seen)
    (hsurviving : ∀ x, x ∈ surviving ↔ x ∈ seen ∧ x ∈ Resync.survivors old target)
    (id : InstanceId) : id ∈ survive a b surviving w.id ↔
      id ∈ w.id :: seen ∧ id ∈ Resync.survivors old target := by
  have hparent : w.parent.all (surviving.contains ·) = true ↔
      ∀ x, w.parent = some x → x ∈ Resync.survivors old target := by
    cases hwp : w.parent with
    | none => simp only [Option.all_none, reduceCtorEq, false_implies, implies_true]
    | some x =>
      simp only [Option.all_some, List.contains_iff_mem, hsurviving, habove x hwp, true_and,
        Option.some.injEq, forall_eq']
  have hclass : KeepsClass old w.item ↔ ∃ before, a.nodes.get? w.id = some before ∧
      before.className = w.item.className := by
    rw [ha.node_eq hold]
    constructor
    · rintro ⟨row, hrow, hclass⟩
      exact ⟨_, by rw [show old.placed? w.id = _ from hrow, Option.map_some], hclass⟩
    · rintro ⟨before, hbefore, hclass⟩
      obtain ⟨row, hrow, rfl⟩ := Option.map_eq_some_iff.mp hbefore
      exact ⟨row, hrow, hclass⟩
  have hsurvives : w.id ∈ Resync.survivors old target ↔ _ := mem_survivors_iff ht hw
  rw [hclass, ← hparent] at hsurvives
  have hadded : id ∈ survive a b surviving w.id ↔
      id ∈ surviving ∨ (id = w.id ∧ w.id ∈ Resync.survivors old target) := by
    unfold survive
    rw [hb.node_of_mem ht hw, hsurvives]
    cases a.nodes.get? w.id with
    | none => simp only [reduceCtorEq, false_and, exists_false, and_false, or_false]
    | some before =>
      simp only [Option.some.injEq, exists_eq_left']
      split
      · next h =>
        rw [List.mem_append, List.mem_singleton]
        exact or_congr_right (and_iff_left h).symm
      · next h =>
        exact (or_iff_left_of_imp fun ⟨_, hs⟩ => absurd hs h).symm
  rw [hadded, hsurviving, List.mem_cons, or_and_right, or_comm]
  refine or_congr_left (and_congr_right fun hid => ?_)
  rw [hid]

/-- With the parents first, who survives is known at the end for all that were asked. -/
theorem mem_foldl_survive_iff (ha : a.Stores old) (hold : old.WellFormed) (hb : b.Stores target)
    (ht : target.WellFormed) (hrows : ∀ w ∈ rows, w ∈ target.table)
    {seen surviving : List InstanceId} (hfirst : ParentsFirst seen rows)
    (hsurviving : ∀ x, x ∈ surviving ↔ x ∈ seen ∧ x ∈ Resync.survivors old target)
    (id : InstanceId) : id ∈ (rows.map Placed.id).foldl (survive a b) surviving ↔
      (id ∈ seen ∨ id ∈ rows.map Placed.id) ∧ id ∈ Resync.survivors old target := by
  induction rows generalizing seen surviving with
  | nil => simp only [List.map_nil, List.foldl_nil, hsurviving, List.not_mem_nil, or_false]
  | cons w rows ih =>
    have hstep := mem_survive_iff ha hold hb ht (hrows w List.mem_cons_self) hfirst.1 hsurviving
    rw [List.map_cons, List.foldl_cons,
      ih (fun r hr => hrows r (List.mem_cons_of_mem _ hr)) hfirst.2 hstep, List.mem_cons,
      List.mem_cons, or_assoc, or_left_comm]

/-- The same instances survive. -/
theorem mem_survivors (ha : a.Stores old) (hold : old.WellFormed) (hb : b.Stores target)
    (ht : target.WellFormed) (id : InstanceId) :
    id ∈ survivors a b ↔ id ∈ Resync.survivors old target := by
  rw [survivors, hb.map_snd_traverse ht, ← map_id_placements none,
    mem_foldl_survive_iff ha hold hb ht (fun _ hw => hw) (parentsFirst_table target) fun x => by
      simp only [List.not_mem_nil, false_and]]
  refine and_iff_right_of_imp fun hid => .inr ?_
  rw [map_id_placements]
  exact mem_ids_of_mem_survivors hid

end Arena

namespace ArenaPlan

variable {P : ArenaPlan} {p : Plan} {done : List Placed} {there settled : List InstanceId}
  {id : InstanceId} {parent : Option InstanceId} {path : Path} {name : String}

/-- The copy of one plan stores the scene of another one, and both have told the same. -/
structure Mirrors (P : ArenaPlan) (p : Plan) : Prop where
  scratch : P.scratch.Stores p.scene
  events : P.events = p.events

/-! ## Moves -/

/-- A move in the copy, and what is told of it. -/
theorem Mirrors.relocate (h : P.Mirrors p) (hf : p.scene.WellFormed)
    (hg : (p.scene.relocate path q name).WellFormed) (hpath : pathOf? id p.scene = some path)
    (hq : p.scene.parentPath? parent = some q) (hpq : ¬ path <+: q) (e : Event) :
    ∃ b, P.scratch.relocate? id parent name = some (q.child name, b) ∧
      Mirrors ⟨b, P.events ++ [e]⟩ (p.step (p.scene.relocate path q name) e) := by
  obtain ⟨item, children, hfind, rfl⟩ := exists_find?_of_pathOf? hf.namesDistinct hpath
  obtain ⟨rfl, hchildren⟩ := hf.parentPath?_eq_some_iff.mp hq
  obtain ⟨b, hb, hstores⟩ := h.scratch.relocate? hf hg hfind hchildren hpq
  exact ⟨b, hb, hstores, congrArg (· ++ [e]) h.events⟩

/-- The holder of a name, asked from the tables. -/
theorem Mirrors.park (h : P.Mirrors p) (hp : Placing old done p)
    (hparent : ∀ x, w.parent = some x → x ∈ done.map Placed.id)
    (hslot : w.slot ∉ done.map Placed.slot) (hq : p.scene.parentPath? w.parent = some q) :
    (P.park w.parent w.item.name w.id).Mirrors (p.park q w.item.name w.id) := by
  have hf := hp.wellFormed
  obtain ⟨hid, hchildren⟩ := hf.parentPath?_eq_some_iff.mp hq
  obtain ⟨siblings, hsiblings⟩ := Option.isSome_iff_exists.mp hchildren
  have hholder : (P.scratch.children w.parent).find? (fun id =>
        decide (id ≠ w.id) && (P.scratch.nodes.get? id).any (·.name == w.item.name)) =
      (siblings.items.find? fun item =>
        decide (item.id ≠ w.id) && item.name == w.item.name).map (·.id) := by
    rw [h.scratch.children, ← hid, hf.childIds_of_childrenAt? hsiblings, topIds, List.find?_map]
    refine congrArg (Option.map _) (List.find?_congr fun item hitem => ?_)
    show (_ && (P.scratch.nodes.get? item.id).any _) = _
    rw [h.scratch.node, hf.instance?_of_mem_items hsiblings hitem]
    rfl
  have hnames := h.scratch.siblingNames_none hf hsiblings
  rw [hid] at hnames
  unfold ArenaPlan.park Plan.park
  dsimp only
  rw [hholder, hsiblings, hnames]
  dsimp only
  cases hfound : siblings.items.find? fun item =>
      decide (item.id ≠ w.id) && item.name == w.item.name with
  | none => exact h
  | some holder =>
    obtain ⟨hne, hname⟩ := Bool.and_eq_true_iff.mp (List.find?_some
      (p := fun item : Item => decide (item.id ≠ w.id) && item.name == w.item.name) hfound)
    have hmem := List.mem_of_find?_eq_some hfound
    have hname : holder.name = w.item.name := beq_iff_eq.mp hname
    obtain ⟨hrenamed, _⟩ := hp.rename_holder hparent hslot hq hsiblings hmem
      (of_decide_eq_true hne) hname (Name.resolve_not_mem w.item.name siblings.names)
    have hpath : pathOf? holder.id p.scene = some (q.child w.item.name) := by
      rw [← hname]
      refine hp.pathOf?_holder (hf.placed?_eq_some_iff.mpr ⟨?_, rfl⟩) hq
      exact hid ▸ mem_table_of_mem_items hsiblings hmem
    have hpq : ¬ q.child w.item.name <+: q := fun hprefix => by
      have hle := hprefix.length_le
      rw [Path.child, List.length_append, List.length_singleton] at hle
      omega
    obtain ⟨b, hb, hmirrors⟩ := h.relocate hf hrenamed.wellFormed hpath hq hpq
      (.rename holder.id (q.child w.item.name) (Name.resolve w.item.name siblings.names))
    simp only [Option.map_some, (h.scratch.path _).trans hpath, hb]
    exact hmirrors

/-- A survivor that is brought to its place. -/
theorem Mirrors.place (h : P.Mirrors p) (hb : b.Stores target) (ht : target.WellFormed)
    (hw : w ∈ target.table) (hp : Placing old done p) (hold : w.id ∈ old.ids)
    (hparent : ∀ x, w.parent = some x → x ∈ done.map Placed.id)
    (hid : w.id ∉ done.map Placed.id) (hslot : w.slot ∉ done.map Placed.slot) :
    (P.place b w.id).Mirrors (p.place w) := by
  have hplaced := (hp.place hold hparent hid hslot).1.wellFormed
  obtain ⟨q, hq⟩ := exists_parentPath? fun x hx => hp.mem_ids (hparent x hx)
  obtain ⟨current, hrow⟩ := hp.exists_row hold
  have hcurrent := h.scratch.node_eq hp.wellFormed w.id
  rw [hrow, Option.map_some] at hcurrent
  unfold Plan.place at hplaced
  unfold ArenaPlan.place Plan.place
  simp only [show p.scene.placed? w.item.id = _ from hrow, hq] at hplaced ⊢
  rw [hcurrent, hb.node_of_mem ht hw]
  dsimp only [Item.toInstance]
  by_cases hsame : current.parent = w.parent ∧ current.item.name = w.item.name
  · rw [if_pos hsame, if_pos hsame]
    exact h
  · rw [if_neg hsame] at hplaced
    rw [if_neg hsame, if_neg hsame]
    obtain ⟨hpark, hparked⟩ := hp.park hparent hslot hq
    have hpark' := h.park hp hparent hslot hq
    obtain ⟨path, _, hpath, _⟩ := hpark.wellFormed.exists_pathOf? (hparked.row.trans hrow)
    have hcycle := hpark.not_prefix hparent hid hparked.parentPath hpath
    simp only [show (p.park q w.item.name w.item.id).scene.pathOf? w.item.id = some path
      from hpath] at hplaced ⊢
    obtain ⟨b', hb', hmirrors⟩ := hpark'.relocate hpark.wellFormed hplaced hpath
      hparked.parentPath hcycle (if current.parent = w.parent then .rename w.id path w.item.name
        else .reparent w.id path q w.item.name)
    rw [hpark'.scratch.path, hpath, hb']
    dsimp only
    rw [show Path.parent (q.child w.item.name) = q from List.dropLast_concat]
    exact hmirrors

/-- All moves of a plan. -/
theorem Mirrors.foldl_place (h : P.Mirrors p) (hb : b.Stores target) (ht : target.WellFormed)
    (hrows : ∀ w ∈ rows, w ∈ target.table) (hp : Placing old done p)
    (hold : ∀ w ∈ rows, w.id ∈ old.ids) (hfirst : ParentsFirst (done.map Placed.id) rows)
    (hids : ((rows ++ done).map Placed.id).Nodup)
    (hslots : ((rows ++ done).map Placed.slot).Nodup) :
    ((rows.map Placed.id).foldl (ArenaPlan.place b) P).Mirrors (rows.foldl Plan.place p) := by
  induction rows generalizing done P p with
  | nil => exact h
  | cons w rows ih =>
    have hnew : w.id ∉ done.map Placed.id := fun hmem =>
      (List.nodup_cons.mp hids).1 (List.map_append ▸ List.mem_append_right _ hmem)
    have hfree : w.slot ∉ done.map Placed.slot := fun hmem =>
      (List.nodup_cons.mp hslots).1 (List.map_append ▸ List.mem_append_right _ hmem)
    have hhere := hold w List.mem_cons_self
    have hnext := h.place hb ht (hrows w List.mem_cons_self) hp hhere hfirst.1 hnew hfree
    exact ih hnext (fun r hr => hrows r (List.mem_cons_of_mem _ hr))
      (hp.place hhere hfirst.1 hnew hfree).1 (fun r hr => hold r (List.mem_cons_of_mem _ hr))
      hfirst.2 (((List.perm_middle.map Placed.id).nodup_iff).mpr hids)
      (((List.perm_middle.map Placed.slot).nodup_iff).mpr hslots)

/-! ## Deletes -/

/-- Whether an entry is that of an instance to delete: one that does not survive, under a parent
that does. -/
def isTopmost (surviving : List InstanceId) (e : IndexedInstance) : Bool :=
  !surviving.contains e.record.id && e.record.parent.all (surviving.contains ·)

/-- What is deleted, among entries of an index. -/
def topmost (surviving : List InstanceId) (entries : List IndexedInstance) :
    List (Path × InstanceId) :=
  (entries.filter (isTopmost surviving)).map fun e => (e.path, e.record.id)

theorem topmost_cons_of_pos {surviving : List InstanceId} {e : IndexedInstance}
    (he : isTopmost surviving e = true) (entries : List IndexedInstance) :
    topmost surviving (e :: entries) = (e.path, e.record.id) :: topmost surviving entries := by
  rw [topmost, List.filter_cons_of_pos he]
  rfl

theorem topmost_cons_of_neg {surviving : List InstanceId} {e : IndexedInstance}
    (he : isTopmost surviving e = false) (entries : List IndexedInstance) :
    topmost surviving (e :: entries) = topmost surviving entries := by
  rw [topmost, List.filter_cons_of_neg (Bool.eq_false_iff.mp he)]
  rfl

theorem map_parent_index (parent : Option InstanceId) (above : Path) (f : Forest) :
    (index parent above f).map (fun e => (e.record.parent, e.record.id)) =
      (placements parent f).map fun row => (row.parent, row.id) := by
  induction f generalizing parent above with
  | nil => rfl
  | cons item children rest ihc ihr =>
    rw [index, placements, List.map_cons, List.map_append, ihc, ihr, List.map_cons,
      List.map_append]
    rfl

/-- The topmost instances that do not survive, found from the top or among all entries. -/
theorem doomed_eq_topmost {surviving : List InstanceId} (above : Path)
    (up : ∀ row ∈ placements parent f, row.id ∈ surviving →
      ∀ y, row.parent = some y → y ∈ surviving)
    (hparent : ∀ x, parent = some x → x ∈ surviving) :
    Plan.doomed surviving above f = topmost surviving (index parent above f) := by
  induction f generalizing parent above with
  | nil => rfl
  | cons item children rest ihc ihr =>
    have upc := fun row hrow => up row (List.mem_cons_of_mem _ (List.mem_append_left _ hrow))
    have upr := fun row hrow => up row (List.mem_cons_of_mem _ (List.mem_append_right _ hrow))
    have hall : parent.all (surviving.contains ·) = true := by
      cases parent with
      | none => rfl
      | some x => exact List.contains_iff_mem.mpr (hparent x rfl)
    rw [Plan.doomed, index]
    by_cases hitem : item.id ∈ surviving
    · have hbelow := ihc (above.child item.name) upc fun x hx => Option.some.inj hx ▸ hitem
      have hhead : isTopmost surviving ⟨above.child item.name,
          item.toInstance parent children.topIds⟩ = false :=
        Bool.and_eq_false_iff.mpr (.inl (congrArg not (List.contains_iff_mem.mpr hitem)))
      rw [if_pos hitem, topmost_cons_of_neg hhead, hbelow, ihr above upr hparent, topmost, topmost,
        topmost, List.filter_append, List.map_append]
    · have hnone : (index (some item.id) (above.child item.name) children).filter
          (isTopmost surviving) = [] := by
        refine List.filter_eq_nil_iff.mpr fun e he htop => ?_
        have hmem := List.mem_map_of_mem (f := fun e => (e.record.parent, e.record.id)) he
        rw [map_parent_index] at hmem
        obtain ⟨row, hrow, hsame⟩ := List.mem_map.mp hmem
        obtain ⟨x, hx, hxp⟩ := exists_parent_of_mem hrow
        have hxs : x ∈ surviving := by
          have hsurvives := (Bool.and_eq_true_iff.mp htop).2
          rw [show e.record.parent = some x from (congrArg Prod.fst hsame).symm.trans hxp,
            Option.all_some] at hsurvives
          exact List.contains_iff_mem.mp hsurvives
        -- neither the item itself nor anything below it survives
        rcases List.mem_cons.mp hx with rfl | hx
        · exact hitem hxs
        · obtain ⟨above, habove, rfl⟩ := exists_mem_of_mem_ids (some item.id) hx
          exact not_mem_kept_of_mem hitem upc above habove hxs
      have hhead : isTopmost surviving ⟨above.child item.name,
          item.toInstance parent children.topIds⟩ = true :=
        Bool.and_eq_true_iff.mpr ⟨by
          rw [Bool.not_eq_true', ← Bool.not_eq_true, List.contains_iff_mem]
          exact hitem, hall⟩
      rw [if_neg hitem, topmost_cons_of_pos hhead, ihr above upr hparent, topmost, topmost,
        List.filter_append, hnone]
      rfl

section DeleteOne

variable {kept surviving : List InstanceId} (hkept : ∀ x, x ∈ kept ↔ x ∈ surviving)
  {e : IndexedInstance}

include hkept

/-- What an entry is asked for is whether it is topmost, as long as the instance has the parent of
before. -/
theorem isTopmost_eq {r : Instance} (hparent : r.parent = e.record.parent) :
    (kept.contains e.record.id || r.parent.any fun x => !kept.contains x) =
      !isTopmost surviving e := by
  rw [hparent, contains_congr hkept, isTopmost, Bool.not_and, Bool.not_not]
  cases e.record.parent with
  | none => rfl
  | some x => rw [Option.any_some, Option.all_some, contains_congr hkept]

/-- An entry that is not topmost is passed over, whether the instance is still there or not. -/
theorem Mirrors.deleteOne_of_neg (h : P.Mirrors p)
    (hparent : ∀ r, p.scene.instance? e.record.id = some r → r.parent = e.record.parent)
    (he : isTopmost surviving e = false) : deleteOne kept P (e.path, e.record.id) = P := by
  unfold deleteOne
  dsimp only
  rw [h.scratch.node]
  cases hr : p.scene.instance? e.record.id with
  | none => rfl
  | some r =>
    dsimp only
    rw [isTopmost_eq hkept (hparent r hr), he]
    rfl

/-- At a topmost entry the instance goes with all below it. -/
theorem Mirrors.deleteOne_of_pos (h : P.Mirrors p) (hf : p.scene.WellFormed)
    (hid : p.scene.idAt? e.path = some e.record.id)
    (hparent : ∀ r, p.scene.instance? e.record.id = some r → r.parent = e.record.parent)
    (he : isTopmost surviving e = true) : (deleteOne kept P (e.path, e.record.id)).Mirrors
      (p.step (p.scene.remove e.path) (deletion (e.path, e.record.id))) := by
  obtain ⟨⟨item, children⟩, hfind, hid⟩ := Option.map_eq_some_iff.mp hid
  obtain ⟨b, hremove, hb⟩ := h.scratch.removeSubtree? hf hfind
  obtain ⟨siblings, hq, hitem⟩ := exists_childrenAt?_parent hfind
  have hr := hf.instance?_of_mem_items hq hitem
  rw [show item.id = e.record.id from hid] at hr hremove
  unfold deleteOne
  dsimp only
  rw [h.scratch.node, hr]
  dsimp only
  rw [isTopmost_eq hkept (hparent _ hr), he, hremove]
  exact ⟨hb, congrArg (· ++ [_]) h.events⟩

/-- Deleting goes through the index of the scene of before. -/
theorem Mirrors.foldl_deleteOne {entries : List IndexedInstance} {g : Forest} (h : P.Mirrors p)
    (hf : p.scene.WellFormed) (hparent : ∀ e ∈ entries, ∀ r,
      p.scene.instance? e.record.id = some r → r.parent = e.record.parent)
    (hg : p.scene.follow? ((topmost surviving entries).map deletion) = some g) :
    ((entries.map fun e => (e.path, e.record.id)).foldl (deleteOne kept) P).Mirrors
      ⟨g, p.events ++ (topmost surviving entries).map deletion⟩ := by
  induction entries generalizing P p with
  | nil =>
    obtain rfl := Option.some.inj hg
    exact ⟨h.scratch, h.events.trans (List.append_nil _).symm⟩
  | cons e entries ih =>
    have hhere := hparent e List.mem_cons_self
    have hlater := fun e' he' => hparent e' (List.mem_cons_of_mem _ he')
    rw [List.map_cons, List.foldl_cons]
    cases he : isTopmost surviving e with
    | false =>
      rw [topmost_cons_of_neg he] at hg ⊢
      rw [h.deleteOne_of_neg hkept hhere he]
      exact ih h hf hlater hg
    | true =>
      rw [topmost_cons_of_pos he, List.map_cons, follow?_cons, replay?_deletion] at hg
      obtain ⟨next, hnext, hg⟩ := Option.bind_eq_some_iff.mp hg
      split at hnext
      · next hid =>
        obtain rfl := Option.some.inj hnext
        have hdeleted := h.deleteOne_of_pos hkept hf hid hhere he
        obtain ⟨⟨item, children⟩, hfind, _⟩ := Option.map_eq_some_iff.mp hid
        have hrun := ih hdeleted (hf.remove hfind) (fun e' he' r hr => ?_) hg
        · rw [Plan.step_events, List.append_assoc] at hrun
          rw [topmost_cons_of_pos he]
          exact hrun
        · rw [Plan.step_scene, hf.instance?_remove hfind] at hr
          split at hr
          · cases hr
          · obtain ⟨r', hr', rfl⟩ := Option.map_eq_some_iff.mp hr
            rw [← hlater e' he' r' hr']
            split <;> rfl
      · cases hnext

end DeleteOne

/-- All deletes of a plan. -/
theorem Mirrors.deleteDoomed {kept surviving : List InstanceId}
    (hkept : ∀ x, x ∈ kept ↔ x ∈ surviving) (h : P.Mirrors p) (hf : p.scene.WellFormed)
    (up : p.scene.UpClosed (· ∈ surviving)) :
    (P.deleteDoomed kept).Mirrors (p.deleteDoomed surviving) := by
  have htop : Plan.doomed surviving Path.root p.scene = topmost surviving p.scene.indexed :=
    doomed_eq_topmost Path.root up nofun
  have hg : p.scene.follow? ((Plan.doomed surviving [] p.scene).map deletion) = _ :=
    Plan.follow?_deletions hf.namesDistinct
  rw [show Plan.doomed surviving [] p.scene = _ from htop] at hg
  rw [Plan.deleteDoomed_eq hf, htop, ArenaPlan.deleteDoomed, h.scratch.traverse hf]
  refine h.foldl_deleteOne hkept hf (fun e he r hr => ?_) hg
  rw [(hf.instance?_of_mem_indexed he).2] at hr
  rw [Option.some.inj hr]

/-! ## Creates and updates -/

/-- An instance of the target that is created. -/
theorem Mirrors.create (h : P.Mirrors p) (hb : b.Stores target) (ht : target.WellFormed)
    (hw : w ∈ target.table) (hp : Building old target there settled p)
    (hparent : ∀ x, w.parent = some x → x ∈ there) (hnew : w.id ∉ there) :
    (P.create b w.id).Mirrors (p.create w) := by
  have hg := (hp.create ht hw hparent hnew).wellFormed
  obtain ⟨q, hq⟩ := exists_parentPath? fun x hx => (hp.ids x).mpr (hparent x hx)
  obtain ⟨hid, hchildren⟩ := hp.wellFormed.parentPath?_eq_some_iff.mp hq
  unfold Plan.create at hg
  unfold ArenaPlan.create Plan.create
  rw [hq] at hg ⊢
  rw [hb.node_of_mem ht hw]
  dsimp only [Item.toInstance]
  rw [h.scratch.parentPath?, hq]
  have hinsert := (h.scratch.insert hp.wellFormed hg hchildren).2
  rw [hid] at hinsert
  exact ⟨hinsert, congrArg (· ++ [_]) h.events⟩

/-- All creates of a plan. -/
theorem Mirrors.foldl_create (h : P.Mirrors p) (hb : b.Stores target) (ht : target.WellFormed)
    (hp : Building old target there settled p) (hrows : ∀ w ∈ rows, w ∈ target.table)
    (hfirst : ParentsFirst there rows) (hnew : ∀ w ∈ rows, w.id ∉ there)
    (nodup : (rows.map Placed.id).Nodup) :
    ((rows.map Placed.id).foldl (ArenaPlan.create b) P).Mirrors (rows.foldl Plan.create p) := by
  induction rows generalizing P p there settled with
  | nil => exact h
  | cons w rows ih =>
    have hw := hrows w List.mem_cons_self
    have hfree := hnew w List.mem_cons_self
    exact ih (h.create hb ht hw hp hfirst.1 hfree) (hp.create ht hw hfirst.1 hfree)
      (fun r hr => hrows r (List.mem_cons_of_mem _ hr)) hfirst.2
      (Building.new_after_create hnew nodup) (List.nodup_cons.mp nodup).2

/-- A survivor that gets its properties. -/
theorem Mirrors.updateProperties (h : P.Mirrors p) (hb : b.Stores target) (ht : target.WellFormed)
    (hw : w ∈ target.table) (hp : Building old target there settled p) :
    (P.updateProperties b w.id).Mirrors (p.updateProperties w) := by
  have hf := hp.wellFormed
  have hcurrent := h.scratch.node_eq hf w.id
  unfold ArenaPlan.updateProperties Plan.updateProperties
  cases hrow : p.scene.placed? w.id with
  | none =>
    rw [hrow] at hcurrent
    simp only [hcurrent, show p.scene.placed? w.item.id = none from hrow]
    exact h
  | some current =>
    obtain ⟨path, children, hpath, hfind, _⟩ := hf.exists_pathOf? hrow
    have hg := (hp.setProperties ht hw hrow hpath).wellFormed
    have hid : current.item.id = w.id := (hf.placed?_eq_some_iff.mp hrow).2
    have hmodify := h.scratch.modify hf (fun node =>
      { node with properties := w.item.properties }) hg hfind rfl rfl fun _ _ => rfl
    rw [hid] at hmodify
    rw [hrow, Option.map_some] at hcurrent
    simp only [hcurrent, hb.node_of_mem ht hw, (h.scratch.path w.id).trans hpath,
      show p.scene.placed? w.item.id = _ from hrow,
      show p.scene.pathOf? w.item.id = _ from hpath]
    dsimp only [Item.toInstance]
    cases Plan.differences current.item.properties w.item.properties with
    | nil => exact h
    | cons change changes => exact ⟨hmodify, congrArg (· ++ _) h.events⟩

/-- All updates of a plan. -/
theorem Mirrors.foldl_update (h : P.Mirrors p) (hb : b.Stores target) (ht : target.WellFormed)
    (hp : Building old target there settled p) (hrows : ∀ w ∈ rows, w ∈ target.table) :
    ((rows.map Placed.id).foldl (ArenaPlan.updateProperties b) P).Mirrors
      (rows.foldl Plan.updateProperties p) := by
  induction rows generalizing P p settled with
  | nil => exact h
  | cons w rows ih =>
    have hw := hrows w List.mem_cons_self
    exact ih (h.updateProperties hb ht hw hp) (hp.update ht hw)
      fun r hr => hrows r (List.mem_cons_of_mem _ hr)

end ArenaPlan

/-! ## The whole plan -/

/-- Between tables that store forests the plan mirrors that between the forests. -/
theorem Arena.plan_mirrors (ha : a.Stores old) (hold : old.WellFormed) (hb : b.Stores target)
    (ht : target.WellFormed) : (Arena.plan a b).Mirrors (Resync.plan old target) := by
  have hkept := mem_survivors ha hold hb ht
  have hcontains := contains_congr hkept
  have horder : ∀ keep : InstanceId → Bool, (b.traverse.map Prod.snd).filter keep =
      (target.table.filter fun w => keep w.id).map Placed.id := fun keep => by
    rw [hb.map_snd_traverse ht, ← map_id_placements none, List.filter_map]
    rfl
  have hkeptRows : (b.traverse.map Prod.snd).filter (fun id => (Arena.survivors a b).contains id) =
      (keptRows old target).map Placed.id := by
    simp only [horder, hcontains]
    rfl
  have hfreshRows : (b.traverse.map Prod.snd).filter
      (fun id => !(Arena.survivors a b).contains id) = (freshRows old target).map Placed.id := by
    simp only [horder, hcontains]
    rfl
  have hsound : Sound (keptRows old target ++ []) := by
    rw [List.append_nil]
    exact Sound.sublist ht List.filter_sublist
  have hplacing := (placing_moved hold ht).1
  have hmoved := ArenaPlan.Mirrors.foldl_place (P := ⟨a, []⟩) (p := ⟨old, []⟩) ⟨ha, rfl⟩ hb ht
    (fun _ hw => (mem_keptRows.mp hw).1) (Placing.start hold)
    (fun _ hw => mem_old_of_mem_keptRows ht hw)
    (keptRows_eq old target ▸ parentsFirst_kept (WellFormed.nodup_ids ht)) hsound.nodup_ids
    hsound.nodup_slots
  have hcleared := ArenaPlan.Mirrors.deleteDoomed hkept hmoved hplacing.wellFormed
    (hplacing.upClosed_survivors fun _ => mem_reverse_keptRows)
  have hfilled := ArenaPlan.Mirrors.foldl_create hcleared hb ht (building_cleared hold ht)
    (fun _ hw => (mem_freshRows.mp hw).1) parentsFirst_freshRows
    (fun _ hw => (mem_freshRows.mp hw).2) (nodup_freshRows ht)
  have hupdated := ArenaPlan.Mirrors.foldl_update hfilled hb ht (building_filled hold ht)
    fun _ (hw : _ ∈ keptRows old target) => (mem_keptRows.mp hw).1
  rw [plan_eq]
  unfold Arena.plan
  dsimp only
  rw [hkeptRows, hfreshRows]
  exact hupdated

end SharedScene
