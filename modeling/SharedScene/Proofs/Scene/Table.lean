import Mathlib.Data.List.Nodup
import Mathlib.Data.List.Perm.Basic
import SharedScene.Scene.Instance

/-!
# The table of a forest

A forest read as a **table**: one row for each item, with the id of its parent. The rows say all
about a forest except the order of siblings, so two forests whose tables are permutations of each
other differ in that order alone.

Each operation on a path is an edit of one row, whatever else the forest holds: `placements_graft`
adds the rows of what is grafted, `placements_remove` takes out the row at the path and those below
it, `placements_modify` changes the row at the path, and `placements_relocate` gives it another
parent and another name. None of them asks for a well-formed forest; the path alone decides.
-/

namespace SharedScene.Forest

/-- The table of a forest. -/
abbrev table (f : Forest) : List Placed := placements none f

/-- Where a row says that its item is: under which parent, by which name. -/
def Placed.slot (p : Placed) : Option InstanceId × String := (p.parent, p.item.name)

/-- The id in a row. -/
def Placed.id (p : Placed) : InstanceId := p.item.id

/-! ## Rows -/

/-- The items of a table, in order, are those of the forest. -/
theorem map_item_placements (parent : Option InstanceId) (f : Forest) :
    (placements parent f).map (·.item) = f.preorder := by
  induction f generalizing parent with
  | nil => rfl
  | cons item children rest ihc ihr =>
    simp only [placements, preorder, List.map_cons, List.map_append, ihc, ihr]

theorem map_id_placements (parent : Option InstanceId) (f : Forest) :
    (placements parent f).map Placed.id = f.ids := by
  rw [ids, ← map_item_placements parent f, List.map_map]
  rfl

theorem mem_ids_of_mem {parent : Option InstanceId} {f : Forest} {p : Placed}
    (h : p ∈ placements parent f) : p.id ∈ f.ids := by
  rw [← map_id_placements parent f]
  exact List.mem_map_of_mem h

/-- Every id of a forest has a row. -/
theorem exists_mem_of_mem_ids (parent : Option InstanceId) {f : Forest} {id : InstanceId}
    (h : id ∈ f.ids) : ∃ p ∈ placements parent f, p.id = id := by
  rw [← map_id_placements parent f] at h
  exact List.mem_map.mp h

/-- The ids of a first node, of those below it and of those after it. -/
theorem ids_cons (item : Item) (children rest : Forest) :
    (cons item children rest).ids = item.id :: (children.ids ++ rest.ids) := by
  simp only [ids, preorder, List.map_cons, List.map_append]

/-- The parent in a row is the one above all, or an item of the forest. -/
theorem parent_of_mem {parent : Option InstanceId} {f : Forest} {p : Placed}
    (h : p ∈ placements parent f) : p.parent = parent ∨ ∃ id ∈ f.ids, p.parent = some id := by
  induction f generalizing parent with
  | nil => cases h
  | cons item children rest ihc ihr =>
    rw [ids_cons]
    rcases List.mem_cons.mp h with rfl | h
    · exact .inl rfl
    · rcases List.mem_append.mp h with h | h
      · rcases ihc h with hp | ⟨id, hid, hp⟩
        · exact .inr ⟨item.id, List.mem_cons_self, hp⟩
        · exact .inr ⟨id, List.mem_cons_of_mem _ (List.mem_append_left _ hid), hp⟩
      · rcases ihr h with hp | ⟨id, hid, hp⟩
        · exact .inl hp
        · exact .inr ⟨id, List.mem_cons_of_mem _ (List.mem_append_right _ hid), hp⟩

/-- The parent in a row below an item is that item, or one below it. -/
theorem exists_parent_of_mem {x : InstanceId} {f : Forest} {p : Placed}
    (h : p ∈ placements (some x) f) : ∃ id ∈ x :: f.ids, p.parent = some id := by
  rcases parent_of_mem h with heq | ⟨id, hid, heq⟩
  · exact ⟨x, List.mem_cons_self, heq⟩
  · exact ⟨id, List.mem_cons_of_mem _ hid, heq⟩

/-- No row has a parent that is neither above all nor in the forest. -/
theorem parent_ne_of_mem {parent : Option InstanceId} {f : Forest} {p : Placed} {x : InstanceId}
    (h : p ∈ placements parent f) (hparent : parent ≠ some x) (hx : x ∉ f.ids) :
    p.parent ≠ some x := by
  intro hp
  rcases parent_of_mem h with heq | ⟨id, hid, heq⟩
  · exact hparent (heq.symm.trans hp)
  · exact hx (Option.some.inj (heq.symm.trans hp) ▸ hid)

/-- An item of the topmost level has a row under the parent of all. -/
theorem mem_placements_of_mem_items {parent : Option InstanceId} {f : Forest} {item : Item}
    (h : item ∈ f.items) : ⟨parent, item⟩ ∈ placements parent f := by
  induction f with
  | nil => cases h
  | cons first children rest _ ihr =>
    rcases List.mem_cons.mp h with rfl | h
    · exact List.mem_cons_self
    · exact List.mem_cons_of_mem _ (List.mem_append_right _ (ihr h))

/-- A row under the parent of all is about an item of the topmost level, when that parent is none
of the items. -/
theorem mem_items_of_mem_placements {parent : Option InstanceId} {f : Forest} {p : Placed}
    (outside : ∀ id ∈ f.ids, parent ≠ some id) (h : p ∈ placements parent f)
    (hp : p.parent = parent) : p.item ∈ f.items := by
  induction f with
  | nil => cases h
  | cons first children rest _ ihr =>
    rw [ids_cons] at outside
    rcases List.mem_cons.mp h with rfl | h
    · exact List.mem_cons_self
    · rcases List.mem_append.mp h with h | h
      · obtain ⟨id, hid, heq⟩ := exists_parent_of_mem h
        exact absurd (hp.symm.trans heq) (outside id (List.mem_append_left _ hid))
      · refine List.mem_cons_of_mem _ (ihr (fun id hid => ?_) h)
        exact outside id (List.mem_cons_of_mem _ (List.mem_append_right _ hid))

theorem placements_append (parent : Option InstanceId) (f g : Forest) :
    placements parent (f.append g) = placements parent f ++ placements parent g := by
  induction f with
  | nil => rfl
  | cons item children rest _ ihr =>
    simp only [append, placements, ihr, List.cons_append, List.append_assoc]

/-! ## The id at a path -/

/-- The id at a path; the root has the one that is given for it. -/
def idOr (parent : Option InstanceId) (f : Forest) : Path → Option InstanceId
  | [] => parent
  | n :: q => f.idAt? (n :: q)

theorem find?_root (f : Forest) : f.find? [] = none := by
  cases f <;> rfl

theorem idOr_none (f : Forest) (q : Path) : idOr none f q = f.idAt? q := by
  cases q with
  | nil => simp [idOr, idAt?, find?_root]
  | cons n q => rfl

/-- A longer path that starts with the name of the first node goes on among its children. -/
theorem find?_cons_of_eq {item : Item} {children rest : Forest} {n m : String} {q : Path}
    (h : item.name = n) :
    (cons item children rest).find? (n :: m :: q) = children.find? (m :: q) := by
  simp only [find?, if_pos h]

/-- A path that starts with another name goes on among the nodes after the first. -/
theorem find?_cons_of_ne {item : Item} {children rest : Forest} {n : String} {q : Path}
    (h : item.name ≠ n) : (cons item children rest).find? (n :: q) = rest.find? (n :: q) := by
  simp only [find?, if_neg h]

theorem find?_cons_single {item : Item} {children rest : Forest} {n : String}
    (h : item.name = n) : (cons item children rest).find? [n] = some (item, children) := by
  simp only [find?, if_pos h]

theorem idOr_cons_of_eq {item : Item} {children rest : Forest} {parent : Option InstanceId}
    {n : String} {q : Path} (h : item.name = n) :
    idOr parent (cons item children rest) (n :: q) = idOr (some item.id) children q := by
  cases q with
  | nil => simp only [idOr, idAt?, find?_cons_single h, Option.map_some]
  | cons m q => simp only [idOr, idAt?, find?_cons_of_eq h]

theorem idOr_cons_of_ne {item : Item} {children rest : Forest} {parent : Option InstanceId}
    {n : String} {q : Path} (h : item.name ≠ n) :
    idOr parent (cons item children rest) (n :: q) = idOr parent rest (n :: q) := by
  simp only [idOr, idAt?, find?_cons_of_ne h]

/-- Whether there are children at a path: at the root always, elsewhere when a node is there. -/
theorem childrenAt?_cons (f : Forest) (n : String) (q : Path) :
    f.childrenAt? (n :: q) = (f.find? (n :: q)).map (·.2) := rfl

theorem childrenAt?_cons_of_eq {item : Item} {children rest : Forest} {n : String} {q : Path}
    (h : item.name = n) :
    (cons item children rest).childrenAt? (n :: q) = children.childrenAt? q := by
  cases q with
  | nil => simp only [childrenAt?, find?_cons_single h, Option.map_some]
  | cons m q => simp only [childrenAt?, find?_cons_of_eq h]

theorem childrenAt?_cons_of_ne {item : Item} {children rest : Forest} {n : String} {q : Path}
    (h : item.name ≠ n) :
    (cons item children rest).childrenAt? (n :: q) = rest.childrenAt? (n :: q) := by
  simp only [childrenAt?, find?_cons_of_ne h]

/-! ## Operations follow the names

At the first node an operation goes among its children, past it, or acts, as the path begins with
its name, with another one, or ends there. -/

section Equations

variable {item : Item} {children rest : Forest} {n m : String} {q : Path}

theorem modify_cons_single (change : Item → Item) (h : item.name = n) :
    modify change (cons item children rest) [n] = cons (change item) children rest := by
  simp only [modify, if_pos h]

theorem modify_cons_of_eq (change : Item → Item) (h : item.name = n) :
    modify change (cons item children rest) (n :: m :: q) =
      cons item (modify change children (m :: q)) rest := by
  simp only [modify, if_pos h]

theorem modify_cons_of_ne (change : Item → Item) (h : item.name ≠ n) :
    modify change (cons item children rest) (n :: q) =
      cons item children (modify change rest (n :: q)) := by
  simp only [modify, if_neg h]

theorem remove_cons_single (h : item.name = n) : (cons item children rest).remove [n] = rest := by
  simp only [remove, if_pos h]

theorem remove_cons_of_eq (h : item.name = n) :
    (cons item children rest).remove (n :: m :: q) = cons item (children.remove (m :: q)) rest := by
  simp only [remove, if_pos h]

theorem remove_cons_of_ne (h : item.name ≠ n) :
    (cons item children rest).remove (n :: q) = cons item children (rest.remove (n :: q)) := by
  simp only [remove, if_neg h]

theorem graft_cons_of_eq (new : Forest) (h : item.name = n) :
    graft new (cons item children rest) (n :: q) = cons item (graft new children q) rest := by
  simp only [graft, if_pos h]

theorem graft_cons_of_ne (new : Forest) (h : item.name ≠ n) :
    graft new (cons item children rest) (n :: q) =
      cons item children (graft new rest (n :: q)) := by
  simp only [graft, if_neg h]

end Equations

theorem modify_id (f : Forest) (p : Path) : modify id f p = f := by
  induction f generalizing p with
  | nil => rfl
  | cons item children rest ihc ihr =>
    cases p with
    | nil => rfl
    | cons n p =>
      by_cases hn : item.name = n
      · cases p with
        | nil => rw [modify_cons_single id hn]; rfl
        | cons m p => rw [modify_cons_of_eq id hn, ihc]
      · rw [modify_cons_of_ne id hn, ihr]

/-! ## What an operation does to the table -/

/-- Grafting adds the rows of the new nodes, under the id at the path. -/
theorem placements_graft_idOr (new : Forest) {parent : Option InstanceId} {f : Forest} {q : Path}
    (h : (f.childrenAt? q).isSome) :
    (placements parent (graft new f q)).Perm
      (placements (idOr parent f q) new ++ placements parent f) := by
  induction f generalizing parent q with
  | nil => cases q with
    | nil => simp only [graft, append, idOr, placements, List.append_nil, List.Perm.refl]
    | cons n q => cases h
  | cons item children rest ihc ihr =>
    cases q with
    | nil =>
      rw [graft, placements_append, idOr]
      exact List.perm_append_comm
    | cons n q =>
      by_cases hn : item.name = n
      · rw [childrenAt?_cons_of_eq hn] at h
        rw [graft_cons_of_eq new hn, idOr_cons_of_eq hn, placements, placements]
        refine (((ihc h).append_right _).cons _).trans ?_
        rw [List.append_assoc]
        exact List.perm_middle.symm
      · rw [childrenAt?_cons_of_ne hn] at h
        rw [graft_cons_of_ne new hn, idOr_cons_of_ne hn, placements, placements]
        refine (((ihr h).append_left _).cons _).trans ?_
        refine List.Perm.trans (List.Perm.cons _ ?_) List.perm_middle.symm
        rw [← List.append_assoc, ← List.append_assoc]
        exact List.perm_append_comm.append_right _

/-- A table holds the rows of a node between those before it and those after it. Without the node
these are left, and an item that changes and keeps its id changes its row where it is. -/
theorem exists_placements_split (parent : Option InstanceId) {f : Forest} {p : Path} {item : Item}
    {children : Forest} (h : f.find? p = some (item, children)) :
    ∃ before after, placements parent (f.remove p) = before ++ after ∧
      ∀ change : Item → Item, (change item).id = item.id → placements parent (modify change f p) =
        before ++ (⟨idOr parent f p.dropLast, change item⟩ ::
          (placements (some item.id) children ++ after)) := by
  induction f generalizing parent p with
  | nil => cases h
  | cons first below rest ihc ihr =>
    cases p with
    | nil => cases h
    | cons n p =>
      by_cases hn : first.name = n
      · cases p with
        | nil =>
          rw [find?_cons_single hn] at h
          cases h
          refine ⟨[], placements parent rest, ?_, fun change hid => ?_⟩
          · rw [remove_cons_single hn, List.nil_append]
          · rw [modify_cons_single change hn, placements, hid]
            rfl
        | cons m p =>
          rw [find?_cons_of_eq hn] at h
          obtain ⟨before, after, hremove, hmodify⟩ := ihc (some first.id) h
          refine ⟨⟨parent, first⟩ :: before, after ++ placements parent rest, ?_,
            fun change hid => ?_⟩
          · rw [remove_cons_of_eq hn, placements, hremove, List.append_assoc]
            rfl
          · rw [modify_cons_of_eq change hn, placements, hmodify change hid,
              List.dropLast_cons_cons, idOr_cons_of_eq hn]
            simp only [List.cons_append, List.append_assoc]
      · rw [find?_cons_of_ne hn] at h
        obtain ⟨before, after, hremove, hmodify⟩ := ihr parent h
        have hidOr : idOr parent (cons first below rest) (n :: p).dropLast =
            idOr parent rest (n :: p).dropLast := by
          cases p with
          | nil => rfl
          | cons m p => rw [List.dropLast_cons_cons, idOr_cons_of_ne hn]
        refine ⟨⟨parent, first⟩ :: (placements (some first.id) below ++ before), after, ?_,
          fun change hid => ?_⟩
        · rw [remove_cons_of_ne hn, placements, hremove, List.cons_append, List.append_assoc]
        · rw [modify_cons_of_ne change hn, placements, hmodify change hid, hidOr, List.cons_append,
            List.append_assoc]

/-- Changing an item that keeps its id changes its row alone: the rows below it and those of what
is left without it stay. -/
theorem placements_modify_idOr {change : Item → Item} {parent : Option InstanceId} {f : Forest}
    {p : Path} {item : Item} {children : Forest} (h : f.find? p = some (item, children))
    (hid : (change item).id = item.id) :
    (placements parent (modify change f p)).Perm (⟨idOr parent f p.dropLast, change item⟩ ::
      (placements (some item.id) children ++ placements parent (f.remove p))) := by
  obtain ⟨before, after, hremove, hmodify⟩ := exists_placements_split parent h
  rw [hmodify change hid, hremove]
  refine List.perm_middle.trans (List.Perm.cons _ ?_)
  rw [← List.append_assoc, ← List.append_assoc]
  exact List.perm_append_comm.append_right _

/-- Removing a node leaves alone what stands neither there nor below. -/
theorem map_find?_remove {f : Forest} {p q : Path} (hpq : ¬ p <+: q) :
    ((f.remove p).find? q).map (·.1) = (f.find? q).map (·.1) := by
  induction f generalizing p q with
  | nil => rfl
  | cons item children rest ihc ihr =>
    cases p with
    | nil => exact absurd List.nil_prefix hpq
    | cons n p =>
      cases q with
      | nil => rw [find?_root, find?_root]
      | cons m q =>
        rw [List.cons_prefix_cons, not_and] at hpq
        by_cases hn : item.name = n
        · cases p with
          | nil =>
            have hm : item.name ≠ m := fun h => hpq (hn.symm.trans h) List.nil_prefix
            rw [remove_cons_single hn, find?_cons_of_ne hm]
          | cons k p =>
            rw [remove_cons_of_eq hn]
            by_cases hm : item.name = m
            · cases q with
              | nil =>
                rw [find?_cons_single hm, find?_cons_single hm, Option.map_some, Option.map_some]
              | cons l q =>
                rw [find?_cons_of_eq hm, find?_cons_of_eq hm]
                exact ihc (hpq (hn.symm.trans hm))
            · rw [find?_cons_of_ne hm, find?_cons_of_ne hm]
        · rw [remove_cons_of_ne hn]
          by_cases hm : item.name = m
          · cases q with
            | nil => rw [find?_cons_single hm, find?_cons_single hm]
            | cons l q => rw [find?_cons_of_eq hm, find?_cons_of_eq hm]
          · rw [find?_cons_of_ne hm, find?_cons_of_ne hm]
            refine ihr ?_
            rw [List.cons_prefix_cons, not_and]
            exact hpq

theorem idAt?_remove {f : Forest} {p q : Path} (hpq : ¬ p <+: q) :
    (f.remove p).idAt? q = f.idAt? q := by
  have := congrArg (Option.map (·.id)) (map_find?_remove (f := f) hpq)
  rwa [Option.map_map, Option.map_map] at this

/-- Whether there may be children at a path depends on the id there, the root apart. -/
theorem isSome_childrenAt?_iff {f : Forest} {q : Path} :
    (f.childrenAt? q).isSome ↔ q = [] ∨ (f.idAt? q).isSome := by
  cases q with
  | nil => simp [childrenAt?]
  | cons n q => simp [childrenAt?, idAt?]

section Operations

variable {f : Forest} {p q : Path} {item : Item} {children : Forest}

/-- Grafting a node without children adds one row, under the id at the path. -/
theorem table_graft (new : Item) (h : (f.childrenAt? q).isSome) :
    (graft (single new .nil) f q).table.Perm (⟨f.idAt? q, new⟩ :: f.table) := by
  have := @placements_graft_idOr (single new .nil) none f q h
  rwa [idOr_none] at this

/-- The rows of a node stand together, between those of what is left without it; a changed item that
keeps its id has its row in the same place. -/
theorem exists_table_split (h : f.find? p = some (item, children)) :
    ∃ before after, (f.remove p).table = before ++ after ∧
      f.table = before ++ (⟨f.idAt? p.dropLast, item⟩ ::
        (placements (some item.id) children ++ after)) ∧
      ∀ change : Item → Item, (change item).id = item.id → (modify change f p).table =
        before ++ (⟨f.idAt? p.dropLast, change item⟩ ::
          (placements (some item.id) children ++ after)) := by
  obtain ⟨before, after, hremove, hmodify⟩ := exists_placements_split none h
  rw [idOr_none] at hmodify
  have htable := hmodify id rfl
  rw [modify_id] at htable
  exact ⟨before, after, hremove, htable, hmodify⟩

/-- Changing an item that keeps its id changes its row alone. -/
theorem table_modify {change : Item → Item} (h : f.find? p = some (item, children))
    (hid : (change item).id = item.id) :
    (modify change f p).table.Perm (⟨f.idAt? p.dropLast, change item⟩ ::
      (placements (some item.id) children ++ (f.remove p).table)) := by
  have := @placements_modify_idOr change none f p item children h hid
  rwa [idOr_none] at this

/-- The rows of a forest: that of the item at a path, those below it, and those of what is left
without it. -/
theorem table_remove (h : f.find? p = some (item, children)) :
    f.table.Perm (⟨f.idAt? p.dropLast, item⟩ ::
      (placements (some item.id) children ++ (f.remove p).table)) := by
  have := table_modify h (rfl : (id item).id = item.id)
  rwa [modify_id] at this

/-- Relocating a node gives its row the id at the new parent and the new name. -/
theorem table_relocate (h : f.find? p = some (item, children)) (hq : (f.childrenAt? q).isSome)
    (hpq : ¬ p <+: q) (name : String) :
    (relocate f p q name).table.Perm (⟨f.idAt? q, item.renamed name⟩ ::
      (placements (some item.id) children ++ (f.remove p).table)) := by
  unfold relocate
  by_cases hparent : Path.parent p = q
  · rw [if_pos hparent, ← hparent]
    exact table_modify h rfl
  · rw [if_neg hparent, h]
    have hq' : ((f.remove p).childrenAt? q).isSome := by
      rwa [isSome_childrenAt?_iff, idAt?_remove hpq, ← isSome_childrenAt?_iff]
    have := @placements_graft_idOr (single (item.renamed name) children) none (f.remove p) q hq'
    rw [idOr_none, idAt?_remove hpq] at this
    simp only [single, placements, List.append_nil, List.cons_append] at this
    exact this

end Operations

end SharedScene.Forest
