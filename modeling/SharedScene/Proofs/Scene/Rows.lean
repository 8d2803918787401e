import SharedScene.Proofs.Scene.WellFormed

/-!
# A forest from its rows

The rows of a forest say which items hang from which parent, so a forest can be grown from rows
alone: the items under the root, below each of them those under its id, and so on (`ofRows`). From
its own table a forest grows back as it was (`ofRows_table`).

Of the rows only those **under** each parent count, in their order (`rowsUnder`). So forests are the
same when each parent has the same rows in the same order (`eq_of_rowsUnder_eq`), and rows that come
in another order grow a forest which differs from it in the order of siblings
(`placements_ofRows_perm`). A graft adds its row at the end of those under its parent
(`rowsUnder_graft`).
-/

namespace SharedScene.Forest

variable {f g new : Forest} {p : Path} {item : Item} {n : Item × Forest} {rows rows' : List Placed}
  {parent x : Option InstanceId}

/-! ## Nodes -/

/-- The topmost nodes of a forest: their items, each with its children. -/
def nodes : Forest → List (Item × Forest)
  | .nil => []
  | .cons item children rest => (item, children) :: rest.nodes

/-- The forest of the nodes that are given. -/
def ofNodes : List (Item × Forest) → Forest
  | [] => .nil
  | (item, children) :: rest => .cons item children (ofNodes rest)

theorem ofNodes_nodes (f : Forest) : ofNodes f.nodes = f := by
  induction f with
  | nil => rfl
  | cons item children rest _ ihr => rw [nodes, ofNodes, ihr]

theorem map_fst_nodes (f : Forest) : f.nodes.map Prod.fst = f.items := by
  induction f with
  | nil => rfl
  | cons item children rest _ ihr => rw [nodes, List.map_cons, ihr, items]

/-- The rows of nodes: that of each item, and those below it. -/
theorem placements_ofNodes (parent : Option InstanceId) (ns : List (Item × Forest)) :
    placements parent (ofNodes ns) =
      ns.flatMap fun n => ⟨parent, n.1⟩ :: placements (some n.1.id) n.2 := by
  induction ns with
  | nil => rfl
  | cons n ns ih => rw [ofNodes, placements, ih, List.flatMap_cons, List.cons_append]

theorem ofNodes_append (ns ns' : List (Item × Forest)) :
    ofNodes (ns ++ ns') = (ofNodes ns).append (ofNodes ns') := by
  induction ns with
  | nil => rfl
  | cons n ns ih => rw [List.cons_append, ofNodes, ofNodes, append, ih]

theorem names_ofNodes (ns : List (Item × Forest)) : (ofNodes ns).names = ns.map (·.1.name) := by
  induction ns with
  | nil => rfl
  | cons n ns ih => rw [List.map_cons, ← ih]; rfl

/-- Below a node there is less than in the forest. -/
theorem size_lt_of_mem_nodes (h : n ∈ f.nodes) : n.2.size < f.size := by
  induction f with
  | nil => cases h
  | cons item children rest _ ihr =>
    rw [size]
    rcases List.mem_cons.mp h with rfl | h
    · simp only
      omega
    · have := ihr h
      omega

/-- The ids of a node are among those of the forest. -/
theorem ids_sublist_of_mem_nodes (h : n ∈ f.nodes) : (n.1.id :: n.2.ids).Sublist f.ids := by
  induction f with
  | nil => cases h
  | cons item children rest _ ihr =>
    rw [ids_cons, ← List.cons_append]
    rcases List.mem_cons.mp h with rfl | h
    · exact List.sublist_append_left _ _
    · exact (ihr h).trans (List.sublist_append_right _ _)

/-! ## Rows under a parent -/

/-- The rows under a parent, in their order. -/
def rowsUnder (rows : List Placed) (parent : Option InstanceId) : List Placed :=
  rows.filter fun w => decide (w.parent = parent)

theorem rowsUnder_append (rows rows' : List Placed) (x : Option InstanceId) :
    rowsUnder (rows ++ rows') x = rowsUnder rows x ++ rowsUnder rows' x := List.filter_append ..

theorem rowsUnder_cons_of_eq {w : Placed} (h : w.parent = x) :
    rowsUnder (w :: rows) x = w :: rowsUnder rows x := by
  simp [rowsUnder, h]

theorem rowsUnder_cons_of_ne {w : Placed} (h : w.parent ≠ x) :
    rowsUnder (w :: rows) x = rowsUnder rows x := by
  simp [rowsUnder, h]

theorem rowsUnder_eq_nil (h : ∀ w ∈ rows, w.parent ≠ x) : rowsUnder rows x = [] := by
  simpa [rowsUnder] using h

/-- What stands neither above all nor in a forest has no rows there. -/
theorem rowsUnder_placements_eq_nil {id : InstanceId} (hparent : parent ≠ some id)
    (hid : id ∉ f.ids) : rowsUnder (placements parent f) (some id) = [] :=
  rowsUnder_eq_nil fun _ hw => parent_ne_of_mem hw hparent hid

/-- Under the parent of all stands the topmost level. -/
theorem rowsUnder_placements (outside : ∀ id ∈ f.ids, parent ≠ some id) :
    rowsUnder (placements parent f) parent = f.items.map (Placed.mk parent) := by
  induction f with
  | nil => rfl
  | cons item children rest _ ihr =>
    rw [ids_cons] at outside
    -- below an item the parent is the item or something below it
    have hbelow : rowsUnder (placements (some item.id) children) parent = [] := by
      refine rowsUnder_eq_nil fun w hw heq => ?_
      obtain ⟨id, hid, hparent⟩ := exists_parent_of_mem hw
      exact outside id (List.mem_append_left rest.ids hid) (heq.symm.trans hparent)
    have hafter := ihr fun id hid =>
      outside id (List.mem_cons_of_mem _ (List.mem_append_right _ hid))
    rw [placements, rowsUnder_cons_of_eq rfl, rowsUnder_append, hbelow, hafter, List.nil_append,
      items, List.map_cons]

/-- Under what stands at a node or below it are the rows below the node. -/
theorem rowsUnder_of_mem_nodes (nodup : f.ids.Nodup) (outside : ∀ id ∈ f.ids, parent ≠ some id)
    (hn : n ∈ f.nodes) {id : InstanceId} (hid : id ∈ n.1.id :: n.2.ids) :
    rowsUnder (placements parent f) (some id) =
      rowsUnder (placements (some n.1.id) n.2) (some id) := by
  induction f with
  | nil => cases hn
  | cons item children rest _ ihr =>
    have hmem := (ids_sublist_of_mem_nodes hn).subset hid
    rw [placements, rowsUnder_cons_of_ne (outside id hmem), rowsUnder_append]
    rw [ids_cons, ← List.cons_append] at nodup outside
    obtain ⟨_, nodupr, disjoint⟩ := List.nodup_append.mp nodup
    have houtside : ∀ id ∈ rest.ids, parent ≠ some id := fun id hid =>
      outside id (List.mem_append_right _ hid)
    rcases List.mem_cons.mp hn with rfl | hn
    · have habsent : id ∉ rest.ids := fun h => disjoint id hid id h rfl
      rw [rowsUnder_placements_eq_nil (outside id (List.mem_append_left _ hid)) habsent,
        List.append_nil]
    · have hlater := (ids_sublist_of_mem_nodes hn).subset hid
      have habsent : id ∉ item.id :: children.ids := fun h => disjoint id h id hlater rfl
      obtain ⟨hne, hbelow⟩ := not_or.mp fun h => habsent (List.mem_cons.mpr h)
      rw [rowsUnder_placements_eq_nil (fun heq => hne (Option.some.inj heq).symm) hbelow,
        List.nil_append, ihr nodupr houtside hn]

/-- Where children hang below an item, they hang from it or from something below it. -/
theorem exists_idOr (id : InstanceId) (hp : (f.childrenAt? p).isSome) :
    ∃ above ∈ id :: f.ids, idOr (some id) f p = some above := by
  cases p with
  | nil => exact ⟨id, List.mem_cons_self, rfl⟩
  | cons n p =>
    rw [childrenAt?_cons, Option.isSome_map] at hp
    obtain ⟨node, hfind⟩ := Option.isSome_iff_exists.mp hp
    exact ⟨node.1.id, List.mem_cons_of_mem _ (mem_ids_of_find? hfind), by simp [idOr, idAt?, hfind]⟩

/-- Grafted nodes come last under the parent at the path, and bring the rows below them along. Under
another parent there must be rows of the graft or rows of the forest, not both. -/
theorem rowsUnder_graft_idOr (nodup : f.ids.Nodup) (outside : ∀ id ∈ f.ids, parent ≠ some id)
    (hp : (f.childrenAt? p).isSome)
    (apart : x = idOr parent f p ∨ rowsUnder (placements (idOr parent f p) new) x = [] ∨
      rowsUnder (placements parent f) x = []) :
    rowsUnder (placements parent (graft new f p)) x =
      rowsUnder (placements parent f) x ++ rowsUnder (placements (idOr parent f p) new) x := by
  induction f generalizing parent p with
  | nil => cases p with
    | nil => rfl
    | cons n p => cases hp
  | cons first children rest ihc ihr =>
    cases p with
    | nil =>
      rw [graft, placements_append, rowsUnder_append]
      rfl
    | cons n p =>
      rw [ids_cons, ← List.cons_append] at nodup outside
      obtain ⟨nodupb, nodupr, disjoint⟩ := List.nodup_append.mp nodup
      obtain ⟨hfirst, nodupc⟩ := List.nodup_cons.mp nodupb
      have hcons : rowsUnder (placements parent (cons first children rest)) x =
          rowsUnder [⟨parent, first⟩] x ++ (rowsUnder (placements (some first.id) children) x ++
            rowsUnder (placements parent rest) x) := by
        rw [placements, ← List.singleton_append, rowsUnder_append, rowsUnder_append]
      rw [hcons, List.append_eq_nil_iff, List.append_eq_nil_iff] at apart
      by_cases hn : first.name = n
      · rw [childrenAt?_cons_of_eq hn] at hp
        rw [idOr_cons_of_eq hn] at apart
        have houtside : ∀ id ∈ children.ids, some first.id ≠ some id := fun id hid heq =>
          hfirst (Option.some.inj heq ▸ hid)
        have hbelow := ihc nodupc houtside hp (apart.imp_right (.imp_right fun h => h.2.1))
        -- nothing after the first node hangs from where the new nodes do
        have hafter : rowsUnder (placements (idOr (some first.id) children p) new) x = [] ∨
            rowsUnder (placements parent rest) x = [] := by
          rcases apart with hx | hnew | hf
          · obtain ⟨above, habove, heq⟩ := exists_idOr first.id hp
            rw [hx, heq]
            refine .inr (rowsUnder_placements_eq_nil ?_ fun h => disjoint above habove above h rfl)
            exact outside above (List.mem_append_left _ habove)
          · exact .inl hnew
          · exact .inr hf.2.2
        rw [hcons, graft_cons_of_eq _ hn, idOr_cons_of_eq hn, placements,
          ← List.singleton_append]
        simp only [rowsUnder_append, hbelow, List.append_assoc]
        rcases hafter with h | h <;> simp [h]
      · rw [childrenAt?_cons_of_ne hn] at hp
        rw [idOr_cons_of_ne hn] at apart
        have hrest := ihr nodupr (fun id hid => outside id (List.mem_append_right _ hid)) hp
          (apart.imp_right (.imp_right fun h => h.2.2))
        rw [hcons, graft_cons_of_ne _ hn, idOr_cons_of_ne hn, placements,
          ← List.singleton_append]
        simp only [rowsUnder_append, hrest, List.append_assoc]

theorem rowsUnder_graft_of_apart (nodup : f.ids.Nodup) (hp : (f.childrenAt? p).isSome)
    (apart : x = f.idAt? p ∨ rowsUnder (placements (f.idAt? p) new) x = [] ∨
      rowsUnder f.table x = []) :
    rowsUnder (graft new f p).table x =
      rowsUnder f.table x ++ rowsUnder (placements (f.idAt? p) new) x := by
  rw [← idOr_none] at apart ⊢
  exact rowsUnder_graft_idOr nodup (fun _ _ heq => by cases heq) hp apart

/-- One more item at the end of the children at a path comes last under its parent. -/
theorem rowsUnder_graft (nodup : f.ids.Nodup) (hp : (f.childrenAt? p).isSome) :
    rowsUnder (graft (single item .nil) f p).table x =
      rowsUnder f.table x ++ rowsUnder [⟨f.idAt? p, item⟩] x := by
  refine rowsUnder_graft_of_apart nodup hp ?_
  by_cases hx : f.idAt? p = x
  · exact .inl hx.symm
  · exact .inr (.inl (rowsUnder_cons_of_ne hx))

/-! ## Growing -/

/-- The forest that grows from rows below a parent, `depth` levels deep. -/
def ofRows (rows : List Placed) : Nat → Option InstanceId → Forest
  | 0, _ => .nil
  | depth + 1, parent =>
    ofNodes ((rowsUnder rows parent).map fun w => (w.item, ofRows rows depth (some w.id)))

/-- A forest grows from rows that have under each of its parents what the forest has there. -/
theorem ofRows_eq {depth : Nat} (hdepth : f.size ≤ depth) (nodup : f.ids.Nodup)
    (outside : ∀ id ∈ f.ids, parent ≠ some id)
    (hparent : rowsUnder rows parent = rowsUnder (placements parent f) parent)
    (hbelow : ∀ id ∈ f.ids, rowsUnder rows (some id) = rowsUnder (placements parent f) (some id)) :
    ofRows rows depth parent = f := by
  induction depth generalizing f parent with
  | zero =>
    cases f with
    | nil => rfl
    | cons item children rest =>
      rw [size] at hdepth
      omega
  | succ depth ih =>
    have hnode : ∀ n ∈ f.nodes, (n.1, ofRows rows depth (some n.1.id)) = n := by
      intro n hn
      have hsub := ids_sublist_of_mem_nodes hn
      obtain ⟨hid, nodupn⟩ := List.nodup_cons.mp (nodup.sublist hsub)
      have hrows : ∀ id ∈ n.1.id :: n.2.ids,
          rowsUnder rows (some id) = rowsUnder (placements (some n.1.id) n.2) (some id) := by
        intro id hmem
        rw [hbelow id (hsub.subset hmem), rowsUnder_of_mem_nodes nodup outside hn hmem]
      refine Prod.ext rfl (ih ?_ nodupn (fun id hmem heq => ?_) ?_ fun id hmem => ?_)
      · have := size_lt_of_mem_nodes hn
        omega
      · exact hid (Option.some.inj heq ▸ hmem)
      · exact hrows _ List.mem_cons_self
      · exact hrows _ (List.mem_cons_of_mem _ hmem)
    calc ofRows rows (depth + 1) parent
        = ofNodes (f.nodes.map fun n => (n.1, ofRows rows depth (some n.1.id))) := by
          rw [ofRows, hparent, rowsUnder_placements outside, ← map_fst_nodes, List.map_map,
            List.map_map]
          rfl
      _ = ofNodes f.nodes := by rw [List.map_congr_left hnode, List.map_id']
      _ = f := ofNodes_nodes f

/-- From its own table a forest grows back. -/
theorem ofRows_table {depth : Nat} (hdepth : f.size ≤ depth) (nodup : f.ids.Nodup) :
    ofRows f.table depth none = f :=
  ofRows_eq hdepth nodup (fun _ _ heq => by cases heq) rfl fun _ _ => rfl

/-- Forests in which each parent has the same rows in the same order are the same. -/
theorem eq_of_rowsUnder_eq (hf : f.ids.Nodup) (hg : g.ids.Nodup)
    (h : ∀ x, rowsUnder f.table x = rowsUnder g.table x) : f = g := by
  let depth := max f.size g.size
  have hgrown : ofRows g.table depth none = f :=
    ofRows_eq (Nat.le_max_left _ _) hf (fun _ _ heq => by cases heq) (h none).symm
      fun id _ => (h (some id)).symm
  exact hgrown.symm.trans (ofRows_table (Nat.le_max_right _ _) hg)

/-- Rows in another order grow the same rows. -/
theorem placements_ofRows_perm (h : rows.Perm rows') (depth : Nat) (parent : Option InstanceId) :
    (placements parent (ofRows rows depth parent)).Perm
      (placements parent (ofRows rows' depth parent)) := by
  induction depth generalizing parent with
  | zero => exact .refl _
  | succ depth ih =>
    rw [ofRows, ofRows, placements_ofNodes, placements_ofNodes, List.flatMap_map, List.flatMap_map]
    refine ((h.filter _).flatMap_right _).trans ?_
    exact List.Perm.flatMap_left _ fun w _ => (ih (some w.id)).cons _

end SharedScene.Forest
