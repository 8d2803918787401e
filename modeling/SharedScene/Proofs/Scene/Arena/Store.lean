import SharedScene.Proofs.Scene.Applied
import SharedScene.Proofs.Scene.Arena.Edit

/-!
# Messages on an arena

A store that is kept in tables **shows** a store when its arena stores the forest and everything
else is the same (`ArenaStore.Shows`). Applied in place, a message does to the tables what it does
to the forest: it gets the same answer, the tables show the store after it, and a refusal finds
every table as it was (`ArenaStore.run_apply`).
-/

namespace SharedScene

/-- The store, with its scene in tables. -/
def Store.onArena (s : Store) (a : Arena) : ArenaStore :=
  ⟨a, s.revision, s.pending, s.outbox, s.ids⟩

namespace ArenaStore

open Forest (single)
open InPlace (check)

/-- The tables are those of the scene of a store, and the rest is the same. -/
inductive Shows : ArenaStore → Store → Prop where
  | onArena {s : Store} {a : Arena} (h : a.Stores s.forest) : Shows (s.onArena a) s

/-- The answer of an operation, and the run of one that does the same in place. A refusal has
written nothing. -/
inductive Answers (t : ArenaStore) {β : Type} :
    Except SceneError (β × Store) → EStateM.Result SceneError ArenaStore β → Prop where
  | ok {b : β} {s' : Store} {t' : ArenaStore} (h : t'.Shows s') : Answers t (.ok (b, s')) (.ok b t')
  | error {e : SceneError} : Answers t (.error e) (.error e t)

variable {s : Store} {t t' : ArenaStore} {origin : Origin} {path q : Path} {item : Item}
  {children : Forest} {a : Arena}

theorem Shows.stores (h : t.Shows s) : t.arena.Stores s.forest := by
  obtain ⟨h⟩ := h
  exact h

/-- A store is shown in one way. -/
theorem Shows.unique (h : t.Shows s) (h' : t'.Shows s) : t = t' := by
  obtain ⟨h⟩ := h
  obtain ⟨h'⟩ := h'
  rw [h.unique h']

theorem shows_empty (supply : IdSupply) : (empty supply).Shows (.empty supply) :=
  .onArena (s := .empty supply) Arena.stores_empty

/-- A check that both make. -/
theorem Answers.check_bind {α β : Type} {read : Except SceneError α}
    {operation : α → Edit β} {answer : α → Except SceneError (β × Store)}
    (h : ∀ x, read = .ok x → t.Answers (answer x) ((operation x).run t)) :
    t.Answers (read >>= answer) ((check (fun _ => read) >>= operation).run t) := by
  cases read with
  | error e => exact .error
  | ok x => exact h x rfl

/-! ## Reading -/

/-- The lookup that every message but a create begins with. -/
theorem Answers.lookup_bind {β : Type} (h : a.Stores s.forest) {operation : InstanceId → Edit β}
    {answer : Item × Forest → Except SceneError (β × Store)}
    (hrun : ∀ item children, s.forest.find? path = some (item, children) →
      (s.onArena a).Answers (answer (item, children)) ((operation item.id).run (s.onArena a))) :
    (s.onArena a).Answers (s.lookup path >>= answer)
      ((lookup path >>= operation).run (s.onArena a)) := by
  rw [EStateM.run_bind, Store.lookup, lookup, check, EStateM.run_bind, EStateM.run_get]
  dsimp only
  rw [show (s.onArena a).arena.paths.get? path = _ from h.id path, Forest.idAt?]
  cases hfind : s.forest.find? path with
  | none => exact .error
  | some node => exact hrun _ _ hfind

/-- The record that an edit reads. -/
theorem run_node_bind {β : Type} (h : a.Stores s.forest) (hs : s.forest.WellFormed)
    (hfind : s.forest.find? path = some (item, children)) (rest : Instance → Edit β) :
    (node item.id >>= rest).run (s.onArena a) = (rest (item.toInstance
      (s.forest.idAt? path.parent) (s.forest.childIds (some item.id)))).run (s.onArena a) := by
  obtain ⟨siblings, hq, hitem⟩ := Forest.exists_childrenAt?_parent hfind
  rw [EStateM.run_bind, node, check, EStateM.run_bind, EStateM.run_get]
  dsimp only
  rw [show (s.onArena a).arena.nodes.get? item.id = _ from h.node item.id,
    hs.instance?_of_mem_items hq hitem]
  rfl

/-! ## The operations -/

/-- Where the new name is one that no sibling has, a move leaves a well-formed forest. -/
theorem wellFormed_move (hs : s.forest.WellFormed)
    (hfind : s.forest.find? path = some (item, children)) (hq : (s.forest.childrenAt? q).isSome)
    (hpq : ¬ path <+: q) (desired : String) : (s.forest.relocate path q
      (Name.resolve desired (Store.siblingNames s.forest q item.id))).WellFormed :=
  hs.relocate hfind hq hpq (hs.isFree_iff.mp (Store.isFree_resolve desired item.id hq)).2

theorem run_create (h : a.Stores s.forest) (hs : s.forest.WellFormed) (new : NewInstance) :
    (s.onArena a).Answers (s.create q new origin) ((create q new origin).run (s.onArena a)) := by
  unfold create Store.create
  rw [EStateM.run_bind, EStateM.run_get]
  dsimp only
  rw [show (s.onArena a).arena.parentAt? q = _ from h.parentAt? q]
  cases hq : s.forest.childrenAt? q with
  | none => exact .ok (.onArena h)
  | some siblings =>
    refine .check_bind fun _ hname => .check_bind fun _ hproperties => ?_
    have hchildren : (s.forest.childrenAt? q).isSome := by rw [hq]; rfl
    have hcontains : ∀ id, (s.onArena a).arena.nodes.contains id = s.isLive id :=
      h.contains_nodes hs
    have hsupply : (s.onArena a).supply = s.ids := rfl
    simp only [EStateM.run_bind, EStateM.run_get, hcontains, hsupply]
    by_cases hlive : s.isLive (new.id.getD s.ids.next) = true
    · simp only [if_pos hlive]
      exact .error
    · simp only [if_neg hlive]
      have hwf : (Forest.graft (single ⟨new.id.getD s.ids.next, new.className,
          Name.resolve new.name siblings.names, new.properties⟩ .nil) s.forest q).WellFormed :=
        hs.graft hchildren (fun hmem => hlive (Forest.isSome_pathOf?_iff.mpr hmem))
          (hs.slot_free_of_not_mem_names hq (Name.resolve_not_mem _ _)) fun key hkey => by
            obtain ⟨e, he, rfl⟩ := List.mem_map.mp hkey
            exact Store.unreserved_of_checkProperty (Success.forM_eq_ok hproperties e he)
      have hinsert := (h.insert hs hwf hchildren).2
      have hnames : (s.onArena a).arena.siblingNames (s.forest.idAt? q) none = siblings.names :=
        h.siblingNames_none hs hq
      obtain ⟨id, className, name, properties⟩ := new
      cases id with
      | some id =>
        simp only [Option.isNone_some, Option.isSome_some, Bool.false_eq_true, if_false, if_true,
          EStateM.run_bind, EStateM.run_get, hnames]
        exact .ok (.onArena (s := s.commit _ _ _ _) hinsert)
      | none =>
        simp only [Option.isNone_none, Option.isSome_none, Bool.false_eq_true, if_false, if_true,
          EStateM.run_bind, EStateM.run_get, EStateM.run_modify]
        rw [show ArenaStore.arena _ = (s.onArena a).arena from rfl, hnames]
        exact .ok (.onArena (s := Store.commit { s with ids := s.ids.advance } _ _ _ _) hinsert)

theorem run_rename (h : a.Stores s.forest) (hs : s.forest.WellFormed)
    (hfind : s.forest.find? path = some (item, children)) (desired : String) :
    (s.onArena a).Answers (s.rename path item desired origin)
      ((rename item.id path desired origin).run (s.onArena a)) := by
  obtain ⟨siblings, hq, _⟩ := Forest.exists_childrenAt?_parent hfind
  have hparent : (s.forest.childrenAt? path.parent).isSome := by rw [hq]; rfl
  have hpq := Forest.not_prefix_parent hfind
  have hwf := wellFormed_move hs hfind hparent hpq desired
  have hnames : (s.onArena a).arena.siblingNames (s.forest.idAt? path.parent) (some item.id) = _ :=
    h.siblingNames_some hs hparent item.id
  refine .check_bind fun _ _ => ?_
  rw [run_node_bind h hs hfind]
  show Answers _ _ ((do _ : Edit Outcome).run (s.onArena a))
  rw [EStateM.run_bind, EStateM.run_get]
  dsimp only
  rw [show Instance.parent _ = s.forest.idAt? path.parent from rfl, hnames]
  exact .ok (.onArena (s := s.commit _ _ _ _)
    (h.rename hs hwf hfind (hs.moves_relocate hwf hfind hparent hpq)))

theorem run_update (h : a.Stores s.forest) (hs : s.forest.WellFormed) (key : String)
    (value : Value) : (s.onArena a).Answers (s.update path key value origin)
      ((update path key value origin).run (s.onArena a)) := by
  refine .lookup_bind h fun item children hfind => ?_
  dsimp only
  split
  · cases value.text? with
    | none => exact .error
    | some desired => exact run_rename h hs hfind desired
  · split
    · exact .error
    · next hkey =>
      have hchanged : s.Changed (.update path key value) origin _ :=
        Store.set_changed hs hfind (Bool.not_eq_true _ ▸ hkey) value
      have hmodify := h.modify hs (fun node =>
        { node with properties := node.properties.insert key value }) hchanged.wellFormed hfind
        rfl rfl fun _ _ => rfl
      refine .check_bind fun _ _ => ?_
      rw [run_node_bind h hs hfind]
      dsimp only [Item.toInstance]
      cases item.properties.get? key with
      | none => exact .ok (.onArena (s := s.commit _ _ _ _) hmodify)
      | some old =>
        dsimp only
        split
        · exact .ok (.onArena (s := s.commit _ _ _ _) hmodify)
        · exact .error

theorem run_delete (h : a.Stores s.forest) (hs : s.forest.WellFormed) :
    (s.onArena a).Answers (s.delete path origin) ((delete path origin).run (s.onArena a)) := by
  refine .lookup_bind h fun item children hfind => ?_
  obtain ⟨b, hremove, hb⟩ := h.removeSubtree? hs hfind
  rw [EStateM.run_bind, removeSubtree, EStateM.run_bind, EStateM.run_get]
  dsimp only
  rw [show (s.onArena a).arena.removeSubtree? item.id = _ from hremove]
  exact .ok (.onArena (s := s.commit _ _ _ _) hb)

theorem run_reparent (h : a.Stores s.forest) (hs : s.forest.WellFormed) (name : Option String) :
    (s.onArena a).Answers (s.reparent path q name origin)
      ((reparent path q name origin).run (s.onArena a)) := by
  refine .lookup_bind h fun item children hfind => ?_
  dsimp only
  split
  · exact .error
  · next hcycle =>
    rw [Path.isAtOrAbove, List.isPrefixOf_iff_prefix] at hcycle
    rw [EStateM.run_bind, parentAt, check, EStateM.run_bind, EStateM.run_get, Store.pathExists]
    dsimp only
    rw [show (s.onArena a).arena.parentAt? q = _ from h.parentAt? q]
    cases hq : s.forest.childrenAt? q with
    | none => exact .error
    | some siblings =>
      have hchildren : (s.forest.childrenAt? q).isSome := by rw [hq]; rfl
      have hwf := wellFormed_move hs hfind hchildren hcycle (name.getD item.name)
      have hmove := h.move hs hwf (hs.moves_relocate hwf hfind hchildren hcycle)
      have hnames : (s.onArena a).arena.siblingNames (s.forest.idAt? q) (some item.id) = _ :=
        h.siblingNames_some hs hchildren item.id
      show Answers _ _ ((node item.id >>= fun target => _).run (s.onArena a))
      rw [run_node_bind h hs hfind]
      refine .check_bind fun _ _ => ?_
      rw [EStateM.run_bind, EStateM.run_get]
      dsimp only
      rw [hnames]
      dsimp only [Item.toInstance] at hmove ⊢
      by_cases hsame : s.forest.idAt? path.parent = s.forest.idAt? q
      · rw [if_pos hsame] at hmove
        simp only [ne_eq, hsame, not_true_eq_false, if_false]
        exact .ok (.onArena (s := s.commit _ _ _ _) hmove)
      · rw [if_neg hsame] at hmove
        simp only [ne_eq, hsame, not_false_eq_true, if_true]
        exact .ok (.onArena (s := s.commit _ _ _ _) hmove)

/-- A message does to the tables what it does to the forest, with the same answer. -/
theorem run_apply (h : t.Shows s) (hs : s.forest.WellFormed) (message : Message) :
    t.Answers (s.apply message origin) ((apply message origin).run t) := by
  obtain ⟨h⟩ := h
  cases message with
  | create q new => exact run_create h hs new
  | update path key value => exact run_update h hs key value
  | delete path => exact run_delete h hs
  | reparent path q name => exact run_reparent h hs name

end ArenaStore

end SharedScene
