import SharedScene.Proofs.Scene.Arena.Stores
import SharedScene.Proofs.Scene.Subtree

/-!
# Walks through an arena

A walk with a stack visits what recursion visits, in the same order: when the top of the stack is
one level of a forest, and each visit leads to the children, the level and all below it are gone
after as many visits as there are nodes (`unstack_level`). So a walk through an arena that stores a
forest ends within its budget, and a larger budget changes nothing.

The walk below an instance asks for the lists of the instances there and for nothing else. Its law
(`subtreeWithin_eq`) supposes just these lists, since the tables are already half written when an
edit walks.
-/

namespace SharedScene

namespace Forest

variable {α : Type} {f g : Forest} {item : Item} {children : Forest} {p : Path}

/-- What is noted of every node, each before those below it; `entry` is told the path of the parent
and the item. -/
def entries (entry : Path → Item → α) (above : Path) : Forest → List α
  | .nil => []
  | .cons item children rest => entry above item ::
    (entries entry (above.child item.name) children ++ entries entry above rest)

theorem entries_id (above : Path) (g : Forest) :
    entries (fun _ item => item.id) above g = g.ids := by
  induction g generalizing above with
  | nil => rfl
  | cons item children rest ihc ihr =>
    rw [entries, ihc, ihr, ids_cons]

theorem entries_path_id (parent : Option InstanceId) (above : Path) (g : Forest) :
    entries (fun above item => (above.child item.name, item.id)) above g =
      (index parent above g).map fun e => (e.path, e.record.id) := by
  induction g generalizing parent above with
  | nil => rfl
  | cons item children rest ihc ihr =>
    rw [entries, index, List.map_cons, List.map_append, ← ihc, ← ihr]
    rfl

/-- The names below a node are distinct on every level. -/
theorem WellFormed.namesDistinct_of_find? (h : f.WellFormed)
    (hfind : f.find? p = some (item, children)) : NamesDistinct children := by
  obtain ⟨before, after, _, htable, _⟩ := exists_table_split hfind
  have hbelow : (placements (some item.id) children).Sublist f.table := by
    rw [htable]
    exact ((List.sublist_append_left _ _).cons _).trans (List.sublist_append_right _ _)
  exact namesDistinct_of_sound (Sound.sublist h hbelow)

/-- A node has no more below it than the forest has. -/
theorem size_lt_of_find? (hfind : f.find? p = some (item, children)) : children.size < f.size := by
  have hperm := (ids_perm_remove hfind).length_eq
  rw [length_ids, List.length_append, List.length_cons, length_ids] at hperm
  omega

/-- A walk whose stack begins with a level, and whose visits lead to the children, has been through
the level and all below it after as many visits as there are nodes. -/
theorem unstack_level (next : α → List α) (entry : Path → Item → α) (above : Path)
    (names : NamesDistinct g) (hnext : ∀ q item children, g.find? q = some (item, children) →
      next (entry (above ++ q.parent) item) = children.items.map (entry (above ++ q)))
    (budget : Nat) (visited stack : List α) :
    unstack (fun visited x => (visited ++ [x], next x)) (g.size + budget) visited
        (g.items.map (entry above) ++ stack) =
      unstack (fun visited x => (visited ++ [x], next x)) budget (visited ++ entries entry above g)
        stack := by
  induction g generalizing above budget visited stack with
  | nil =>
    rw [size, Nat.zero_add, entries, List.append_nil]
    rfl
  | cons item children rest ihc ihr =>
    obtain ⟨hname, hchildren, hrest⟩ := names
    have htop : next (entry above item) = children.items.map (entry (above.child item.name)) := by
      have htop := hnext [item.name] item children (find?_cons_single rfl)
      rw [show above ++ Path.parent [item.name] = above from List.append_nil above] at htop
      exact htop
    have hbelow : ∀ q below under, children.find? q = some (below, under) →
        next (entry (above.child item.name ++ q.parent) below) =
          under.items.map (entry (above.child item.name ++ q)) := by
      intro q below under hq
      cases q with
      | nil =>
        rw [find?_root] at hq
        cases hq
      | cons n t =>
        rw [Path.child, List.append_assoc, List.append_assoc]
        exact hnext (item.name :: n :: t) below under ((find?_cons_of_eq rfl).trans hq)
    have hafter : ∀ q below under, rest.find? q = some (below, under) →
        next (entry (above ++ q.parent) below) = under.items.map (entry (above ++ q)) := by
      intro q below under hq
      cases q with
      | nil =>
        rw [find?_root] at hq
        cases hq
      | cons n t =>
        have hne : item.name ≠ n := fun heq => hname (heq ▸ head_mem_names_of_find? hq)
        exact hnext (n :: t) below under ((find?_cons_of_ne hne).trans hq)
    have hsize : (cons item children rest).size + budget =
        (children.size + (rest.size + budget)) + 1 := by
      rw [size]
      omega
    rw [hsize, items, List.map_cons, List.cons_append, unstack]
    dsimp only
    -- the node itself is visited, then what is below it, then the nodes after it
    rw [htop, ihc _ hchildren hbelow, ihr _ hrest hafter, entries, List.append_assoc,
      List.append_assoc]
    rfl

end Forest

namespace Arena

open Forest (pathOf?)

variable {a b : Arena} {f : Forest} {id : InstanceId} {p q : Path} {item : Item}
  {children siblings : Forest}

theorem unstack_nil {σ α : Type} (visit : σ → α → σ × List α) (budget : Nat) (s : σ) :
    unstack visit budget s [] = s := by
  cases budget <;> rfl

/-- The children at a path, with their paths. -/
theorem Stores.named (h : a.Stores f) (hf : f.WellFormed) (hq : f.childrenAt? q = some siblings) :
    a.named q (f.idAt? q) = siblings.items.map fun item => (q.child item.name, item.id) := by
  unfold Arena.named
  rw [h.children, hf.childIds_of_childrenAt? hq, Forest.topIds, List.filterMap_map]
  refine List.filterMap_eq_map_iff_forall_eq_some.mpr fun item hitem => ?_
  show (a.nodes.get? item.id).map _ = _
  rw [h.node, hf.instance?_of_mem_items hq hitem]
  rfl

/-- A traversal goes through the forest that is stored, as soon as its budget is large enough. -/
theorem Stores.traverseWithin (h : a.Stores f) (hf : f.WellFormed) {budget : Nat}
    (hbudget : f.size ≤ budget) :
    a.traverseWithin budget = f.indexed.map fun e => (e.path, e.record.id) := by
  obtain ⟨more, rfl⟩ := Nat.exists_eq_add_of_le hbudget
  have hroots := h.named hf (show f.childrenAt? Path.root = some f from rfl)
  rw [show f.idAt? Path.root = none by rw [Forest.idAt?, Path.root, Forest.find?_root]; rfl]
    at hroots
  have hnext : ∀ q item children, f.find? q = some (item, children) →
      a.named (Path.child (Path.root ++ q.parent) item.name) (some item.id) =
        children.items.map fun below => (Path.child (Path.root ++ q) below.name, below.id) := by
    intro q item children hfind
    have hq : q = Path.child q.parent item.name := Forest.eq_child_of_find? hfind
    have hid : f.idAt? q = some item.id := by rw [Forest.idAt?, hfind, Option.map_some]
    have hbelow := h.named hf (Forest.childrenAt?_of_find? hfind)
    rw [hid] at hbelow
    show a.named (q.parent.child item.name) (some item.id) = _
    rw [← hq]
    exact hbelow
  have hwalk := Forest.unstack_level (fun e => a.named e.1 (some e.2))
    (fun above item => (Path.child above item.name, item.id)) Path.root hf.namesDistinct hnext more
    [] []
  rw [List.append_nil, unstack_nil, List.nil_append, Forest.entries_path_id none] at hwalk
  unfold Arena.traverseWithin
  rw [hroots]
  exact hwalk

theorem Stores.traverse (h : a.Stores f) (hf : f.WellFormed) :
    a.traverse = f.indexed.map fun e => (e.path, e.record.id) :=
  h.traverseWithin hf (h.size hf).ge

/-- It visits what is stored. -/
theorem Stores.map_snd_traverse (h : a.Stores f) (hf : f.WellFormed) :
    a.traverse.map Prod.snd = f.ids := by
  rw [h.traverse hf, List.map_map, ← Forest.map_id_index none Path.root]
  rfl

/-- The ids at and below an instance, by the lists of the instances there. -/
theorem subtreeWithin_eq (hf : f.WellFormed) (hfind : f.find? p = some (item, children))
    (hlists : ∀ y ∈ item.id :: children.ids, a.children (some y) = f.childIds (some y))
    {budget : Nat} (hbudget : children.size < budget) :
    a.subtreeWithin budget item.id = item.id :: children.ids := by
  obtain ⟨more, hmore⟩ := Nat.exists_eq_add_of_lt hbudget
  have hchildren : ∀ q below under, f.find? q = some (below, under) →
      below.id ∈ item.id :: children.ids → a.children (some below.id) = under.topIds := by
    intro q below under hq hmem
    have hid : f.idAt? q = some below.id := by rw [Forest.idAt?, hq, Option.map_some]
    rw [hlists _ hmem, ← hid, hf.childIds_of_childrenAt? (Forest.childrenAt?_of_find? hq)]
  have hnext : ∀ q below under, children.find? q = some (below, under) →
      a.children (some below.id) = under.items.map (·.id) := by
    intro q below under hq
    refine hchildren (p ++ q) below under ?_ (List.mem_cons_of_mem _ (Forest.mem_ids_of_find? hq))
    cases q with
    | nil =>
      rw [Forest.find?_root] at hq
      cases hq
    | cons n t => exact (Forest.find?_append hfind n t).trans hq
  have hwalk := Forest.unstack_level (fun id => a.children (some id)) (fun _ item => item.id)
    Path.root (hf.namesDistinct_of_find? hfind) hnext more [item.id] []
  rw [List.append_nil, unstack_nil, Forest.entries_id] at hwalk
  unfold subtreeWithin
  rw [hmore, unstack]
  dsimp only
  rw [List.append_nil, hchildren p item children hfind List.mem_cons_self]
  exact hwalk

end Arena

end SharedScene
