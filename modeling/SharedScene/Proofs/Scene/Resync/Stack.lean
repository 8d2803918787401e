import SharedScene.Proofs.Scene.Resync.Grounded
import SharedScene.Proofs.Scene.Resync.Siblings

/-!
# Growing a forest with a stack

What reports describe can be built without recursion (`Walk`). A stack holds reports whose parent
has been built, each with the path of that parent; the one on top is named beside the siblings that
are there, becomes the last of them, and its own children take its place on the stack.

The walk ends, and it builds the same forest (`Walk.after_start`): it takes a report from the stack
as often as there are instances in the end. The bound on the depth of the recursion is what makes
this an argument: a report deeper than that would have a lineage longer than the list of reports.
-/

namespace SharedScene

namespace Forest

variable {f g siblings : Forest} {item : Item} {q : Path}

/-! ## Grafting twice -/

theorem graft_nil (f : Forest) (q : Path) : graft .nil f q = f := by
  induction f generalizing q with
  | nil => cases q <;> rfl
  | cons first below rest ihc ihr =>
    cases q with
    | nil => exact append_nil _
    | cons n q =>
      by_cases hn : first.name = n
      · rw [graft_cons_of_eq _ hn, ihc]
      · rw [graft_cons_of_ne _ hn, ihr]

/-- Two grafts at one path are one. -/
theorem graft_graft (g h f : Forest) (q : Path) :
    graft h (graft g f q) q = graft (g.append h) f q := by
  induction f generalizing q with
  | nil => cases q with
    | nil => simp only [graft, append]
    | cons n q => rfl
  | cons first below rest ihc ihr =>
    cases q with
    | nil => exact append_assoc _ g h
    | cons n q =>
      by_cases hn : first.name = n
      · rw [graft_cons_of_eq _ hn, graft_cons_of_eq _ hn, graft_cons_of_eq _ hn, ihc]
      · rw [graft_cons_of_ne _ hn, graft_cons_of_ne _ hn, graft_cons_of_ne _ hn, ihr]

theorem childrenAt?_graft (hq : f.childrenAt? q = some siblings) :
    (graft g f q).childrenAt? q = some (siblings.append g) := by
  induction f generalizing q with
  | nil => cases q with
    | nil => cases hq; rfl
    | cons n q => cases hq
  | cons first below rest ihc ihr =>
    cases q with
    | nil => cases hq; rfl
    | cons n q =>
      by_cases hn : first.name = n
      · rw [childrenAt?_cons_of_eq hn] at hq
        rw [graft_cons_of_eq _ hn, childrenAt?_cons_of_eq hn, ihc hq]
      · rw [childrenAt?_cons_of_ne hn] at hq
        rw [graft_cons_of_ne _ hn, childrenAt?_cons_of_ne hn, ihr hq]

/-- At the end of a level, under a name that nobody has there, stands the new node. -/
theorem graft_append_single (hname : item.name ∉ f.names) (g : Forest) :
    graft g (f.append (single item .nil)) [item.name] = f.append (single item g) ∧
      (f.append (single item .nil)).childrenAt? [item.name] = some .nil := by
  induction f with
  | nil => exact ⟨graft_cons_of_eq g rfl, childrenAt?_cons_of_eq rfl⟩
  | cons first below rest _ ihr =>
    obtain ⟨hfirst, hrest⟩ := not_or.mp (fun h => hname (List.mem_cons.mpr h))
    obtain ⟨hgraft, hchildren⟩ := ihr hrest
    have hne : first.name ≠ item.name := Ne.symm hfirst
    rw [append, graft_cons_of_ne _ hne, childrenAt?_cons_of_ne hne, hgraft]
    exact ⟨rfl, hchildren⟩

/-- What is grafted onto a node that was just added could have been added with it. -/
theorem graft_child (hq : f.childrenAt? q = some siblings) (hname : item.name ∉ siblings.names)
    (g : Forest) :
    graft g (graft (single item .nil) f q) (q.child item.name) = graft (single item g) f q ∧
      (graft (single item .nil) f q).childrenAt? (q.child item.name) = some .nil := by
  induction f generalizing q with
  | nil => cases q with
    | nil => exact graft_append_single List.not_mem_nil g
    | cons n q => cases hq
  | cons first below rest ihc ihr =>
    cases q with
    | nil =>
      cases hq
      exact graft_append_single hname g
    | cons n q =>
      have hchild : Path.child (n :: q) item.name = n :: Path.child q item.name := rfl
      rw [hchild]
      by_cases hn : first.name = n
      · rw [childrenAt?_cons_of_eq hn] at hq
        obtain ⟨hgraft, hchildren⟩ := ihc hq
        rw [graft_cons_of_eq _ hn, graft_cons_of_eq _ hn, graft_cons_of_eq _ hn,
          childrenAt?_cons_of_eq hn, hgraft]
        exact ⟨rfl, hchildren⟩
      · rw [childrenAt?_cons_of_ne hn] at hq
        obtain ⟨hgraft, hchildren⟩ := ihr hq
        rw [hchild] at hgraft hchildren
        rw [graft_cons_of_ne _ hn, graft_cons_of_ne _ hn, graft_cons_of_ne _ hn,
          childrenAt?_cons_of_ne hn, hgraft]
        exact ⟨rfl, hchildren⟩

end Forest

namespace Report

open Forest

/-! ## The walk -/

/-- The stack of reports to be built, each with the path of its parent, and what is built. -/
structure Walk where
  stack : List (Report × Path)
  scene : Forest

variable {reports rs : List Report} {parent : Option InstanceId} {above : List InstanceId}
  {scene siblings : Forest} {q : Path} {rest : List (Report × Path)}

/-- The reports under a parent, as they are put on the stack. -/
def pushed (reports : List Report) (parent : Option InstanceId) (q : Path) : List (Report × Path) :=
  (reports.filter fun r => decide (r.parentId = parent)).map fun r => (r, q)

namespace Walk

def start (reports : List Report) : Walk := ⟨pushed reports none Path.root, .nil⟩

/-- Builds the report on top of the stack; `none` when the stack is empty. -/
def step? (reports : List Report) (w : Walk) : Option Walk :=
  match w.stack with
  | [] => none
  | (r, q) :: rest =>
    let siblings := (w.scene.childrenAt? q).getD .nil
    let item := r.toItem siblings.names
    some ⟨pushed reports (some r.id) (q.child item.name) ++ rest,
      graft (.single item .nil) w.scene q⟩

/-- The walk after so many steps, unless it ends before. -/
def after? (reports : List Report) : Nat → Walk → Option Walk
  | 0, w => some w
  | n + 1, w => (w.step? reports).bind (after? reports n)

theorem after?_add (reports : List Report) (m n : Nat) (w : Walk) :
    w.after? reports (m + n) = (w.after? reports m).bind (after? reports n) := by
  induction m generalizing w with
  | zero => rw [Nat.zero_add]; rfl
  | succ m ih =>
    rw [Nat.succ_add, after?, after?]
    cases w.step? reports with
    | none => rfl
    | some next => exact ih next

/-- Building a report on top of the stack. -/
theorem step?_cons (hq : scene.childrenAt? q = some siblings) (r : Report) :
    step? reports ⟨(r, q) :: rest, scene⟩ =
      some ⟨pushed reports (some r.id) (q.child (r.toItem siblings.names).name) ++ rest,
        graft (single (r.toItem siblings.names) .nil) scene q⟩ := by
  simp only [step?, hq, Option.getD_some]

/-- Reports of one level on top of the stack are built with what grows below them, when that is so
for the children of each. -/
theorem after?_level {depth : Nat}
    (hbelow : ∀ r ∈ rs, ∀ (scene : Forest) (q : Path) (rest : List (Report × Path)),
      scene.childrenAt? q = some .nil →
      after? reports (grow reports depth (some r.id)).size
          ⟨pushed reports (some r.id) q ++ rest, scene⟩ =
        some ⟨rest, graft (grow reports depth (some r.id)) scene q⟩)
    (hq : scene.childrenAt? q = some siblings) :
    let grown := level (fun r => grow reports depth (some r.id)) siblings.names rs
    after? reports grown.size ⟨rs.map (fun r => (r, q)) ++ rest, scene⟩ =
      some ⟨rest, graft grown scene q⟩ := by
  induction rs generalizing scene siblings with
  | nil =>
    show some (Walk.mk rest scene) = some ⟨rest, graft .nil scene q⟩
    rw [graft_nil]
  | cons r rs ih =>
    intro grown
    let item := r.toItem siblings.names
    let below := grow reports depth (some r.id)
    have hname : item.name ∉ siblings.names := Name.resolve_not_mem _ _
    obtain ⟨hgraft, hchildren⟩ := graft_child hq hname below
    have hbuilt : (graft (single item below) scene q).childrenAt? q =
        some (siblings.append (single item below)) := childrenAt?_graft hq
    have hlater := ih (fun r hr => hbelow r (List.mem_cons_of_mem _ hr)) hbuilt
    rw [names_append] at hlater
    have hsize : grown.size = 1 + (below.size + (level (fun r => grow reports depth (some r.id))
        (siblings.names ++ [item.name]) rs).size) := by
      show below.size + 1 + (level _ (siblings.names ++ [item.name]) rs).size = _
      omega
    -- the report itself, then all below it, then the reports after it
    rw [hsize, after?_add, after?, List.map_cons, List.cons_append, step?_cons hq, Option.bind_some]
    rw [show ∀ w : Walk, after? reports 0 w = some w from fun _ => rfl, Option.bind_some,
      after?_add, hbelow r List.mem_cons_self _ _ _ hchildren, hgraft, Option.bind_some]
    refine hlater.trans ?_
    rw [graft_graft]
    rfl

/-- The reports under a parent on top of the stack are built as they grow, when the depth leaves
room for the longest lineage. -/
theorem after?_grow (nodup : (reports.map (·.id)).Nodup) {depth : Nat}
    (hparent : Lineage reports parent above) (hdepth : reports.length ≤ depth + above.length)
    (hq : scene.childrenAt? q = some .nil) :
    after? reports (grow reports depth parent).size ⟨pushed reports parent q ++ rest, scene⟩ =
      some ⟨rest, graft (grow reports depth parent) scene q⟩ := by
  induction depth generalizing parent above scene q rest with
  | zero =>
    have hnone : pushed reports parent q = [] := by
      refine List.map_eq_nil_iff.mpr (List.eq_nil_iff_forall_not_mem.mpr fun r hr => ?_)
      have hle := (hparent.child hr).length_le nodup
      rw [List.length_cons] at hle
      omega
    rw [hnone, grow, graft_nil]
    rfl
  | succ depth ih =>
    rw [grow_succ]
    refine after?_level (fun r hr scene q rest hq => ?_) hq
    refine ih (hparent.child hr) ?_ hq
    rw [List.length_cons]
    omega

/-- The walk takes one report from the stack for each instance that is described, and has then built
what the reports describe. -/
theorem after?_start (reports : List Report) :
    (start (firsts [] reports)).after? (firsts [] reports) (toForest reports).size =
      some ⟨[], toForest reports⟩ := by
  have hend := @after?_grow _ none [] .nil Path.root [] (nodup_firsts [] reports).1
    (firsts [] reports).length .root (Nat.le_add_right _ _) rfl
  rw [List.append_nil] at hend
  exact hend

end Walk

end Report

end SharedScene
