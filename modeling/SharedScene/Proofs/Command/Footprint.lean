import SharedScene.Proofs.Command.Frame
import SharedScene.Proofs.Scene.Subtree

/-!
# A footprint covers the change

The footprint of a command and its message are found apart from each other. What the message does to
an instance that is there, it does from its target downwards; and the target, found by its id or by
its path, is an instance and so has a path that is leased (`Command.target_mem_footprint`). What it
adds it adds under a parent whose path is leased as well, unless that is the root, which nobody
leases (`Command.parent_mem_footprint`). So whoever holds the leases of a command is safe from
others in all that it changes (`Command.footprint_covers_change`).
-/

namespace SharedScene

open Forest Store Success

/-- A target leads to an instance, and so never to the root. -/
theorem Target.ne_root_of_resolve {t : Target} {f : Forest} {path : Path}
    (h : t.resolve f = .ok path) : path ≠ Path.root := by
  unfold resolve at h
  split at h
  · split at h
    · next hpath =>
      cases h
      exact ne_nil_of_pathOf? hpath
    · cases h
  · split at h
    · cases h
    · next hroot =>
      split at h
      · cases h
        exact fun hnil => hroot (List.isEmpty_iff.mpr hnil)
      · cases h
  · cases h

namespace Command

variable {c : Command} {s s' : Store} {m : Message} {output : CommandOutput} {paths : List Path}
  {id : InstanceId} {path p q : Path}

/-- The path of what a message is about is in the footprint of its command. -/
theorem target_mem_footprint (h : c.footprint s = .ok paths) (hm : c.message s = .ok m)
    (hpath : m.target? = some path) : path ∈ paths := by
  obtain ⟨t, ht, hresolve, _⟩ := exists_target_of_message hm hpath
  exact mem_footprint h ht hresolve (Target.ne_root_of_resolve hresolve)

/-- So is the path of the parent of what is created, unless it is the root. -/
theorem parent_mem_footprint (h : c.footprint s = .ok paths) {new : NewInstance}
    (hm : c.message s = .ok (.create q new)) (hq : q ≠ Path.root) : q ∈ paths := by
  cases c with
  | create parentPath className name properties =>
    rw [message] at hm
    split at hm
    · cases hm
      simp only [footprint, pure_bind, pure_eq_ok] at h
      rw [← h, SortedMap.mem_sortedElements, List.mem_filter]
      refine ⟨List.mem_cons_self, ?_⟩
      rwa [Bool.not_eq_true', List.isEmpty_eq_false_iff]
    · cases hm
  | update | rename | delete | reparent =>
    obtain ⟨_, _, hm⟩ := bind_eq_ok.mp hm
    cases hm

/-- A message leaves alone what is neither at a path of the footprint nor below one. -/
theorem uncovered_kept (h : s.forest.WellFormed) (hfootprint : c.footprint s = .ok paths)
    (hm : c.message s = .ok m) {origin : Origin} (hchanged : s.Changed m origin s')
    (hp : pathOf? id s.forest = some p) (hoff : ∀ q ∈ paths, ¬ q <+: p) :
    s'.forest.placed? id = s.forest.placed? id ∧ pathOf? id s'.forest = some p := by
  have huntouched : ∀ r, r <+: p → ¬ m.Touches r := by
    intro r hr htouches
    obtain ⟨path, hpath, hbelow⟩ := Message.exists_target_of_touches htouches
    exact hoff path (target_mem_footprint hfootprint hm hpath) (hbelow.trans hr)
  refine ⟨hchanged.placed?_eq h hp (huntouched p (List.prefix_refl p)), ?_⟩
  exact hchanged.pathOf?_eq h hp fun r hr hdisplaces =>
    huntouched r hr (Message.touches_of_displaces hdisplaces)

/-- What a message adds hangs from the root, or from an instance that stands at a path of the
footprint, before and after. -/
theorem added_covered (h : s.forest.WellFormed) (hfootprint : c.footprint s = .ok paths)
    (hm : c.message s = .ok m) {origin : Origin} (hchanged : s.Changed m origin s')
    (hnew : id ∉ s.forest.ids) {row : Placed} (hrow : s'.forest.placed? id = some row) :
    row.parent = none ∨ ∃ y, row.parent = some y ∧ ∃ q ∈ paths,
      pathOf? y s.forest = some q ∧ pathOf? y s'.forest = some q := by
  obtain ⟨q, new, rfl, hq, hparent⟩ := hchanged.exists_create hnew hrow
  have hbefore := h.parentPath?_eq_some_iff.mpr ⟨rfl, hq⟩
  have hafter := hchanged.parentPath?_eq h hq fun r _ hdisplaces => hdisplaces
  rw [← hparent] at hbefore hafter
  cases hy : row.parent with
  | none => exact .inl rfl
  | some y =>
    rw [hy] at hbefore hafter
    have hroot := ne_nil_of_pathOf? hbefore
    exact .inr ⟨y, rfl, q, parent_mem_footprint hfootprint hm hroot, hbefore, hafter⟩

/-- The footprint of a command that is carried out covers what it changes. An instance that was
there and is removed, or has another name, parent, class, property or path afterwards, stood at a
path of the footprint or below one; and an instance that was not there is a child of the root or of
an instance at a path of the footprint. -/
theorem footprint_covers_change (h : s.Reachable) (hfootprint : c.footprint s = .ok paths)
    (hexecute : c.execute s = .ok (output, s')) :
    (∀ id p, pathOf? id s.forest = some p →
      (s'.forest.placed? id ≠ s.forest.placed? id ∨
        pathOf? id s'.forest ≠ pathOf? id s.forest) →
      ∃ q ∈ paths, p = q ∨ p.isBelow q = true) ∧
    (∀ id row, id ∉ s.forest.ids → s'.forest.placed? id = some row →
      row.parent = none ∨ ∃ y, row.parent = some y ∧ ∃ q ∈ paths,
        pathOf? y s.forest = some q ∧ pathOf? y s'.forest = some q) := by
  have hwf := h.wellFormed
  obtain ⟨m, change, hm, ha, _⟩ := execute_eq_ok hexecute
  rcases apply_cases hwf ha with rfl | hchanged
  · refine ⟨fun id p _ hdiffers => ?_, fun id row hnew hrow => ?_⟩
    · exact (hdiffers.elim (fun hrow => hrow rfl) fun hpath => hpath rfl).elim
    · exact absurd (isSome_placed?_iff.mp (hrow ▸ rfl)) hnew
  · refine ⟨fun id p hp hdiffers => ?_, fun id row hnew hrow =>
      added_covered hwf hfootprint hm hchanged hnew hrow⟩
    by_contra hoff
    obtain ⟨hrow, hpath⟩ := uncovered_kept hwf hfootprint hm hchanged hp fun q hq hbelow => by
      obtain ⟨t, rfl⟩ := hbelow
      exact hoff ⟨q, hq, Path.eq_or_isBelow_iff.mpr ⟨t, rfl⟩⟩
    exact hdiffers.elim (fun hne => hne hrow) fun hne => hne (hpath.trans hp.symm)

/-- The box of the shelf goes to the room, named by its id: the lid in it goes along, and the path
of the shelf is leased. A second box comes to the room, whose path is leased too. -/
theorem footprint_covers_change_furnished :
    furnished.Reachable ∧
    (∃ output s', (reparent ⟨some ⟨"b"⟩, none⟩ ["Room"]).execute furnished = .ok (output, s') ∧
      pathOf? ⟨"c"⟩ furnished.forest = some ["Shelf", "Box", "Lid"] ∧
      pathOf? ⟨"c"⟩ s'.forest = some ["Room", "Box_2", "Lid"] ∧
      ∃ q ∈ [["Room"], ["Shelf"], ["Shelf", "Box"]],
        ["Shelf", "Box", "Lid"] = q ∨ Path.isBelow ["Shelf", "Box", "Lid"] q = true) ∧
    ∃ output s' row, (create ["Room"] "Part" "Box" .empty).execute furnished =
        .ok (output, s') ∧ s'.forest.placed? output.change.id = some row ∧
      (row.parent = none ∨ ∃ y, row.parent = some y ∧ ∃ q ∈ [["Room"], ["Room", "Box"]],
        pathOf? y furnished.forest = some q ∧ pathOf? y s'.forest = some q) := by
  have hreachable : furnished.Reachable := .replaceAll _ (.empty _)
  obtain ⟨output, s', hmove, hlid⟩ : ∃ output s',
      (reparent ⟨some ⟨"b"⟩, none⟩ ["Room"]).execute furnished = .ok (output, s') ∧
        pathOf? ⟨"c"⟩ s'.forest = some ["Room", "Box_2", "Lid"] :=
    ⟨_, _, rfl, by decide +kernel⟩
  obtain ⟨made, s'', row, hmade, hrow, hnew⟩ : ∃ made s'' row,
      (create ["Room"] "Part" "Box" .empty).execute furnished = .ok (made, s'') ∧
        s''.forest.placed? made.change.id = some row ∧ made.change.id ∉ furnished.forest.ids :=
    ⟨_, _, _, rfl, rfl, by decide +kernel⟩
  have hbefore : pathOf? ⟨"c"⟩ furnished.forest = some ["Shelf", "Box", "Lid"] := by decide +kernel
  have hmoved : pathOf? ⟨"c"⟩ s'.forest ≠ pathOf? ⟨"c"⟩ furnished.forest := by
    rw [hlid, hbefore]
    decide
  obtain ⟨hcovered, _⟩ := footprint_covers_change hreachable rfl hmove
  obtain ⟨_, hadded⟩ := footprint_covers_change hreachable rfl hmade
  exact ⟨hreachable, ⟨output, s', hmove, hbefore, hlid, hcovered ⟨"c"⟩ _ hbefore (.inr hmoved)⟩,
    made, s'', row, hmade, hrow, hadded _ row hnew hrow⟩

end Command

end SharedScene
