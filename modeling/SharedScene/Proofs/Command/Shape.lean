import SharedScene.Proofs.Command.Frame
import SharedScene.Proofs.Scene.Reachable

/-!
# What the check of a command alone foretells

A command is checked on its own before it asks for a lease, by the rules that the store has too: the
names, the keys and the values. Where such a check fails, the store refuses the message of the
command for the same reason, as soon as its target, or the parent of a create, is there
(`Command.store_refuses_bad_shape`).

The class of a create is the one thing that the check looks at and the store does not. A create
whose class is blank is refused by the check, and taken by the store when nothing else is wrong
(`Command.blank_class_is_stored`).
-/

namespace SharedScene

open Forest Success

namespace Store

variable {s : Store} {path q : Path} {siblings : Forest} {key : String} {value : Value}
  {origin : Origin} {new : NewInstance} {e : SceneError}

/-- What the store checks of a new instance, whatever there is already. -/
def checkNew (new : NewInstance) : Except SceneError Unit := do
  checkName new.name
  new.properties.entries.forM fun e => checkProperty e.1 e.2

/-- A create below a parent that is there is refused for what is wrong with the new instance. -/
theorem create_eq_error (hq : s.forest.childrenAt? q = some siblings)
    (he : checkNew new = .error e) : s.create q new origin = .error e := by
  unfold create
  rw [hq]
  rcases bind_eq_error.mp he with hname | ⟨_, hname, hproperties⟩
  · exact bind_eq_error.mpr (.inl hname)
  · exact bind_eq_error.mpr (.inr ⟨_, hname, bind_eq_error.mpr (.inl hproperties)⟩)

/-- Otherwise it is applied, unless its id is in use. -/
theorem exists_create_eq_ok (hq : s.forest.childrenAt? q = some siblings)
    (hnew : checkNew new = .ok ⟨⟩) (hid : s.isLive (new.id.getD s.ids.next) = false) :
    ∃ change s', s.create q new origin = .ok (.applied change, s') := by
  obtain ⟨_, hname, hproperties⟩ := bind_eq_ok.mp hnew
  unfold create
  rw [hq]
  exact ⟨_, _, bind_ok hname (bind_ok hproperties (if_neg (Bool.eq_false_iff.mp hid)))⟩

/-- An update of an instance that is there is refused for what is wrong with the update alone. -/
theorem update_eq_error {node : Item × Forest} (hfind : s.forest.find? path = some node)
    {target : Target} (he : (Command.update target key value).checkShape = .error e) :
    s.update path key value origin = .error e := by
  refine bind_eq_error.mpr (.inr ⟨node, lookup_eq_ok.mpr hfind, ?_⟩)
  unfold Command.checkShape at he
  dsimp only at he ⊢
  by_cases hkey : key = nameKey
  · rw [if_pos hkey] at he ⊢
    cases htext : value.text? with
    | none =>
      rw [htext] at he
      cases he
      rfl
    | some desired =>
      rw [htext] at he
      show s.rename path node.1 desired origin = .error e
      exact bind_eq_error.mpr (.inl he)
  · rw [if_neg hkey] at he ⊢
    by_cases hreserved : isReservedKey key = true
    · rw [checkProperty, if_pos hreserved] at he
      cases he
      exact if_pos hreserved
    · rw [checkProperty, if_neg hreserved] at he
      rw [if_neg hreserved]
      exact bind_eq_error.mpr (.inl he)

end Store

/-- What a target leads to is an instance of the scene. -/
theorem Target.exists_find?_of_resolve {t : Target} {f : Forest} {path : Path}
    (names : f.NamesDistinct) (h : t.resolve f = .ok path) :
    ∃ node, f.find? path = some node := by
  unfold resolve at h
  split at h
  · split at h
    · next hpath =>
      cases h
      obtain ⟨item, children, hfind, _⟩ := exists_find?_of_pathOf? names hpath
      exact ⟨(item, children), hfind⟩
    · cases h
  · split at h
    · cases h
    · split at h
      · next hfind =>
        cases h
        exact Option.isSome_iff_exists.mp hfind
      · cases h
  · cases h

namespace Command

/-- The parent of a create is there, and so is the target of every other command. -/
def Resolves (s : Store) : Command → Prop
  | .create parentPath _ _ _ => s.pathExists parentPath = true
  | .update target _ _ => ∃ path, target.resolve s.forest = .ok path
  | .rename target _ => ∃ path, target.resolve s.forest = .ok path
  | .delete target => ∃ path, target.resolve s.forest = .ok path
  | .reparent target _ => ∃ path, target.resolve s.forest = .ok path

/-- A create whose class is blank. -/
def hasBlankClass : Command → Bool
  | .create _ className _ _ => Text.isBlankText className
  | _ => false

/-- The command with another class, when it gives one. -/
def withClass (className : String) : Command → Command
  | .create parentPath _ name properties => .create parentPath className name properties
  | c => c

variable {s : Store} {c : Command} {e : SceneError}

/-- Of a create with a class the instance is checked, without its class. -/
theorem checkShape_create {parentPath : Path} {className name : String} {properties : Properties}
    (hclass : Text.isBlankText className = false) (given : String) :
    (create parentPath className name properties).checkShape =
      Store.checkNew ⟨none, given, name, properties⟩ :=
  if_neg (Bool.eq_false_iff.mp hclass)

/-- A blank class is found first. -/
theorem checkShape_of_hasBlankClass (hclass : c.hasBlankClass = true) :
    c.checkShape = .error (.invalidValue classNameKey .emptyClassName) := by
  cases c with
  | create parentPath className name properties => exact if_pos hclass
  | update | rename | delete | reparent => cases hclass

/-- What the check of a command alone foretells, once the command finds what it is about. The store
refuses the message that carries the command out for the reason that the check found. Only a class
is not looked at again: a create whose class is blank meets what it would meet with any other class,
and is applied when nothing else is wrong with it. -/
theorem store_refuses_bad_shape (h : s.Reachable) (hc : c.Resolves s)
    (he : c.checkShape = .error e) :
    ∃ message, c.message s = .ok message ∧
      (c.hasBlankClass = false → ∀ origin, s.apply message origin = .error e) ∧
      (c.hasBlankClass = true → e = .invalidValue classNameKey .emptyClassName ∧
        ∀ className origin, Text.isBlankText className = false →
          (∀ e', (c.withClass className).checkShape = .error e' →
            s.apply message origin = .error e') ∧
          ((c.withClass className).checkShape = .ok ⟨⟩ → s.isLive s.ids.next = false →
            ∃ change s', s.apply message origin = .ok (.applied change, s'))) := by
  have names := h.wellFormed.namesDistinct
  cases c with
  | create parentPath className name properties =>
    have hexists : s.pathExists parentPath = true := hc
    obtain ⟨siblings, hq⟩ := Option.isSome_iff_exists.mp hexists
    refine ⟨_, if_pos hexists, fun hclass origin => ?_, fun hclass => ⟨?_, ?_⟩⟩
    · rw [checkShape_create hclass className] at he
      exact Store.create_eq_error hq he
    · exact Except.error.inj (he.symm.trans (checkShape_of_hasBlankClass hclass))
    · intro given origin hgiven
      rw [withClass, checkShape_create hgiven className]
      exact ⟨fun e' he' => Store.create_eq_error hq he', Store.exists_create_eq_ok hq⟩
  | update target property value =>
    obtain ⟨path, hpath⟩ := hc
    obtain ⟨node, hfind⟩ := Target.exists_find?_of_resolve names hpath
    refine ⟨_, bind_ok (resolveTarget_eq_ok.mpr hpath) rfl, fun _ origin => ?_, nofun⟩
    exact Store.update_eq_error hfind he
  | rename target name =>
    obtain ⟨path, hpath⟩ := hc
    obtain ⟨node, hfind⟩ := Target.exists_find?_of_resolve names hpath
    refine ⟨_, bind_ok (resolveTarget_eq_ok.mpr hpath) rfl, fun _ origin => ?_, nofun⟩
    -- Giving a name is an update of it.
    have hupdate : (update target nameKey (.string name)).checkShape = .error e := he
    exact Store.update_eq_error hfind hupdate
  | delete => cases he
  | reparent => cases he

/-- A blank name is refused by the store too, and a blank class is not. -/
theorem store_refuses_bad_shape_tangled :
    (∃ message, (rename ⟨some ⟨"c"⟩, none⟩ " ").message Store.tangled = .ok message ∧
      ∀ origin, Store.tangled.apply message origin = .error (.invalidName .empty)) ∧
    (∃ message, (create [] "" "Lid" .empty).message Store.tangled = .ok message ∧
      ∀ origin, ∃ change s',
        Store.tangled.apply message origin = .ok (.applied change, s')) := by
  have h : Store.tangled.Reachable := .replaceAll _ (.empty _)
  constructor
  · have hfound : (rename ⟨some ⟨"c"⟩, none⟩ " ").Resolves Store.tangled :=
      ⟨["Shelf_2", "Box"], by decide +kernel⟩
    have hbad : (rename ⟨some ⟨"c"⟩, none⟩ " ").checkShape = .error (.invalidName .empty) := by
      decide +kernel
    obtain ⟨message, hmessage, hrefused, _⟩ := store_refuses_bad_shape h hfound hbad
    exact ⟨message, hmessage, hrefused rfl⟩
  · have hfound : (create [] "" "Lid" .empty).Resolves Store.tangled := rfl
    have hclass : (create [] "" "Lid" .empty).hasBlankClass = true := rfl
    obtain ⟨message, hmessage, _, hblank⟩ :=
      store_refuses_bad_shape h hfound (checkShape_of_hasBlankClass hclass)
    refine ⟨message, hmessage, fun origin => ?_⟩
    have hnamed : (create [] "Part" "Lid" .empty).checkShape = .ok ⟨⟩ := by decide +kernel
    have hfresh : Store.tangled.isLive Store.tangled.ids.next = false := by decide +kernel
    exact ((hblank hclass).2 "Part" origin (by decide +kernel)).2 hnamed hfresh

/-- In the empty scene the check refuses a create without a class, and the store takes it: an
instance without a class stands there afterwards. -/
theorem blank_class_is_stored :
    (create [] "" "Box" .empty).Resolves (.empty (.stemmed "id")) ∧
    (create [] "" "Box" .empty).checkShape =
      .error (.invalidValue classNameKey .emptyClassName) ∧
    (create [] "" "Box" .empty).message (.empty (.stemmed "id")) =
      .ok (.create [] ⟨none, "", "Box", .empty⟩) ∧
    ∃ change s', (Store.empty (.stemmed "id")).apply (.create [] ⟨none, "", "Box", .empty⟩) .agent =
      .ok (.applied change, s') ∧ s'.forest.preorder.map (·.className) = [""] := by
  refine ⟨rfl, by decide +kernel, rfl, _, _, rfl, ?_⟩
  decide +kernel

end Command

end SharedScene
