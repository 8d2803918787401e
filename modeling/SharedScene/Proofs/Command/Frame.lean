import SharedScene.Proofs.Command.Turn
import SharedScene.Proofs.Scene.Frame

/-!
# What a lease keeps from a command

A command leases the path of its target, so while somebody else has a live lease its target is
neither at the leased path nor below it (`Turn.message_of_holds`). What else a command can do to an
instance there it does through an instance above: a delete takes along all that is below
(`Turn.DeletesAbove`), a rename or a move gives it another path (`Turn.Uproots`). Nothing in a lease
stands in the way of these; whoever wants to be safe from them leases higher up.
-/

namespace SharedScene

open Forest Store Success

/-- The path of the instance that a message is about; a create is about none. -/
def Message.target? : Message → Option Path
  | .create _ _ => none
  | .update path _ _ => some path
  | .delete path => some path
  | .reparent path _ _ => some path

/-- A target leads to an instance above a path. -/
def Target.IsAbove (t : Target) (f : Forest) (p : Path) : Prop :=
  ∃ q, t.resolve f = .ok q ∧ q <+: p ∧ q ≠ p

/-- A command deletes, renames or moves its target. -/
def Command.Displaces : Command → Prop
  | .create _ _ _ _ => False
  | .update _ property _ => property = nameKey
  | .rename _ _ => True
  | .delete _ => True
  | .reparent _ _ => True

namespace Turn

/-- The command deletes an instance above a path. -/
def DeletesAbove (turn : Turn) (p : Path) : Prop :=
  ∃ target, Command.ofJson turn.raw = .ok (.delete target) ∧
    target.IsAbove turn.scene.store.forest p

/-- The command deletes, renames or moves an instance above a path. -/
def Uproots (turn : Turn) (p : Path) : Prop :=
  ∃ command target, Command.ofJson turn.raw = .ok command ∧ command.Displaces ∧
    command.target? = some target ∧ target.IsAbove turn.scene.store.forest p

theorem DeletesAbove.uproots {turn : Turn} {p : Path} (h : turn.DeletesAbove p) :
    turn.Uproots p := by
  obtain ⟨target, hread, habove⟩ := h
  exact ⟨.delete target, target, hread, trivial, rfl, habove⟩

end Turn

/-! ## Commands and their messages -/

namespace Message

variable {m : Message} {q : Path}

/-- What a message touches is its target, or below it. -/
theorem exists_target_of_touches (h : m.Touches q) : ∃ p, m.target? = some p ∧ p <+: q := by
  cases m with
  | create => cases h
  | update path _ _ => exact ⟨path, rfl, (show path = q from h) ▸ List.prefix_refl _⟩
  | delete path => exact ⟨path, rfl, h⟩
  | reparent path _ _ => exact ⟨path, rfl, (show path = q from h) ▸ List.prefix_refl _⟩

theorem touches_of_displaces (h : m.Displaces q) : m.Touches q := by
  cases m with
  | create => cases h
  | update => exact h.1
  | delete => exact h
  | reparent => exact h

end Message

namespace Command

variable {c : Command} {s : Store} {t : Target} {m : Message} {path : Path} {paths : List Path}

theorem resolveTarget_eq_ok : c.resolveTarget t s = .ok path ↔ t.resolve s.forest = .ok path := by
  unfold resolveTarget
  split <;> simp_all

/-- What the message that carries a command out is about is the command's target; it displaces what
the command does, and deletes only for a delete. -/
theorem exists_target_of_message (h : c.message s = .ok m) (hp : m.target? = some path) :
    ∃ t, c.target? = some t ∧ t.resolve s.forest = .ok path ∧
      (∀ q, m.Displaces q → c.Displaces) ∧ (∀ q, m = .delete q → c = .delete t) := by
  cases c with
  | create =>
    rw [message] at h
    split at h
    · cases h
      cases hp
    · cases h
  | update t property value =>
    obtain ⟨path, hpath, h⟩ := bind_eq_ok.mp h
    obtain rfl := pure_eq_ok.mp h
    obtain rfl := Option.some.inj hp
    exact ⟨t, rfl, resolveTarget_eq_ok.mp hpath, fun _ hq => hq.2, fun _ hq => by cases hq⟩
  | rename t name =>
    obtain ⟨path, hpath, h⟩ := bind_eq_ok.mp h
    obtain rfl := pure_eq_ok.mp h
    obtain rfl := Option.some.inj hp
    exact ⟨t, rfl, resolveTarget_eq_ok.mp hpath, fun _ _ => trivial, fun _ hq => by cases hq⟩
  | delete t =>
    obtain ⟨path, hpath, h⟩ := bind_eq_ok.mp h
    obtain rfl := pure_eq_ok.mp h
    obtain rfl := Option.some.inj hp
    exact ⟨t, rfl, resolveTarget_eq_ok.mp hpath, fun _ _ => trivial, fun _ _ => rfl⟩
  | reparent t q =>
    obtain ⟨path, hpath, h⟩ := bind_eq_ok.mp h
    obtain rfl := pure_eq_ok.mp h
    obtain rfl := Option.some.inj hp
    exact ⟨t, rfl, resolveTarget_eq_ok.mp hpath, fun _ _ => trivial, fun _ hq => by cases hq⟩

/-- A command has to lease the path of its target. -/
theorem mem_footprint (h : c.footprint s = .ok paths) (ht : c.target? = some t)
    (hpath : t.resolve s.forest = .ok path) (hroot : path ≠ []) : path ∈ paths := by
  have hmem : ∀ {all : List Path}, path ∈ all →
      path ∈ SortedMap.sortedElements (all.filter fun p => !p.isEmpty) := by
    intro all hall
    rw [SortedMap.mem_sortedElements, List.mem_filter]
    exact ⟨hall, by rwa [Bool.not_eq_true', List.isEmpty_eq_false_iff]⟩
  cases c
  case create => cases ht
  all_goals
    obtain rfl := Option.some.inj ht
    simp only [footprint, bind_eq_ok, pure_eq_ok, resolveTarget_eq_ok, hpath] at h
    obtain ⟨_, ⟨⟩, _, rfl, rfl⟩ := h
    exact hmem List.mem_cons_self

end Command

/-- A command that is prepared was read, and has its footprint. -/
theorem LeasedScene.prepare_eq_ok {s : LeasedScene} {raw : Json} {command : Command}
    {paths : List Path} (h : s.prepare raw = .ok (command, paths)) :
    Command.ofJson raw = .ok command ∧ command.footprint s.store = .ok paths := by
  unfold prepare at h
  dsimp only at h
  cases hread : Command.ofJson raw with
  | error e =>
    rw [hread] at h
    cases h
  | ok read =>
    rw [hread] at h
    simp only [bind_eq_ok, pure_eq_ok] at h
    obtain ⟨_, _, footprint, hfootprint, h⟩ := h
    cases h
    exact ⟨rfl, hfootprint⟩

/-- Of two paths above a third one, the one that is not below the other is above it. -/
theorem Path.above_of_not_prefix {p q r : Path} (hp : p <+: r) (hq : q <+: r) (h : ¬ q <+: p) :
    p <+: q ∧ p ≠ q :=
  ⟨(List.prefix_or_prefix_of_prefix hp hq).resolve_right h, fun heq => h (heq ▸ List.prefix_refl p)⟩

/-! ## Under a lease -/

namespace Turn

variable {turn : Turn} {now : Instant} {lease : Lease} {id : InstanceId} {q : Path}

/-- A command that runs while somebody else has a live lease leaves the store as it is, or its
message is applied and is about nothing at the leased path or below it. -/
theorem message_of_holds (h : turn.scene.Holds lease) (hlive : now < lease.expiresAt)
    (hother : lease.owner ≠ turn.owner) (hroot : lease.path ≠ [])
    (hwf : turn.scene.store.forest.WellFormed) :
    (turn.left now).store = turn.scene.store ∨ ∃ command m, Command.ofJson turn.raw = .ok command ∧
      command.message turn.scene.store = .ok m ∧
      turn.scene.store.Changed m .agent (turn.left now).store ∧
      ∀ p, m.target? = some p → ¬ lease.path <+: p := by
  rcases LeasedScene.run_cases turn.scene turn.raw turn.owner now with
    ⟨c, _, hstore⟩ | ⟨command, paths, output, hprepare, hfree, hexecute⟩
  · exact .inl hstore
  obtain ⟨hread, hfootprint⟩ := LeasedScene.prepare_eq_ok hprepare
  obtain ⟨m, _, hm, ha, _⟩ := Command.execute_eq_ok hexecute
  refine (apply_cases hwf ha).imp_right fun hchanged =>
    ⟨command, m, hread, hm, hchanged, fun p hp hbelow => ?_⟩
  -- the target is leased first, and there the lease would have stood in the way
  obtain ⟨t, ht, hpath, _⟩ := Command.exists_target_of_message hm hp
  have hpne : p ≠ [] := fun hnil => hroot (List.prefix_nil.mp (hnil ▸ hbelow))
  have hwanted := Command.mem_footprint hfootprint ht hpath hpne
  have hnone := LeaseTable.conflict?_eq_none_iff.mp hfree p hwanted lease.path hroot hbelow
  rw [LeaseTable.standing?_eq_some_iff.mpr ⟨h, decide_eq_true hlive, hother⟩] at hnone
  cases hnone

/-- A command leaves the rows of the instances at the path of somebody else's live lease and below
it, unless it deletes an instance above. -/
theorem placed?_left (h : turn.scene.Holds lease) (hlive : now < lease.expiresAt)
    (hother : lease.owner ≠ turn.owner) (hroot : lease.path ≠ [])
    (hwf : turn.scene.store.forest.WellFormed) (habove : ¬ turn.DeletesAbove lease.path)
    (hq : pathOf? id turn.scene.store.forest = some q) (hbelow : lease.path <+: q) :
    (turn.left now).store.forest.placed? id = turn.scene.store.forest.placed? id := by
  rcases message_of_holds h hlive hother hroot hwf with
    hsame | ⟨command, m, hread, hm, hchanged, htarget⟩
  · rw [hsame]
  · refine hchanged.placed?_eq hwf hq fun htouches => habove ?_
    obtain ⟨p, hp, hpq⟩ := Message.exists_target_of_touches htouches
    obtain ⟨t, _, hpath, _, hdelete⟩ := Command.exists_target_of_message hm hp
    obtain ⟨hup, hne⟩ := Path.above_of_not_prefix hpq hbelow (htarget p hp)
    -- an update, a rename or a move touches its target alone, which is not below the lease
    cases m with
    | create => cases hp
    | update | reparent =>
      obtain rfl := Option.some.inj hp
      exact absurd ((show _ = q from htouches) ▸ hbelow) (htarget _ rfl)
    | delete path => exact ⟨t, hread.trans (congrArg _ (hdelete path rfl)), p, hpath, hup, hne⟩

/-- It also leaves these instances at their paths, unless it renames, moves or deletes one above. -/
theorem pathOf?_left (h : turn.scene.Holds lease) (hlive : now < lease.expiresAt)
    (hother : lease.owner ≠ turn.owner) (hroot : lease.path ≠ [])
    (hwf : turn.scene.store.forest.WellFormed) (habove : ¬ turn.Uproots lease.path)
    (hq : pathOf? id turn.scene.store.forest = some q) (hbelow : lease.path <+: q) :
    pathOf? id (turn.left now).store.forest = some q := by
  rcases message_of_holds h hlive hother hroot hwf with
    hsame | ⟨command, m, hread, hm, hchanged, htarget⟩
  · rw [hsame]
    exact hq
  · refine hchanged.pathOf?_eq hwf hq fun r hrq hdisplaces => habove ?_
    obtain ⟨p, hp, hpr⟩ :=
      Message.exists_target_of_touches (Message.touches_of_displaces hdisplaces)
    obtain ⟨t, ht, hpath, hmoves, _⟩ := Command.exists_target_of_message hm hp
    have hup := Path.above_of_not_prefix (hpr.trans hrq) hbelow (htarget p hp)
    exact ⟨command, t, hread, hmoves r hdisplaces, ht, p, hpath, hup⟩

end Turn

end SharedScene
