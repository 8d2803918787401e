import SharedScene.Scene.Store

/-!
# What nobody has taken yet

A store adds its events to those that nobody has taken yet, and never looks at them. So what a
message does is the same whether the events of before were taken or not, and the events of two
stores that differ in nothing else go on alike (`apply_preceded`).
-/

namespace SharedScene.Store

variable {s : Store} {events : List Event} {origin : Origin}

/-- The store with events before its own that nobody has taken yet. -/
def preceded (events : List Event) (s : Store) : Store := { s with outbox := events ++ s.outbox }

theorem preceded_preceded (more events : List Event) (s : Store) :
    (s.preceded events).preceded more = s.preceded (more ++ events) := by
  unfold preceded
  rw [List.append_assoc]

/-- A store is what is left when its events are taken, and these events. -/
theorem takeEvents_preceded (s : Store) : s.takeEvents.preceded s.outbox = s := by
  unfold preceded takeEvents
  rw [List.append_nil]

theorem commit_preceded (forest : Forest) (event : Event) (message : Message) :
    (s.preceded events).commit origin forest event message =
      (s.commit origin forest event message).preceded events := by
  unfold commit preceded
  rw [List.append_assoc]

/-- A result with events before those of its store. -/
def withPreceded (events : List Event) :
    Except SceneError (Outcome × Store) → Except SceneError (Outcome × Store) :=
  Except.map (Prod.map id (preceded events))

/-- What a computation does first does not look at the events. -/
theorem withPreceded_bind {α : Type} {x : Except SceneError α}
    {f g : α → Except SceneError (Outcome × Store)} (h : ∀ a, f a = withPreceded events (g a)) :
    (x >>= f) = withPreceded events (x >>= g) := by
  cases x with
  | error e => rfl
  | ok a => exact h a

theorem withPreceded_ite {c : Prop} [Decidable c] {x x' y y' : Except SceneError (Outcome × Store)}
    (hx : x = withPreceded events x') (hy : y = withPreceded events y') :
    (if c then x else y) = withPreceded events (if c then x' else y') := by
  split
  · exact hx
  · exact hy

theorem create_preceded (parentPath : Path) (new : NewInstance) :
    (s.preceded events).create parentPath new origin =
      withPreceded events (s.create parentPath new origin) := by
  unfold create
  have hforest : (s.preceded events).forest = s.forest := rfl
  rw [hforest]
  cases s.forest.childrenAt? parentPath with
  | none => rfl
  | some siblings =>
    refine withPreceded_bind fun _ => withPreceded_bind fun _ => withPreceded_ite rfl ?_
    dsimp only
    cases new.id with
    | none =>
      -- the id is fresh, and the supply goes on alike
      exact congrArg Except.ok
        (Prod.ext rfl (commit_preceded (s := { s with ids := s.ids.advance }) ..))
    | some id => exact congrArg Except.ok (Prod.ext rfl (commit_preceded ..))

theorem rename_preceded (path : Path) (item : Item) (desired : String) :
    (s.preceded events).rename path item desired origin =
      withPreceded events (s.rename path item desired origin) := by
  unfold rename
  refine withPreceded_bind fun _ => ?_
  dsimp only
  rw [commit_preceded]
  rfl

theorem update_preceded (path : Path) (key : String) (value : Value) :
    (s.preceded events).update path key value origin =
      withPreceded events (s.update path key value origin) := by
  unfold update
  refine withPreceded_bind fun found => withPreceded_ite ?_ (withPreceded_ite rfl ?_)
  · cases value.text? with
    | none => rfl
    | some desired => exact rename_preceded path found.1 desired
  · refine withPreceded_bind fun _ => ?_
    dsimp only
    rw [commit_preceded]
    cases found.1.properties.get? key with
    | none => rfl
    | some old => exact withPreceded_ite rfl rfl

theorem delete_preceded (path : Path) :
    (s.preceded events).delete path origin = withPreceded events (s.delete path origin) := by
  unfold delete
  refine withPreceded_bind fun found => ?_
  dsimp only
  rw [commit_preceded]
  rfl

theorem reparent_preceded (path newParentPath : Path) (name : Option String) :
    (s.preceded events).reparent path newParentPath name origin =
      withPreceded events (s.reparent path newParentPath name origin) := by
  unfold reparent
  refine withPreceded_bind fun found => withPreceded_ite rfl (withPreceded_ite rfl ?_)
  refine withPreceded_bind fun _ => ?_
  dsimp only
  rw [commit_preceded]
  rfl

/-- What a message does does not depend on the events that nobody has taken yet. -/
theorem apply_preceded (s : Store) (events : List Event) (message : Message) (origin : Origin) :
    (s.preceded events).apply message origin =
      (s.apply message origin).map (Prod.map id (preceded events)) := by
  cases message with
  | create parentPath new => exact create_preceded parentPath new
  | update path key value => exact update_preceded path key value
  | delete path => exact delete_preceded path
  | reparent path newParentPath name => exact reparent_preceded path newParentPath name

end SharedScene.Store
