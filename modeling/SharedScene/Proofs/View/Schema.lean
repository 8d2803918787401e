import SharedScene.Proofs.Scene.Reachable
import SharedScene.Proofs.Scene.Records
import SharedScene.Proofs.Scene.Children
import SharedScene.View.Schema

/-!
# What the schema promises

The schema compares the values of a property in the order in which the view lists them, each with
its neighbour. Having the same shape is an equivalence, so it finds two shapes exactly when any two
instances of the class differ (`Schema.shapesAgree_iff`).

An update compares its value with the one value that stands where it goes. So the two agree
(`Store.schema_agrees_with_updates`): where the schema says that a property can be written, every
value that may be written at all and has the shape that was observed is taken by every instance that
holds the property, and where it says that it is unsupported none is. Keys that address the record
are never held, so they do not get in the way: what the schema says of a key that is held comes from
the values alone.
-/

namespace SharedScene

/-! ## Shapes -/

namespace Value

theorem sameShape_iff {a b : Value} : a.sameShape b = true ↔ a.shape = b.shape :=
  decide_eq_true_iff

/-- Values of one shape have one kind. -/
theorem kind_eq_of_shape_eq {a b : Value} (h : a.shape = b.shape) : a.kind = b.kind := by
  cases a <;> cases b <;> cases h <;> rfl

/-- A value is never of the kind that stands for several shapes. -/
theorem kind_ne_mixed (v : Value) : v.kind ≠ .mixed := by
  cases v <;> exact Kind.noConfusion

/-- What is unsupported is never written. -/
theorem kind_ne_unsupported_of_checkWritable {v : Value} (h : v.checkWritable = .ok ⟨⟩) :
    v.kind ≠ .unsupported := by
  cases v with
  | unsupported typeName => cases h
  | bool | number | string | enum | struct => exact Kind.noConfusion

end Value

namespace Schema

variable {values : List Value} {v : Value}

/-- Neighbours agree exactly when all do. -/
theorem shapesAgree_iff : shapesAgree values = true ↔
    ∀ a ∈ values, ∀ b ∈ values, a.sameShape b = true := by
  simp only [Value.sameShape_iff]
  induction values with
  | nil => exact ⟨fun _ a ha => absurd ha List.not_mem_nil, fun _ => rfl⟩
  | cons first rest ih =>
    cases rest with
    | nil =>
      refine ⟨fun _ a ha b hb => ?_, fun _ => rfl⟩
      rw [List.mem_singleton.mp ha, List.mem_singleton.mp hb]
    | cons second rest =>
      rw [shapesAgree, Bool.and_eq_true, ih, Value.sameShape_iff]
      constructor
      · rintro ⟨hfirst, hrest⟩
        -- The first value has the shape of the second one, and so that of all others.
        have hall : ∀ a ∈ first :: second :: rest, a.shape = second.shape := by
          intro a ha
          rcases List.mem_cons.mp ha with rfl | ha
          · exact hfirst
          · exact hrest a ha second List.mem_cons_self
        exact fun a ha b hb => (hall a ha).trans (hall b hb).symm
      · intro h
        refine ⟨h first List.mem_cons_self second (List.mem_cons_of_mem _ List.mem_cons_self), ?_⟩
        exact fun a ha b hb => h a (List.mem_cons_of_mem _ ha) b (List.mem_cons_of_mem _ hb)

/-- What is said of a property: the kind that all its values have, or that they differ. -/
theorem ofValues_cases (hv : v ∈ values) :
    ((∀ a ∈ values, ∀ b ∈ values, a.sameShape b = true) ∧
      (ofValues values).kind = v.kind ∧ (ofValues values).writable = isWritable v.kind) ∨
    ((∃ a ∈ values, ∃ b ∈ values, a.sameShape b = false) ∧
      (ofValues values).kind = .mixed ∧ (ofValues values).writable = false) := by
  cases values with
  | nil => cases hv
  | cons first rest =>
    by_cases hagree : shapesAgree (first :: rest) = true
    · have hall := shapesAgree_iff.mp hagree
      have hkind : first.kind = v.kind := Value.kind_eq_of_shape_eq
        (Value.sameShape_iff.mp (hall first List.mem_cons_self v hv))
      refine .inl ⟨hall, ?_⟩
      simp only [ofValues, if_pos hagree, hkind, and_self]
    · refine .inr ⟨?_, ?_⟩
      · simpa only [shapesAgree_iff, not_forall, Bool.not_eq_true, exists_prop] using hagree
      · simp only [ofValues, if_neg hagree, and_self]

end Schema

/-! ## Finding a property in the view -/

/-- Under a key that addresses no record stands what the values of the instances have in common. -/
theorem Schema.get?_ofInstances {key : String} {instances : List Instance} {i : Instance}
    (hkey : isReservedKey key = false) (hi : i ∈ instances) (hheld : key ∈ i.properties.keys)
    (className : String) : (ofInstances className instances).properties.get? key =
      some (ofValues (instances.filterMap fun i => i.properties.get? key)) := by
  have hlisted : key ∈ SortedMap.sortedElements (instances.flatMap fun i => i.properties.keys) :=
    SortedMap.mem_sortedElements.mpr (List.mem_flatMap.mpr ⟨i, hi, hheld⟩)
  -- The texts of the record stand under other keys.
  have hmade : ∀ known, (key, known) ∈ [(nameKey, ofRecord true Name.maxLength),
      (classNameKey, ofRecord false className.length)] ++
        (SortedMap.sortedElements (instances.flatMap fun i => i.properties.keys)).map (fun key =>
          (key, ofValues (instances.filterMap fun i => i.properties.get? key))) ↔
      known = ofValues (instances.filterMap fun i => i.properties.get? key) := by
    intro known
    constructor
    · intro hmem
      rcases List.mem_append.mp hmem with hmem | hmem
      · rcases List.mem_cons.mp hmem with heq | hmem
        · exact absurd (congrArg Prod.fst heq) (ne_of_unreserved hkey rfl)
        · have heq := List.mem_singleton.mp hmem
          exact absurd (congrArg Prod.fst heq) (ne_of_unreserved hkey rfl)
      · obtain ⟨_, _, heq⟩ := List.mem_map.mp hmem
        cases heq
        rfl
    · rintro rfl
      exact List.mem_append_right _ (List.mem_map.mpr ⟨key, hlisted, rfl⟩)
  refine (SortedMap.get?_ofList_eq_some_iff fun a b ha hb => ?_).mpr ((hmade _).mpr rfl)
  exact ((hmade a).mp ha).trans ((hmade b).mp hb).symm

/-- An instance that the scene shows is of a class and holds a value under a key. -/
structure Forest.Holds (f : Forest) (className key : String) (e : IndexedInstance) (value : Value) :
    Prop where
  listed : e ∈ f.indexed
  ofClass : e.record.className = className
  held : e.record.properties.get? key = some value

/-- No instance holds a value under a key that addresses its record. -/
theorem Forest.Holds.unreserved {f : Forest} {className key : String} {e : IndexedInstance}
    {value : Value} (h : f.Holds className key e value) (hwf : f.WellFormed) :
    isReservedKey key = false := by
  obtain ⟨p, item, children, _, hfind, hrecord⟩ :=
    exists_find?_of_mem_index hwf.namesDistinct h.listed
  have hheld := h.held
  rw [hrecord] at hheld
  exact hwf.unreserved _ (mem_table_of_find? hfind) key
    (SortedMap.isSome_get?_iff.mp (Option.isSome_of_eq_some hheld))

namespace SchemaView

variable {f : Forest} {className key : String} {e : IndexedInstance} {value : Value}
  {filter : Option String}

/-- The values of a property of a class, in the order of the view. -/
def observed (f : Forest) (className key : String) : List Value :=
  ((f.indexed.map (·.record)).filter fun i => i.className == className).filterMap fun i =>
    i.properties.get? key

theorem mem_observed_iff :
    value ∈ observed f className key ↔ ∃ e, f.Holds className key e value := by
  simp only [observed, List.mem_filterMap, List.mem_filter, List.mem_map, beq_iff_eq]
  constructor
  · rintro ⟨_, ⟨⟨e, he, rfl⟩, hclass⟩, hheld⟩
    exact ⟨e, he, hclass, hheld⟩
  · rintro ⟨e, he, hclass, hheld⟩
    exact ⟨e.record, ⟨⟨e, he, rfl⟩, hclass⟩, hheld⟩

/-- Under a key that does not address the record the view says what the values have in common. -/
theorem exists_get?_classes (h : f.Holds className key e value) (hkey : isReservedKey key = false)
    (hfilter : filter.all (· == className) = true) (revision : Nat) (generatedAt : Instant) :
    ∃ described, (ofIndexed f.indexed filter revision generatedAt).classes.get? className =
        some described ∧
      described.properties.get? key = some (Schema.ofValues (observed f className key)) := by
  let instances := (f.indexed.map (·.record)).filter fun i => i.className == className
  have hrecord : e.record ∈ f.indexed.map (·.record) := List.mem_map_of_mem h.listed
  refine ⟨Schema.ofInstances className instances, ?_, ?_⟩
  · -- The class is listed, and the filter lets it pass.
    refine SortedMap.get?_ofList_map _ (List.mem_filter.mpr ⟨?_, hfilter⟩)
    exact SortedMap.mem_sortedElements.mpr (h.ofClass ▸ List.mem_map_of_mem hrecord)
  · have hmem : e.record ∈ instances := List.mem_filter.mpr ⟨hrecord, beq_iff_eq.mpr h.ofClass⟩
    exact Schema.get?_ofInstances hkey hmem
      (SortedMap.isSome_get?_iff.mp (Option.isSome_of_eq_some h.held)) className

end SchemaView

namespace Store

open Forest Success

variable {s : Store} {path : Path} {item : Item} {children : Forest} {key : String} {value : Value}
  {origin : Origin}

/-- A property is set when its value may be written and keeps the shape of the one that is there. -/
theorem update_isOk_iff (hfind : s.forest.find? path = some (item, children))
    (hkey : isReservedKey key = false) : (s.update path key value origin).isOk = true ↔
      value.checkWritable = .ok ⟨⟩ ∧
        ∀ old, item.properties.get? key = some old → old.sameShape value = true := by
  unfold update
  rw [lookup_eq_ok.mpr hfind]
  show (if key = nameKey then _ else _ : Except _ _).isOk = true ↔ _
  rw [if_neg (ne_of_unreserved hkey rfl), if_neg (Bool.eq_false_iff.mp hkey), checkWritable]
  cases value.checkWritable with
  | error reason => exact ⟨nofun, fun h => nomatch h.1⟩
  | ok _ =>
    cases item.properties.get? key with
    | none => exact ⟨fun _ => ⟨rfl, nofun⟩, fun _ => rfl⟩
    | some old =>
      show (if old.sameShape value = true then _ else _ : Except _ _).isOk = true ↔ _
      by_cases hshape : old.sameShape value = true
      · rw [if_pos hshape]
        refine ⟨fun _ => ⟨rfl, fun _ h => ?_⟩, fun _ => rfl⟩
        obtain rfl := Option.some.inj h
        exact hshape
      · rw [if_neg hshape]
        exact ⟨nofun, fun h => absurd (h.2 old rfl) hshape⟩

/-- An update of a property that an instance of the scene holds sets it, and says which instance it
was, exactly when the value may be written and keeps the shape; every other update is refused. In
the record of the instance nothing else changes. -/
theorem apply_update_of_holds (h : s.Reachable) {className : String} {e : IndexedInstance}
    {old : Value} (hholds : s.forest.Holds className key e old) :
    (value.checkWritable = .ok ⟨⟩ ∧ old.sameShape value = true →
      ∃ s', s.apply (.update e.path key value) origin =
          .ok (.applied ⟨.update, e.record.id, e.path, e.record.name, s.revision + 1⟩, s') ∧
        s'.revision = s.revision + 1 ∧
        s'.forest.instance? e.record.id =
          some { e.record with properties := e.record.properties.insert key value }) ∧
    (¬ (value.checkWritable = .ok ⟨⟩ ∧ old.sameShape value = true) →
      ∃ error, s.apply (.update e.path key value) origin = .error error) := by
  obtain ⟨p, item, children, hpath, hfind, hrecord⟩ :=
    exists_find?_of_mem_index h.wellFormed.namesDistinct hholds.listed
  obtain rfl : p = e.path := hpath.symm
  have hheld : item.properties.get? key = some old := by
    have hheld := hholds.held
    rwa [hrecord] at hheld
  have hkey := hholds.unreserved h.wellFormed
  have hok : (s.update e.path key value origin).isOk = true ↔ _ := update_isOk_iff hfind hkey
  simp only [hheld, Option.some.injEq, forall_eq'] at hok
  cases ha : s.update e.path key value origin with
  | error error =>
    rw [ha] at hok
    exact ⟨fun htaken => absurd (hok.mpr htaken) Bool.false_ne_true, fun _ => ⟨error, ha⟩⟩
  | ok result =>
    rw [ha] at hok
    obtain ⟨outcome, s'⟩ := result
    refine ⟨fun _ => ⟨s', ?_⟩, fun hrefused => absurd (hok.mp rfl) hrefused⟩
    have hwf' := (update_changed h.wellFormed ha).wellFormed
    obtain ⟨_, _, hfind', ⟨rfl, _⟩ | ⟨_, rfl, rfl⟩⟩ := update_eq_ok ha
    · cases hkey
    · obtain ⟨rfl, rfl⟩ := Prod.mk.inj (Option.some.inj (hfind.symm.trans hfind'))
      have hlisted := (h.wellFormed.instance?_of_mem_indexed hholds.listed).2
      have hset := WellFormed.instance?_modify h.wellFormed hwf' hfind rfl e.record.id
      rw [hlisted, Option.map_some] at hset
      refine ⟨?_, rfl, hset.trans (congrArg some ?_)⟩
      · rw [hrecord]
        exact ha
      · have hid : e.record.id = item.id := congrArg Instance.id hrecord
        rw [if_pos hid, hrecord]
        rfl

/-- What the schema says of a property that some instance of a class holds. It is mixed exactly when
two instances of the class hold values of different shapes. When it can be written, each instance of
the class that holds it takes every value that may be written and has the shape that was observed:
it holds that value at the next revision, and is otherwise what it was. When it is unsupported, none
takes any value. -/
theorem schema_agrees_with_updates (h : s.Reachable) {className : String}
    {holder : IndexedInstance} {held : Value}
    (hholds : s.forest.Holds className key holder held) {filter : Option String}
    (hfilter : filter.all (· == className) = true) (revision : Nat) (generatedAt : Instant) :
    ∃ described property,
      (SchemaView.ofIndexed s.forest.indexed filter revision generatedAt).classes.get? className =
        some described ∧
      described.properties.get? key = some property ∧
      (property.kind = .mixed ↔ ∃ e₁ v₁ e₂ v₂, s.forest.Holds className key e₁ v₁ ∧
        s.forest.Holds className key e₂ v₂ ∧ v₁.sameShape v₂ = false) ∧
      (property.writable = true → ∀ e old, s.forest.Holds className key e old →
        ∀ value origin, value.checkWritable = .ok ⟨⟩ → held.sameShape value = true →
          ∃ s', s.apply (.update e.path key value) origin =
              .ok (.applied ⟨.update, e.record.id, e.path, e.record.name, s.revision + 1⟩, s') ∧
            s'.revision = s.revision + 1 ∧
            s'.forest.instance? e.record.id =
              some { e.record with properties := e.record.properties.insert key value }) ∧
      (property.kind = .unsupported → ∀ e old, s.forest.Holds className key e old →
        ∀ value origin, ∃ error, s.apply (.update e.path key value) origin = .error error) := by
  obtain ⟨described, hdescribed, hproperty⟩ := SchemaView.exists_get?_classes hholds
    (hholds.unreserved h.wellFormed) hfilter revision generatedAt
  refine ⟨described, _, hdescribed, hproperty, ?_⟩
  have hmem : held ∈ SchemaView.observed s.forest className key :=
    SchemaView.mem_observed_iff.mpr ⟨holder, hholds⟩
  rcases Schema.ofValues_cases hmem with ⟨hall, hkind, hwritable⟩ | ⟨hdiffer, hkind, hwritable⟩
  · -- All values have the shape of the one at hand.
    have hshape : ∀ {e old}, s.forest.Holds className key e old → old.shape = held.shape :=
      fun he => Value.sameShape_iff.mp (hall _ (SchemaView.mem_observed_iff.mpr ⟨_, he⟩) _ hmem)
    rw [hkind, hwritable]
    refine ⟨⟨fun hmixed => absurd hmixed held.kind_ne_mixed, ?_⟩, ?_, ?_⟩
    · rintro ⟨e₁, v₁, e₂, v₂, h₁, h₂, hdiffer⟩
      exact absurd ((hshape h₁).trans (hshape h₂).symm) (of_decide_eq_false hdiffer)
    · intro _ e old he value origin hvalue hkeeps
      refine (apply_update_of_holds h he).1 ⟨hvalue, Value.sameShape_iff.mpr ?_⟩
      exact (hshape he).trans (Value.sameShape_iff.mp hkeeps)
    · intro hunsupported e old he value origin
      refine (apply_update_of_holds h he).2 ?_
      rintro ⟨hvalue, hkeeps⟩
      -- A value of the shape that is there would be unsupported too.
      have hsame : held.shape = value.shape :=
        (hshape he).symm.trans (Value.sameShape_iff.mp hkeeps)
      exact Value.kind_ne_unsupported_of_checkWritable hvalue
        ((Value.kind_eq_of_shape_eq hsame).symm.trans hunsupported)
  · rw [hkind, hwritable]
    refine ⟨⟨fun _ => ?_, fun _ => rfl⟩, fun hfalse => absurd hfalse Bool.false_ne_true, nofun⟩
    obtain ⟨v₁, hv₁, v₂, hv₂, hdiffer⟩ := hdiffer
    obtain ⟨e₁, h₁⟩ := SchemaView.mem_observed_iff.mp hv₁
    obtain ⟨e₂, h₂⟩ := SchemaView.mem_observed_iff.mp hv₂
    exact ⟨e₁, v₁, e₂, v₂, h₁, h₂, hdiffer⟩

/-- Two parts: of one material, with notes of different shapes, and with something unsupported. -/
def partReports : List Report :=
  let properties (note : Value) : Properties :=
    .ofList [("Material", .enum "Material" "Wood"), ("Note", note), ("Mesh", .unsupported "Mesh")]
  [⟨⟨"a"⟩, "Part", "Box", none, properties (.bool true)⟩,
    ⟨⟨"b"⟩, "Part", "Lid", some ⟨"a"⟩, properties (.string "open")⟩]

/-- What comes about from them. -/
def parts : Store := ((empty (.stemmed "id")).replaceAll partReports).2

/-- The first of them, as the scene shows it. -/
def shownBox : IndexedInstance :=
  ⟨["Box"], ⟨⟨"a"⟩, "Part", "Box", none, (.ofList [("Material", .enum "Material" "Wood"),
    ("Note", .bool true), ("Mesh", .unsupported "Mesh")]), [⟨"b"⟩]⟩⟩

/-- The material can be written, the notes differ, and the mesh is unsupported. -/
theorem schema_agrees_with_updates_parts :
    (∀ origin, ∃ s', parts.apply (.update ["Box"] "Material" (.enum "Material" "Stone")) origin =
        .ok (.applied ⟨.update, ⟨"a"⟩, ["Box"], "Box", 2⟩, s') ∧ s'.revision = 2 ∧
      (s'.forest.instance? ⟨"a"⟩).map (·.properties.get? "Material") =
        some (some (.enum "Material" "Stone"))) ∧
    (∃ e₁ v₁ e₂ v₂, parts.forest.Holds "Part" "Note" e₁ v₁ ∧
      parts.forest.Holds "Part" "Note" e₂ v₂ ∧ v₁.sameShape v₂ = false) ∧
    (∀ value origin, ∃ error,
      parts.apply (.update ["Box"] "Mesh" value) origin = .error error) := by
  have hreachable : parts.Reachable := .replaceAll _ (.empty _)
  have hbox : shownBox ∈ parts.forest.indexed :=
    List.mem_of_getElem? (show parts.forest.indexed[0]? = some shownBox from rfl)
  have hmaterial : parts.forest.Holds "Part" "Material" shownBox (.enum "Material" "Wood") :=
    ⟨hbox, rfl, rfl⟩
  have hnote : parts.forest.Holds "Part" "Note" shownBox (.bool true) := ⟨hbox, rfl, rfl⟩
  have hmesh : parts.forest.Holds "Part" "Mesh" shownBox (.unsupported "Mesh") := ⟨hbox, rfl, rfl⟩
  have hfilter : (some "Part").all (· == "Part") = true := rfl
  refine ⟨fun origin => ?_, ?_, fun value origin => ?_⟩
  · obtain ⟨described, property, hclass, hproperty, _, hwritable, _⟩ :=
      schema_agrees_with_updates hreachable hmaterial hfilter 1 0
    have hsays : (((SchemaView.ofIndexed parts.forest.indexed (some "Part") 1 0).classes.get?
        "Part").bind (·.properties.get? "Material")).map (·.writable) = some true := by
      decide +kernel
    rw [hclass, Option.bind_some, hproperty] at hsays
    obtain ⟨s', happlied, hrevision, hset⟩ := hwritable (Option.some.inj hsays) shownBox _
      hmaterial (.enum "Material" "Stone") origin rfl rfl
    refine ⟨s', happlied, hrevision, ?_⟩
    rw [show s'.forest.instance? ⟨"a"⟩ = _ from hset]
    rfl
  · obtain ⟨described, property, hclass, hproperty, hmixed, _⟩ :=
      schema_agrees_with_updates hreachable hnote hfilter 1 0
    have hsays : (((SchemaView.ofIndexed parts.forest.indexed (some "Part") 1 0).classes.get?
        "Part").bind (·.properties.get? "Note")).map (·.kind) = some .mixed := by
      decide +kernel
    rw [hclass, Option.bind_some, hproperty] at hsays
    exact hmixed.mp (Option.some.inj hsays)
  · obtain ⟨described, property, hclass, hproperty, _, _, hunsupported⟩ :=
      schema_agrees_with_updates hreachable hmesh hfilter 1 0
    have hsays : (((SchemaView.ofIndexed parts.forest.indexed (some "Part") 1 0).classes.get?
        "Part").bind (·.properties.get? "Mesh")).map (·.kind) = some .unsupported := by
      decide +kernel
    rw [hclass, Option.bind_some, hproperty] at hsays
    exact hunsupported (Option.some.inj hsays) shownBox _ hmesh value origin

end Store

end SharedScene
