import SharedScene.Scene.Codec
import SharedScene.Proofs.Value.Codec

/-!
# The scene read back

Each record of the scene says what has to hold of it to be written without loss (`Spellable`): its
ids obey the rules of identifiers and its numbers are finite. Nothing else is asked of it; names,
paths and property keys are any texts at all. What a record leaves out when it is written (an id
that is to be given, a name that stays) is absent when it is read, and what it writes as null (no
parent, a property that is gone) is null.
-/

namespace SharedScene

open Json (Layout Reads Record Tagged)
open Success (bind_ok)

/-! ## Instances -/

structure Instance.Spellable (i : Instance) : Prop where
  id : i.id.IsValid
  parent : ∀ id ∈ i.parent, id.IsValid
  properties : Value.AllFinite i.properties
  children : ∀ id ∈ i.children, id.IsValid

theorem Instance.Spellable.reads {i : Instance} (h : i.Spellable) (place : Json.Place) :
    Reads (ofJson place) i.toJson i := by
  intro l
  have hparent := Json.reads_ofOption Identifier.ofJson_null fun id hid => (h.parent id hid).reads
  refine Record.ofJson_bind (by simp) fun r hr => ?_
  refine bind_ok (hr.required rfl h.id.reads) ?_
  refine bind_ok (hr.required rfl (Json.reads_text i.className)) ?_
  refine bind_ok (hr.required rfl (Json.reads_text i.name)) ?_
  refine bind_ok (hr.nullable rfl hparent) ?_
  refine bind_ok (hr.required rfl (h.properties.reads place)) ?_
  refine bind_ok (hr.required rfl (Json.reads_ofList fun id hid => (h.children id hid).reads)) ?_
  rfl

@[simp] theorem Instance.isReadable_toJson (i : Instance) : i.toJson.isReadable = true := by
  have hparent := Json.isReadable_ofOption Identifier.isReadable_toJson i.parent
  have hchildren := Json.isReadable_ofList Identifier.isReadable_toJson i.children
  simp [toJson, Json.isReadable, Json.membersAreReadable, hparent, hchildren]

structure NewInstance.Spellable (i : NewInstance) : Prop where
  id : ∀ id ∈ i.id, id.IsValid
  properties : Value.AllFinite i.properties

theorem NewInstance.Spellable.reads {i : NewInstance} (h : i.Spellable) (place : Json.Place) :
    Reads (ofJson place) i.toJson i := by
  intro l
  have hnames : ["id", "className", "name", "properties"].Nodup := by decide
  have hid : ∀ id ∈ i.id, Reads Identifier.ofJson id.toJson id := fun id hid => (h.id id hid).reads
  -- The other members stand behind the id whether or not there is one.
  have hbehind : ∀ name, "id" ≠ name → ∀ rest : List (String × Json),
      Json.find? name (Json.member? "id" Identifier.toJson i.id ++ rest) = Json.find? name rest :=
    fun _ hname _ => Json.find?_member?_of_ne hname
  refine Record.ofJson_bind ?_ fun r hr => ?_
  · rw [List.map_append]
    exact hnames.sublist (Json.names_member?_sublist.append (.refl _))
  · refine bind_ok (hr.leftOut (Json.find?_member? (by simp)) Identifier.ofJson_null hid) ?_
    refine bind_ok (hr.required (hbehind _ (by decide) _) (Json.reads_text i.className)) ?_
    refine bind_ok (hr.required (hbehind _ (by decide) _) (Json.reads_text i.name)) ?_
    exact bind_ok (hr.withDefault (hbehind _ (by decide) _) (h.properties.reads place)) rfl

@[simp] theorem NewInstance.isReadable_toJson (i : NewInstance) : i.toJson.isReadable = true := by
  have hid := Json.membersAreReadable_member? "id" Identifier.isReadable_toJson i.id
  simp [toJson, Json.isReadable, Json.membersAreReadable_append, Json.membersAreReadable, hid]

/-! ## Reports -/

structure Report.Spellable (r : Report) : Prop where
  id : r.id.IsValid
  parentId : ∀ id ∈ r.parentId, id.IsValid
  properties : Value.AllFinite r.properties

theorem Report.Spellable.reads {report : Report} (h : report.Spellable) :
    Reads ofJson report.toJson report := by
  intro l
  have hparent := Json.reads_ofOption Identifier.ofJson_null fun id hid => (h.parentId id hid).reads
  refine Record.ofJson_bind (by simp) fun r hr => ?_
  refine bind_ok (hr.required rfl h.id.reads) ?_
  refine bind_ok (hr.required rfl (Json.reads_text report.className)) ?_
  refine bind_ok (hr.required rfl (Json.reads_text report.name)) ?_
  refine bind_ok (hr.optional rfl hparent) ?_
  exact bind_ok (hr.withDefault rfl (h.properties.reads .direct)) rfl

/-! ## Messages and events -/

/-- A message has no ids but that of the instance it creates. -/
def Message.Spellable : Message → Prop
  | .create _ i => i.Spellable
  | .update _ _ value => value.IsFinite
  | .delete _ => True
  | .reparent _ _ _ => True

theorem Message.Spellable.reads {m : Message} (h : m.Spellable) : Reads ofJson m.toJson m := by
  intro l
  cases m with
  | create parentPath i =>
    refine Tagged.ofJson_bind (by simp) (by simp [Json.membersAreReadable]) fun r hr => ?_
    refine bind_ok (hr.bounded 2) ?_
    refine bind_ok (hr.required rfl parentPath.reads) ?_
    exact bind_ok (hr.required rfl (NewInstance.Spellable.reads h .setAside)) rfl
  | update path property value =>
    refine Tagged.ofJson_bind (by simp) (by simp [Json.membersAreReadable, Json.isReadable])
      fun r hr => ?_
    refine bind_ok (hr.bounded 3) ?_
    refine bind_ok (hr.required rfl path.reads) ?_
    refine bind_ok (hr.required rfl (Json.reads_text property)) ?_
    exact bind_ok (hr.required rfl (Value.IsFinite.reads h .setAside)) rfl
  | delete path =>
    refine Tagged.ofJson_bind (by simp) (by simp [Json.membersAreReadable]) fun r hr => ?_
    exact bind_ok (hr.bounded 1) (bind_ok (hr.required rfl path.reads) rfl)
  | reparent path newParentPath name =>
    have hreadable : Json.membersAreReadable (Json.member? "name" .str name) = true :=
      Json.membersAreReadable_member? "name" (fun _ => rfl) name
    have hname : Json.find? "name" (Json.member? "name" .str name) = name.map .str :=
      Json.find?_member?_alone
    have hnames : ["type", "path", "newParentPath", "name"].Nodup := by decide
    refine Tagged.ofJson_bind (hnames.sublist ?_) (by simp [Json.membersAreReadable, hreadable])
      fun r hr => ?_
    · exact (List.Sublist.refl ["type", "path", "newParentPath"]).append Json.names_member?_sublist
    refine bind_ok (hr.bounded 3) ?_
    refine bind_ok (hr.required rfl path.reads) ?_
    refine bind_ok (hr.required rfl newParentPath.reads) ?_
    exact bind_ok (hr.leftOut hname Json.Decode.text_null fun s _ => Json.reads_text s) rfl

def Event.Spellable : Event → Prop
  | .create id _ i => id.IsValid ∧ i.Spellable
  | .update id _ _ value => id.IsValid ∧ ∀ v ∈ value, v.IsFinite
  | .delete id _ => id.IsValid
  | .reparent id _ _ _ => id.IsValid

theorem Event.Spellable.reads {e : Event} (h : e.Spellable) : Reads ofJson e.toJson e := by
  intro l
  cases e with
  | create id path i =>
    refine Tagged.ofJson_bind (by simp) (by simp [Json.membersAreReadable]) fun r hr => ?_
    refine bind_ok (hr.bounded 3) ?_
    refine bind_ok (hr.required rfl h.1.reads) ?_
    refine bind_ok (hr.required rfl path.reads) ?_
    exact bind_ok (hr.required rfl (h.2.reads .setAside)) rfl
  | update id path property value =>
    have hvalue := Json.reads_ofOption (Value.ofJson_null .setAside) fun v hv => (h.2 v hv).reads _
    have hreadable := Json.isReadable_ofOption Value.isReadable_toJson value
    refine Tagged.ofJson_bind (by simp)
      (by simp [Json.membersAreReadable, Json.isReadable, hreadable]) fun r hr => ?_
    refine bind_ok (hr.bounded 4) ?_
    refine bind_ok (hr.required rfl h.1.reads) ?_
    refine bind_ok (hr.required rfl path.reads) ?_
    refine bind_ok (hr.required rfl (Json.reads_text property)) ?_
    exact bind_ok (hr.nullable rfl hvalue) rfl
  | delete id path =>
    refine Tagged.ofJson_bind (by simp) (by simp [Json.membersAreReadable]) fun r hr => ?_
    refine bind_ok (hr.bounded 2) ?_
    refine bind_ok (hr.required rfl (Identifier.IsValid.reads h)) ?_
    exact bind_ok (hr.required rfl path.reads) rfl
  | reparent id path newParentPath name =>
    refine Tagged.ofJson_bind (by simp) (by simp [Json.membersAreReadable, Json.isReadable])
      fun r hr => ?_
    refine bind_ok (hr.bounded 4) ?_
    refine bind_ok (hr.required rfl (Identifier.IsValid.reads h)) ?_
    refine bind_ok (hr.required rfl path.reads) ?_
    refine bind_ok (hr.required rfl newParentPath.reads) ?_
    exact bind_ok (hr.required rfl (Json.reads_text name)) rfl

/-- A number in the outbox has at most 64 bits. -/
structure PendingChange.Spellable (c : PendingChange) : Prop where
  sequence : c.sequence < Nat.pow 2 64
  target : c.target.IsValid
  message : c.message.Spellable

theorem PendingChange.Spellable.reads {c : PendingChange} (h : c.Spellable) :
    Reads ofJson c.toJson c := by
  intro l
  refine Record.ofJson_bind (by simp) fun r hr => ?_
  refine bind_ok (hr.required rfl (Json.reads_natBelow h.sequence)) ?_
  refine bind_ok (hr.required rfl h.target.reads) ?_
  exact bind_ok (hr.required rfl h.message.reads) rfl

end SharedScene
