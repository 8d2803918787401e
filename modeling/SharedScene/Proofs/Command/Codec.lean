import SharedScene.Command.Basic
import SharedScene.Proofs.Scene.Codec

/-!
# Commands read back

The members that name a target stand between the name of the operation and the other members, and
each of them may be left out. Whoever reads a command takes them for the target first and finds the
other members behind them (`Target.Spellable.ofParts`). With that, all that goes over the wire is
read as it was written (`reads_what_was_written`).
-/

namespace SharedScene

open Json (Layout Reads Record Tagged)
open Success (bind_ok)

/-! ## Targets -/

namespace Target

def Spellable (t : Target) : Prop := ∀ id ∈ t.id, id.IsValid

variable {t : Target} {rest : List (String × Json)} {name : String}

theorem names_sublist (t : Target) :
    ((Command.targetMembers t).map Prod.fst).Sublist ["targetId", "targetPath"] := by
  rw [Command.targetMembers, List.map_append]
  exact Json.names_member?_sublist.append Json.names_member?_sublist

@[simp] theorem membersAreReadable_targetMembers (t : Target) :
    Json.membersAreReadable (Command.targetMembers t) = true := by
  rw [Command.targetMembers, Json.membersAreReadable_append,
    Json.membersAreReadable_member? _ Identifier.isReadable_toJson,
    Json.membersAreReadable_member? _ Path.isReadable_toJson]
  rfl

/-- Behind the members of a target stand the others. -/
theorem find?_append (hid : "targetId" ≠ name) (hpath : "targetPath" ≠ name) :
    Json.find? name (Command.targetMembers t ++ rest) = Json.find? name rest := by
  rw [Command.targetMembers, List.append_assoc, Json.find?_member?_of_ne hid,
    Json.find?_member?_of_ne hpath]

/-- A record that holds the members of a target holds the target. -/
theorem Spellable.ofParts (h : t.Spellable) {l : Layout} {r : Record}
    (hr : r.Holds l (Command.targetMembers t ++ rest))
    (hid : "targetId" ∉ rest.map Prod.fst) (hpath : "targetPath" ∉ rest.map Prod.fst) :
    Command.targetOfParts r = .ok (r, t) := by
  have hbehind : "targetId" ∉
      (Json.member? "targetPath" Path.toJson t.path ++ rest).map Prod.fst := by
    rw [List.map_append, List.mem_append]
    rintro (hmem | hmem)
    · exact absurd (Json.names_member?_sublist.subset hmem) (by decide)
    · exact hid hmem
  have hidFound : Json.find? "targetId" (Command.targetMembers t ++ rest) =
      t.id.map Identifier.toJson := by
    rw [Command.targetMembers, List.append_assoc, Json.find?_member? hbehind]
  have hpathFound : Json.find? "targetPath" (Command.targetMembers t ++ rest) =
      t.path.map Path.toJson := by
    rw [Command.targetMembers, List.append_assoc, Json.find?_member?_of_ne (by decide),
      Json.find?_member? hpath]
  obtain ⟨members, rfl⟩ := hr.named
  refine bind_ok (hr.leftOut hidFound Identifier.ofJson_null fun id hmem => (h id hmem).reads) ?_
  exact bind_ok (hr.leftOut hpathFound Path.ofJson_null fun p _ => p.reads) rfl

end Target

/-! ## Commands -/

namespace Command

def Spellable : Command → Prop
  | .create _ _ _ properties => Value.AllFinite properties
  | .update target _ value => target.Spellable ∧ value.IsFinite
  | .rename target _ => target.Spellable
  | .delete target => target.Spellable
  | .reparent target _ => target.Spellable

/-- The members of a command besides its operation and its target. -/
def others : Command → List (String × Json)
  | .create parentPath className name properties =>
    [("parentPath", Path.toJson parentPath), ("className", .str className), ("name", .str name),
      ("properties", Value.propertiesToJson properties)]
  | .update _ property value => [("property", .str property), ("value", value.toJson)]
  | .rename _ name => [("name", .str name)]
  | .delete _ => []
  | .reparent _ newParentPath => [("newParentPath", Path.toJson newParentPath)]

theorem toJson_eq (c : Command) : c.toJson =
    .obj (("op", .str c.op) :: (c.target?.toList.flatMap targetMembers ++ c.others)) := by
  cases c <;> rfl

theorem toJson_of_target {c : Command} {t : Target} (h : c.target? = some t) :
    c.toJson = .obj (("op", .str c.op) :: (targetMembers t ++ c.others)) := by
  rw [toJson_eq, h, Option.toList_some, List.flatMap_singleton]

theorem membersAreReadable_others (c : Command) : Json.membersAreReadable c.others = true := by
  cases c <;> simp [others, Json.membersAreReadable, Json.isReadable]

/-- No member of a command stands twice. -/
theorem nodup_names (c : Command) :
    (["op", "targetId", "targetPath"] ++ c.others.map Prod.fst).Nodup := by
  cases c <;> simp [others]

/-- A command that has a target is read from the target and the other members. -/
theorem ofTarget_bind {c : Command} {t : Target} (ht : t.Spellable) (h : c.target? = some t)
    {l : Layout} {f : Tagged → Except Json.DecodeError Command}
    (hf : ∀ r : Record, r.Holds l (targetMembers t ++ c.others) →
      targetOfParts r = .ok (r, t) → f ⟨c.op, r⟩ = .ok c) :
    (Tagged.ofJson "op" (l.keep c.toJson) >>= f) = .ok c := by
  have hnodup := c.nodup_names
  rw [toJson_of_target h]
  refine Tagged.ofJson_bind ?_ ?_ fun r hr => ?_
  · rw [List.map_append]
    exact hnodup.sublist ((t.names_sublist.append (.refl _)).cons_cons "op")
  · rw [Json.membersAreReadable_append, t.membersAreReadable_targetMembers,
      c.membersAreReadable_others, Bool.and_self]
  · have hapart := List.nodup_append.mp hnodup
    refine hf r hr (ht.ofParts hr ?_ ?_)
    · exact fun hmem => hapart.2.2 _ (by simp) _ hmem rfl
    · exact fun hmem => hapart.2.2 _ (by simp) _ hmem rfl

theorem Spellable.reads {c : Command} (h : c.Spellable) : Reads ofJson c.toJson c := by
  intro l
  cases c with
  | create parentPath className name properties =>
    have hjson : (create parentPath className name properties).toJson =
        .obj (("op", .str "create") :: (create parentPath className name properties).others) := rfl
    rw [hjson]
    refine Tagged.ofJson_bind (by simp [others]) (membersAreReadable_others _) fun r hr => ?_
    refine bind_ok (hr.bounded 4) ?_
    refine bind_ok (hr.required rfl parentPath.reads) ?_
    refine bind_ok (hr.required rfl (Json.reads_text className)) ?_
    refine bind_ok (hr.required rfl (Json.reads_text name)) ?_
    exact bind_ok (hr.withDefault rfl (Value.AllFinite.reads h .setAside)) rfl
  | update target property value =>
    refine ofTarget_bind h.1 rfl fun r hr htarget => bind_ok htarget ?_
    refine bind_ok (hr.required (Target.find?_append (by decide) (by decide))
      (Json.reads_text property)) ?_
    exact bind_ok (hr.required (Target.find?_append (by decide) (by decide))
      (h.2.reads .setAside)) rfl
  | rename target name =>
    refine ofTarget_bind h rfl fun r hr htarget => bind_ok htarget ?_
    exact bind_ok (hr.required (Target.find?_append (by decide) (by decide))
      (Json.reads_text name)) rfl
  | delete target => exact ofTarget_bind h rfl fun r _ htarget => bind_ok htarget rfl
  | reparent target newParentPath =>
    refine ofTarget_bind h rfl fun r hr htarget => bind_ok htarget ?_
    exact bind_ok (hr.required (Target.find?_append (by decide) (by decide))
      newParentPath.reads) rfl

end Command

/-! ## Over the wire -/

/-- What was written from valid ids and finite numbers is read as it was, from the text or from a
document that was taken as a value; a value and a new instance also where they were set aside. -/
theorem reads_what_was_written :
    (∀ place (v : Value), v.IsFinite → Reads (Value.ofJson place) v.toJson v) ∧
    (∀ place (i : NewInstance), i.Spellable → Reads (NewInstance.ofJson place) i.toJson i) ∧
    (∀ r : Report, r.Spellable → Reads Report.ofJson r.toJson r) ∧
    (∀ m : Message, m.Spellable → Reads Message.ofJson m.toJson m) ∧
    (∀ e : Event, e.Spellable → Reads Event.ofJson e.toJson e) ∧
    (∀ c : PendingChange, c.Spellable → Reads PendingChange.ofJson c.toJson c) ∧
    (∀ c : Command, c.Spellable → Reads Command.ofJson c.toJson c) :=
  ⟨fun place _ h => h.reads place, fun place _ h => h.reads place, fun _ h => h.reads,
    fun _ h => h.reads, fun _ h => h.reads, fun _ h => h.reads, fun _ h => h.reads⟩

theorem reads_what_was_written_lamp :
    let size : Value := .struct "Vector2" (.ofList [("X", 0.5), ("Y", 4)])
    let lamp : NewInstance := ⟨some ⟨"lamp"⟩, "Part", "Lamp", .ofList [("Size", size)]⟩
    let report : Report := ⟨⟨"lamp"⟩, "Part", "Lamp", some ⟨"desk"⟩, lamp.properties⟩
    let message : Message := .create ["Desk"] lamp
    let event : Event := .update ⟨"lamp"⟩ ["Desk", "Lamp"] "Size" (some size)
    let change : PendingChange := ⟨1, ⟨"lamp"⟩, message⟩
    let command : Command := .update ⟨some ⟨"lamp"⟩, none⟩ "Size" size
    Reads (Value.ofJson .direct) size.toJson size ∧
      Reads (NewInstance.ofJson .direct) lamp.toJson lamp ∧
      Reads Report.ofJson report.toJson report ∧
      Reads Message.ofJson message.toJson message ∧ Reads Event.ofJson event.toJson event ∧
      Reads PendingChange.ofJson change.toJson change ∧
      Reads Command.ofJson command.toJson command := by
  intro size lamp report message event change command
  have hid : (⟨"lamp"⟩ : InstanceId).IsValid := by decide
  have hsize : size.IsFinite := by decide +kernel
  have hproperties : Value.AllFinite lamp.properties := by decide +kernel
  have hlamp : lamp.Spellable := ⟨by decide, hproperties⟩
  obtain ⟨values, instances, reports, messages, events, changes, commands⟩ := reads_what_was_written
  exact ⟨values _ size hsize, instances _ lamp hlamp,
    reports report ⟨hid, by decide, hproperties⟩, messages message hlamp,
    events event ⟨hid, by decide +kernel⟩, changes change ⟨by decide, hid, hlamp⟩,
    commands command ⟨fun _ hmem => by cases hmem; exact hid, hsize⟩⟩

end SharedScene
