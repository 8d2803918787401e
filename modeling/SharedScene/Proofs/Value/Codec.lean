import SharedScene.Identifier
import SharedScene.Path
import SharedScene.Value.Codec
import SharedScene.Proofs.Json.Layout

/-!
# Identifiers, paths and values that are read back

JSON has no spelling for NaN and the infinities, so a value is read back when all its numbers are
finite (`Value.IsFinite`), and a text as an identifier when it is one (`Identifier.IsValid`). The
kind of a value stands before its content in either layout; hence the content, which may be an
object with members of its own, is taken as it is.
-/

namespace SharedScene

open Json (Layout Reads Record)
open Success (bind_ok)

/-! ## Identifiers and paths -/

namespace Identifier

variable {kind : Kind}

/-- An identifier whose text obeys the rules of identifiers. -/
def IsValid (id : Identifier kind) : Prop := check id.text = .ok ()

instance (id : Identifier kind) : Decidable id.IsValid :=
  match h : check id.text with
  | .ok () => .isTrue h
  | .error _ => .isFalse fun hok => nomatch h.symm.trans hok

theorem IsValid.reads {id : Identifier kind} (h : id.IsValid) :
    Reads ofJson id.toJson id := fun l => by
  have hparse : parse id.text = .ok id := bind_ok h rfl
  rw [toJson, Layout.keep_str]
  refine bind_ok (rfl : Json.Decode.text (.str id.text) = .ok id.text) ?_
  rw [hparse]
  rfl

/-- Null is no identifier. -/
theorem ofJson_null (id : Identifier kind) : ofJson .null ≠ .ok id := nofun

@[simp] theorem isReadable_toJson (id : Identifier kind) : id.toJson.isReadable = true := rfl

end Identifier

namespace Path

theorem reads (p : Path) : Reads ofJson p.toJson p := Json.reads_ofList fun s _ => Json.reads_text s

theorem ofJson_null (p : Path) : ofJson .null ≠ .ok p := nofun

@[simp] theorem isReadable_toJson (p : Path) : p.toJson.isReadable = true :=
  Json.isReadable_ofList (fun _ => rfl) p

end Path

/-! ## Values -/

namespace Value

/-- Whether every number in a value is finite. -/
def IsFinite : Value → Prop
  | .number x => x.isFinite = true
  | .struct _ fields => ∀ x ∈ fields.values, x.isFinite = true
  | _ => True

instance : ∀ v : Value, Decidable v.IsFinite
  | .number x => inferInstanceAs (Decidable (x.isFinite = true))
  | .struct _ fields => inferInstanceAs (Decidable (∀ x ∈ fields.values, x.isFinite = true))
  | .bool _ | .string _ | .enum _ _ | .unsupported _ => .isTrue trivial

theorem Kind.ofName?_name (v : Value) : Kind.ofName? v.kind.name = some v.kind := by
  cases v <;> rfl

theorem Kind.reads (place : Json.Place) (v : Value) :
    Reads (Json.Decode.oneOfAt place Kind.ofName?) (.str v.kind.name) v.kind := fun l => by
  rw [Layout.keep_str]
  show Json.Decode.caseOf Kind.ofName? v.kind.name = .ok v.kind
  rw [Json.Decode.caseOf, Kind.ofName?_name]

/-- The content of a value is read back by its kind. -/
theorem reads_content {v : Value} (h : v.IsFinite) : Reads (ofContent v.kind) v.content v := by
  intro l
  cases v with
  | bool b =>
    rw [content, Layout.keep_bool]
    rfl
  | number x => exact bind_ok (Json.reads_float h l) rfl
  | string s => exact bind_ok (Json.reads_text s l) rfl
  | enum enumType item =>
    refine Record.ofObject_bind (by simp) fun r hr => ?_
    refine bind_ok (hr.required rfl (Json.reads_text enumType)) ?_
    exact bind_ok (hr.required rfl (Json.reads_text item)) rfl
  | struct typeName fields =>
    refine Record.ofObject_bind (by simp) fun r hr => ?_
    refine bind_ok (hr.required rfl (Json.reads_text typeName)) ?_
    exact bind_ok (hr.required rfl (Json.reads_ofMap fun x hx => Json.reads_float (h x hx))) rfl
  | unsupported typeName =>
    refine Record.ofObject_bind (by simp) fun r hr => ?_
    exact bind_ok (hr.required rfl (Json.reads_text typeName)) rfl

/-- The kind of a value stands before the content in either layout. -/
theorem keep_toJson (l : Layout) (v : Value) :
    l.keep v.toJson = .obj [("kind", .str v.kind.name), ("value", l.keep v.content)] := by
  have hfirst : "kind" < "value" := by decide
  have hsorted : ([("kind", Json.str v.kind.name), ("value", v.content)].map
      Prod.fst).Pairwise (· < ·) := List.pairwise_pair.mpr hfirst
  rw [toJson, Layout.keep_obj, Layout.members_of_sorted l hsorted, List.map_cons, List.map_cons,
    List.map_nil, Layout.keep_str]

theorem IsFinite.reads {v : Value} (h : v.IsFinite) (place : Json.Place) :
    Reads (ofJson place) v.toJson v := fun l => by
  rw [keep_toJson]
  let r : Record := .named [("kind", .str v.kind.name), ("value", l.keep v.content)]
  have hkind : kindOfJson place r = .ok v.kind := Kind.reads place v .written
  have hcontent : contentOfJson r = .ok (l.keep v.content) := rfl
  exact bind_ok rfl (bind_ok hkind (bind_ok hcontent (reads_content h l)))

theorem ofJson_null (place : Json.Place) (v : Value) : ofJson place .null ≠ .ok v := nofun

theorem isReadable_content (v : Value) : v.content.isReadable = true := by
  cases v with
  | number x => exact Json.isReadable_ofFloat x
  | struct typeName fields =>
    have hfields : (Json.ofMap .ofFloat fields).isReadable = true :=
      Json.isReadable_ofMap Json.isReadable_ofFloat fields
    simp [content, Json.isReadable, Json.membersAreReadable, hfields]
  | _ => rfl

@[simp] theorem isReadable_toJson (v : Value) : v.toJson.isReadable = true := by
  simp [toJson, Json.isReadable, Json.membersAreReadable, isReadable_content]

/-! ## Properties -/

/-- Whether every number in the properties is finite. -/
def AllFinite (ps : Properties) : Prop := ∀ v ∈ ps.values, v.IsFinite

instance (ps : Properties) : Decidable (AllFinite ps) :=
  inferInstanceAs (Decidable (∀ v ∈ ps.values, v.IsFinite))

theorem AllFinite.reads {ps : Properties} (h : AllFinite ps) (place : Json.Place) :
    Reads (propertiesOfJson place) (propertiesToJson ps) ps :=
  Json.reads_ofMap fun v hv => (h v hv).reads place

@[simp] theorem isReadable_propertiesToJson (ps : Properties) :
    (propertiesToJson ps).isReadable = true :=
  Json.isReadable_ofMap isReadable_toJson ps

end Value

end SharedScene
