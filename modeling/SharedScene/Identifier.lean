import SharedScene.Text
import SharedScene.Json.Decode

/-!
# Identifiers

Instances, the owners of leases and test runs are addressed by opaque texts. An identifier is not
blank, has at most 128 characters and holds neither white space nor control characters; the first
rule that a text breaks is the one that is reported. The kinds of identifier differ in their type
alone, so an owner never stands where an instance is meant. Where identifiers are listed, they are
listed in the order of their texts.
-/

namespace SharedScene

/-- What an identifier addresses. -/
inductive Identifier.Kind where
  /-- An instance, which is a node of the scene. -/
  | node
  | owner
  | run

/-- An opaque text that addresses one thing of the kind. -/
structure Identifier (kind : Identifier.Kind) where
  text : String
deriving DecidableEq, Repr

/-- The stable identity of an instance; it survives renames and moves. -/
abbrev InstanceId := Identifier .node

/-- The owner of leases. -/
abbrev Owner := Identifier .owner

/-- The identity of a test run. -/
abbrev RunId := Identifier .run

section Order

variable {kind : Identifier.Kind}

instance : LE (Identifier kind) := ⟨fun a b => a.text ≤ b.text⟩

instance : LT (Identifier kind) := ⟨fun a b => a.text < b.text⟩

instance : DecidableLT (Identifier kind) :=
  fun a b => inferInstanceAs (Decidable (a.text < b.text))

instance : Std.IsLinearOrder (Identifier kind) where
  le_refl a := Std.le_refl a.text
  le_trans _ _ _ := Std.le_trans (α := String)
  le_antisymm a b h h' := by
    cases a
    cases b
    exact congrArg _ (Std.le_antisymm (α := String) h h')
  le_total a b := Std.le_total (a := a.text) (b := b.text)

instance : Std.LawfulOrderLT (Identifier kind) where
  lt_iff a b := Std.LawfulOrderLT.lt_iff a.text b.text

end Order

/-- Why a text is no identifier, or no name. -/
inductive IdentifierError where
  | empty
  | tooLong (max actual : Nat)
  | invalidCharacters (details : String)
deriving DecidableEq, Repr

def IdentifierError.message : IdentifierError → String
  | .empty => "identifier cannot be empty"
  | .tooLong max actual => s!"identifier too long: {actual} characters (max {max})"
  | .invalidCharacters details => s!"identifier contains invalid characters: {details}"

namespace Identifier

def maxLength : Nat := 128

def check (text : String) : Except IdentifierError Unit :=
  if Text.isBlankText text then .error .empty
  else if text.length > maxLength then .error (.tooLong maxLength text.length)
  else if text.toList.any (fun c => Text.isControl c || Text.isBlank c) then
    .error (.invalidCharacters "whitespace and control characters are not allowed")
  else .ok ()

variable {kind : Kind}

def parse (text : String) : Except IdentifierError (Identifier kind) := do
  check text
  return ⟨text⟩

def ofJson : Json.Decoder (Identifier kind) := fun v => do
  match parse (← Json.Decode.text v) with
  | .ok id => return id
  | .error e => throw (.refused e.message)

def toJson (id : Identifier kind) : Json := .str id.text

end Identifier

/-- The owner under which the `n`-th request runs. -/
def Identifier.ofRequest (n : Nat) : Owner := ⟨s!"cmd-{n}"⟩

/-- An owner whose text begins with another letter is not a request's. -/
theorem Identifier.ne_ofRequest {owner : Owner} (h : owner.text.toList.head? ≠ some 'c') (n : Nat) :
    owner ≠ ofRequest n := by
  rintro rfl
  simp only [ofRequest, String.toList_append, List.head?_append] at h
  exact h rfl

/-- The identity of the `n`-th run that enters the queue. -/
def Identifier.ofSequence (n : Nat) : RunId := ⟨s!"run-{n}"⟩

/-- A supply of instance ids: a stream of them, and how many of it are taken. Nothing is said of
the stream, so what holds of every supply holds of one that repeats itself. -/
structure IdSupply where
  fresh : Nat → InstanceId
  used : Nat

namespace IdSupply

/-- The ids of a stem and a count. -/
def stemmed (stem : String) : IdSupply := ⟨fun n => ⟨s!"{stem}{n + 1}"⟩, 0⟩

def next (s : IdSupply) : InstanceId := s.fresh s.used

/-- The supply after its next id is taken. -/
def advance (s : IdSupply) : IdSupply := { s with used := s.used + 1 }

end IdSupply

end SharedScene
