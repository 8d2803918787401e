import SharedScene.Text
import SharedScene.Json.Decode

/-!
# Paths

A path is the list of names from a top-level instance down to one instance; the empty path is the
root that top-level instances hang from, and no instance itself. A path is derived: it follows from
the names of an instance and of those above it, and is never stored with the instance. Paths are
ordered like lists of texts.
-/

namespace SharedScene

/-- The names from a top-level instance down. -/
abbrev Path := List String

instance : LE Path := List.instLE

instance : Std.IsLinearOrder Path := List.instIsLinearOrder

instance : Std.LawfulOrderLT Path := List.instLawfulOrderLTOfAsymmLt

namespace Path

/-- The root, which is above every instance. -/
def root : Path := []

/-- A path written with points; the empty text is the root. -/
def ofDotted (s : String) : Path :=
  if s.isEmpty then [] else (Text.splitOn '.' s.toList).map String.ofList

def name? (p : Path) : Option String := p.getLast?

/-- The path above; the root has none. -/
def parent? (p : Path) : Option Path := if p.isEmpty then none else some p.dropLast

/-- The path above, which for the root is the root. -/
def parent (p : Path) : Path := p.dropLast

def child (p : Path) (name : String) : Path := p ++ [name]

theorem name?_child (p : Path) (name : String) : (p.child name).name? = some name :=
  List.getLast?_concat

/-- Whether `p` is `q` or above it. -/
def isAtOrAbove (p q : Path) : Bool := p.isPrefixOf q

def isBelow (p q : Path) : Bool := q.isPrefixOf p && decide (q.length < p.length)

/-- The paths of the instances above `p` and `p` itself, from the top; the root is not one of
them. -/
def ancestorsAndSelf : Path → List Path
  | [] => []
  | n :: rest => [n] :: (ancestorsAndSelf rest).map (n :: ·)

/-- What is left of `p` below `q`. -/
def below? (p q : Path) : Option Path :=
  match q, p with
  | [], p => some p
  | _ :: _, [] => none
  | n :: q, m :: p => if m = n then below? p q else none

/-- The path `p`, with `q` in it moved to `r`. -/
def rebase? (p q r : Path) : Option Path := (below? p q).map (r ++ ·)

/-- What is left of a path below another is what it goes on with behind it. -/
theorem below?_eq_some_iff {p q t : Path} : below? p q = some t ↔ p = q ++ t := by
  induction q generalizing p with
  | nil => cases p <;> simp [below?]
  | cons n q ih =>
    cases p with
    | nil => simp [below?]
    | cons m p =>
      by_cases hm : m = n
      · simp [below?, hm, ih]
      · simp [below?, hm]

theorem rebase?_append (q t r : Path) : rebase? (q ++ t) q r = some (r ++ t) := by
  rw [rebase?, below?_eq_some_iff.mpr rfl, Option.map_some]

/-- What is at or below a path begins with it. -/
theorem eq_or_isBelow_iff {p q : Path} : p = q ∨ p.isBelow q = true ↔ ∃ t, p = q ++ t := by
  rw [isBelow, Bool.and_eq_true, List.isPrefixOf_iff_prefix, decide_eq_true_iff]
  constructor
  · rintro (rfl | ⟨⟨t, rfl⟩, _⟩)
    · exact ⟨[], (List.append_nil p).symm⟩
    · exact ⟨t, rfl⟩
  · rintro ⟨t, rfl⟩
    cases t with
    | nil => exact .inl (List.append_nil q)
    | cons n t => exact .inr ⟨List.prefix_append q _, by simp⟩

/-- The names joined by points. -/
def toDotted (p : Path) : String := String.intercalate "." p

def display (p : Path) : String := if p.isEmpty then "<root>" else toDotted p

def ofJson : Json.Decoder Path := Json.Decode.list Json.Decode.text

def toJson (p : Path) : Json := .arr (p.map .str)

end Path

end SharedScene
