import SharedScene.Decimal.Nearest
import SharedScene.Text

/-!
# Reading numbers

Numbers as a person writes them. A natural number may have a plus sign and zeros in front, nothing
else; of its characters, the first that is no digit or that makes the number too large decides which
fault it has. A double is written with a point, an exponent or both, or by a name (`inf`,
`infinity`, `nan`) in either case.
-/

namespace SharedScene

/-- Why a text is not a number. -/
inductive NumberFault where
  | emptyInteger
  | badDigit
  | tooLarge
  | emptyFloat
  | badFloat
deriving DecidableEq, Repr

def NumberFault.message : NumberFault → String
  | .emptyInteger => "cannot parse integer from empty string"
  | .badDigit => "invalid digit found in string"
  | .tooLarge => "number too large to fit in target type"
  | .emptyFloat => "cannot parse float from empty string"
  | .badFloat => "invalid float literal"

namespace Text

/-- The number below `bound` that digits spell, `acc` before them. -/
def natFrom (bound acc : Nat) : List Char → Except NumberFault Nat
  | [] => .ok acc
  | c :: rest =>
    match digit? c with
    | none => .error .badDigit
    | some d => if acc * 10 + d < bound then natFrom bound (acc * 10 + d) rest else .error .tooLarge

/-- The natural number below `bound` that a text spells. -/
def readNat (bound : Nat) (s : String) : Except NumberFault Nat :=
  match s.toList with
  | [] => .error .emptyInteger
  | ['+'] => .error .badDigit
  | '+' :: digits => natFrom bound 0 digits
  | digits => natFrom bound 0 digits

/-- Digits at the start of a list of characters, and the rest. -/
def spanDigits (cs : List Char) : List Char × List Char :=
  cs.span fun c => (digit? c).isSome

/-- The power of ten after an `e`, or zero when nothing is left. -/
def exponentPart (cs : List Char) : Option Int :=
  match cs with
  | [] => some 0
  | e :: rest =>
    if e = 'e' ∨ e = 'E' then
      let (negative, digits) := match rest with
        | '+' :: digits => (false, digits)
        | '-' :: digits => (true, digits)
        | digits => (false, digits)
      if digits.isEmpty then none
      else (natOfDigits? digits).map fun n => if negative then -(n : Int) else n
    else none

/-- The magnitude that a decimal without sign spells. -/
def decimalMagnitude (cs : List Char) : Option Float := do
  let (whole, rest) := spanDigits cs
  let (fraction, rest) := match rest with
    | '.' :: rest => spanDigits rest
    | rest => ([], rest)
  if whole.isEmpty && fraction.isEmpty then none
  let power ← exponentPart rest
  let digits ← natOfDigits? (whole ++ fraction)
  return Decimal.nearest digits (power - fraction.length)

/-- The magnitude that a number or a name without sign spells. -/
def magnitude (cs : List Char) : Option Float :=
  let name := String.ofList (cs.map Char.toLower)
  if name = "inf" ∨ name = "infinity" then some Decimal.infinity
  else if name = "nan" then some (0.0 / 0.0)
  else decimalMagnitude cs

/-- The double that a text spells. -/
def readFloat (s : String) : Except NumberFault Float :=
  match s.toList with
  | [] => .error .emptyFloat
  | '-' :: cs => (magnitude cs).elim (.error .badFloat) fun x => .ok (-x)
  | '+' :: cs => (magnitude cs).elim (.error .badFloat) .ok
  | cs => (magnitude cs).elim (.error .badFloat) .ok

end Text

end SharedScene
