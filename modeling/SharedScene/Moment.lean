import SharedScene.Instant
import SharedScene.Json.Decode

/-!
# Moments

A point in time as a text can spell it: to the nanosecond, and with **leap seconds**. A leap second
follows the second 59 of a minute and is counted as a billion more nanoseconds of it, so that the
number of seconds since 1970 leaves it out, and order is that of the two numbers. Every instant is
a moment, in the same order (`ofInstant_le_ofInstant`).

A moment is written as an instant is, in UTC, with three, six or nine digits of a second or none,
whichever is enough. The reader takes more than that: any offset, `UTC` in place of `Z`, blanks
around the marks of a date and of a time, and a leap second in any minute.
-/

namespace SharedScene

/-- A point in time. -/
structure Moment where
  /-- Seconds since the beginning of 1970 in UTC, leap seconds left out. -/
  seconds : Int
  /-- Nanoseconds of the second; a leap second has a billion more than the one before it. -/
  nanos : Nat
deriving DecidableEq, Repr

namespace Moment

def perSecond : Nat := 1000000000

/-- Moments are in the order of their seconds, then of their nanoseconds. -/
def NotAfter (a b : Moment) : Prop :=
  a.seconds < b.seconds ∨ (a.seconds = b.seconds ∧ a.nanos ≤ b.nanos)

instance : LE Moment := ⟨NotAfter⟩

instance : DecidableLE Moment := fun a b =>
  inferInstanceAs (Decidable (a.seconds < b.seconds ∨ (a.seconds = b.seconds ∧ a.nanos ≤ b.nanos)))

def ofInstant (t : Instant) : Moment :=
  ⟨Int.fdiv t 1000, (Int.fmod t 1000).toNat * 1000000⟩

/-- Instants keep their order. -/
theorem ofInstant_le_ofInstant (s t : Int) : ofInstant s ≤ ofInstant t ↔ s ≤ t := by
  change Int.fdiv s 1000 < Int.fdiv t 1000 ∨ (Int.fdiv s 1000 = Int.fdiv t 1000 ∧
    (Int.fmod s 1000).toNat * 1000000 ≤ (Int.fmod t 1000).toNat * 1000000) ↔ s ≤ t
  simp only [Int.fdiv_eq_ediv_of_nonneg _ (by decide : (0 : Int) ≤ 1000),
    Int.fmod_eq_emod_of_nonneg _ (by decide : (0 : Int) ≤ 1000)]
  omega

/-! ## Writing -/

/-- Digits of a second: none, three, six or nine. -/
def renderFraction (nanos : Nat) : String :=
  if nanos = 0 then ""
  else if nanos % 1000000 = 0 then "." ++ Text.padZeros 3 (nanos / 1000000)
  else if nanos % 1000 = 0 then "." ++ Text.padZeros 6 (nanos / 1000)
  else "." ++ Text.padZeros 9 nanos

def perDay : Int := 86400

def date (m : Moment) : Date := Date.ofDays (Int.fdiv m.seconds perDay)

/-- A moment as RFC 3339 has it, in UTC. -/
def render (m : Moment) : String :=
  let s := (Int.fmod m.seconds perDay).toNat
  m.date.render ++ "T" ++ Text.padZeros 2 (s / 3600) ++ ":" ++ Text.padZeros 2 (s / 60 % 60) ++
    ":" ++ Text.padZeros 2 (s % 60 + m.nanos / perSecond) ++
    renderFraction (m.nanos % perSecond) ++ "Z"

def toJson (m : Moment) : Json := .str m.render

/-! ## Reading -/

/-- The number of the digits at the start, at most `width` of them and at least one. -/
def readDigits (width : Nat) (cs : List Char) : Option (Nat × List Char) := do
  let digits := (cs.take width).takeWhile fun c => (Text.digit? c).isSome
  if digits.isEmpty then none
  else return (← Text.natOfDigits? digits, cs.drop digits.length)

/-- A number of at most two digits, after blanks. -/
def readNumber (cs : List Char) : Option (Nat × List Char) := readDigits 2 (Text.dropBlanks cs)

/-- A year, after blanks: four digits at most, or any number of them right after a sign. -/
def readYear (cs : List Char) : Option (Int × List Char) :=
  match Text.dropBlanks cs with
  | '-' :: rest => do
    let (n, rest) ← readDigits rest.length rest
    return (-(n : Int), rest)
  | '+' :: rest => do
    let (n, rest) ← readDigits rest.length rest
    return ((n : Int), rest)
  | cs => do
    let (n, rest) ← readDigits 4 cs
    return ((n : Int), rest)

/-- The rest after one character, blanks in front of it left out. -/
def readMark (mark : Char) (cs : List Char) : Option (List Char) :=
  match Text.dropBlanks cs with
  | c :: rest => if c = mark then some rest else none
  | [] => none

/-- The nanoseconds of a fraction of a second; digits beyond the ninth are left out. -/
def readFraction (cs : List Char) : Option (Nat × List Char) :=
  match cs with
  | '.' :: rest => do
    let digits := rest.takeWhile fun c => (Text.digit? c).isSome
    if digits.isEmpty then none
    else return (← Text.natOfDigits? ((digits ++ List.replicate 8 '0').take 9),
      rest.drop digits.length)
  | _ => some (0, cs)

/-- Whether the sign of an offset points east; a minus may be a hyphen or the sign U+2212. -/
def eastward? (c : Char) : Option Bool :=
  if c = '+' then some true
  else if c = '-' ∨ c = '\u2212' then some false
  else none

/-- An offset in hours and minutes, as minutes east of UTC; any number of colons and blanks may
stand between the two. -/
def readHoursAndMinutes (cs : List Char) : Option (Int × List Char) :=
  match cs with
  | sign :: a :: b :: rest => do
    let east ← eastward? sign
    let hours ← Text.natOfDigits? [a, b]
    match rest.dropWhile fun c => c == ':' || Text.isBlank c with
    | c :: d :: rest =>
      let minutes ← Text.natOfDigits? [c, d]
      let offset : Int := (hours * 60 + minutes : Nat)
      if minutes < 60 ∧ hours < 24 then some (if east then offset else -offset, rest) else none
    | _ => none
  | _ => none

/-- The minutes east of UTC that an offset names: `UTC` in any case, `Z`, or hours and minutes. -/
def readOffset (cs : List Char) : Option (Int × List Char) :=
  if (cs.take 3).map Char.toLower = ['u', 't', 'c'] then some (0, cs.drop 3)
  else match cs with
    | 'Z' :: rest => some (0, rest)
    | 'z' :: rest => some (0, rest)
    | cs => readHoursAndMinutes cs

/-- The moment of a time of day, with an offset in minutes; the second 60 is a leap second. -/
def ofParts (date : Date) (hour minute second nanos : Nat) (offset : Int) : Option Moment := do
  if !date.isValid || !Date.hasYear date.year || hour ≥ 24 || minute ≥ 60 || second > 60 then none
  let leap := second / 60
  let m : Moment :=
    ⟨date.toDays * perDay + ((hour * 60 + minute : Nat) - offset) * 60 + (second - leap : Nat),
      leap * perSecond + nanos⟩
  if Date.hasYear m.date.year then some m else none

/-- The moment that a text spells: a date, then a time with an offset from UTC. -/
def read? (s : String) : Option Moment := do
  let (year, cs) ← readYear s.toList
  let (month, cs) ← readNumber (← readMark '-' cs)
  let (day, cs) ← readNumber (← readMark '-' cs)
  let cs ← match cs with
    | c :: rest => if c = 'T' ∨ c = 't' ∨ c = ' ' then some rest else none
    | [] => none
  let (hour, cs) ← readNumber cs
  let (minute, cs) ← readNumber (← readMark ':' cs)
  let (second, cs) ← readNumber (← readMark ':' cs)
  let (nanos, cs) ← readFraction cs
  let (offset, cs) ← readOffset (Text.dropBlanks cs)
  if !(Text.dropBlanks cs).isEmpty then none
  ofParts ⟨year, month, day⟩ hour minute second nanos offset

def ofJson : Json.Decoder Moment := fun v => do
  match read? (← Json.Decode.text v) with
  | some m => return m
  | none => throw (.expected "a date and time")

end Moment

end SharedScene
