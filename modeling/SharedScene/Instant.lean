import SharedScene.Text
import SharedScene.Json.Basic

/-!
# Instants

A point in time is the number of milliseconds since the beginning of 1970 in UTC, and a duration is
a number of milliseconds. The calendar is the proleptic Gregorian one: 400 years are 146097 days,
and counting them from the first of March puts the leap day at the end of a year.

An instant is written as RFC 3339 has it, with three digits of a second when it is not a whole one.
Years before 0 and after 9999 carry a sign. What a text can say of a point in time is finer than
that, and has a type of its own (`Moment`).
-/

namespace SharedScene

/-- Milliseconds since the beginning of 1970 in UTC. -/
abbrev Instant := Int

/-- A date of the calendar. -/
structure Date where
  year : Int
  month : Nat
  day : Nat
deriving DecidableEq, Repr

namespace Date

/-- The date of a day, counted from the first of January 1970. -/
def ofDays (days : Int) : Date :=
  let z := days + 719468
  let era := z.fdiv 146097
  let dayOfEra := (z - era * 146097).toNat
  let yearOfEra := (dayOfEra - dayOfEra / 1460 + dayOfEra / 36524 - dayOfEra / 146096) / 365
  let dayOfYear := dayOfEra - (365 * yearOfEra + yearOfEra / 4 - yearOfEra / 100)
  let shifted := (5 * dayOfYear + 2) / 153
  let month := if shifted < 10 then shifted + 3 else shifted - 9
  { year := yearOfEra + era * 400 + (if month ≤ 2 then 1 else 0)
    month
    day := dayOfYear - (153 * shifted + 2) / 5 + 1 }

/-- The day of a date, counted from the first of January 1970. -/
def toDays (d : Date) : Int :=
  let year := if d.month ≤ 2 then d.year - 1 else d.year
  let era := year.fdiv 400
  let yearOfEra := (year - era * 400).toNat
  let shifted := if d.month > 2 then d.month - 3 else d.month + 9
  let dayOfYear := (153 * shifted + 2) / 5 + d.day - 1
  let dayOfEra := yearOfEra * 365 + yearOfEra / 4 - yearOfEra / 100 + dayOfYear
  era * 146097 + dayOfEra - 719468

def isValid (d : Date) : Bool := d.month ≠ 0 && d.month ≤ 12 && decide (ofDays d.toDays = d)

def hasYear (year : Int) : Bool := decide (-262143 ≤ year) && decide (year ≤ 262142)

/-- The year of a date as it is written. -/
def renderYear (year : Int) : String :=
  if 0 ≤ year ∧ year ≤ 9999 then Text.padZeros 4 year.toNat
  else (if year < 0 then "-" else "+") ++ Text.padZeros 4 year.natAbs

def render (d : Date) : String :=
  renderYear d.year ++ "-" ++ Text.padZeros 2 d.month ++ "-" ++ Text.padZeros 2 d.day

end Date

namespace Instant

def perDay : Int := 86400000

/-- The first instant that has a date: the years reach back to -262143. -/
def first : Instant := (⟨-262143, 1, 1⟩ : Date).toDays * perDay

/-- The last instant that has a date, at the end of the year 262142. -/
def last : Instant := ((⟨262142, 12, 31⟩ : Date).toDays + 1) * perDay - 1

def hasDate (t : Instant) : Bool := decide (first ≤ t) && decide (t ≤ last)

/-- The time of the day of an instant as it is written. -/
def renderTime (t : Instant) : String :=
  let ms := (Int.fmod t perDay).toNat
  let fraction := if ms % 1000 = 0 then "" else "." ++ Text.padZeros 3 (ms % 1000)
  Text.padZeros 2 (ms / 3600000) ++ ":" ++ Text.padZeros 2 (ms / 60000 % 60) ++ ":" ++
    Text.padZeros 2 (ms / 1000 % 60) ++ fraction

def date (t : Instant) : Date := Date.ofDays (Int.fdiv t perDay)

/-- An instant as RFC 3339 has it, in UTC. -/
def render (t : Instant) : String := (date t).render ++ "T" ++ renderTime t ++ "Z"

def display (t : Instant) : String := (date t).render ++ " " ++ renderTime t ++ " UTC"

def toJson (t : Instant) : Json := .str (render t)

end Instant

end SharedScene
