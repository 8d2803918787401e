import SharedScene.Decimal.Shortest

/-!
# Writing TOML

Sections one after the other, a blank line between them, each with its header and one key to a
line. A double is positional and always shows a point. An integer beyond 64 bits with sign cannot be
written.

A text takes the first of these forms that can hold it without an escape (`Form.candidates`):

1. one line in double quotes;
2. one line in single quotes;
3. three double quotes;
4. three single quotes.

A backslash or three double quotes in a row need an escape between double quotes; between single
quotes nothing can be escaped, so three single quotes in a row cannot stand there. Forms of one line
hold no line break and none of their own quotes. A text with a control character needs an escape in
any form, and takes double quotes: three when it has a line break. A tab chooses no form, but is
escaped between double quotes. A line break comes after three quotes when the text has one; it does
not belong to the text.
-/

namespace SharedScene.Toml

/-- What stands under a key of a section. -/
inductive Scalar where
  | int (n : Int)
  | float (x : Float)
  | text (s : String)

/-- A table with its header. -/
structure Section where
  header : String
  entries : List (String × Scalar)

def singleQuote : Char := Char.ofNat 0x27

/-- The length of the longest row of `mark`, with `run` of them right before. -/
def longestRun (mark : Char) (run best : Nat) : List Char → Nat
  | [] => max run best
  | c :: rest =>
    if c = mark then longestRun mark (run + 1) best rest
    else longestRun mark 0 (max run best) rest

/-- Control characters, but for the tab and the line break: they are written as escapes only. -/
def needsEscape (c : Char) : Bool :=
  (c.toNat < 0x20 && c != '\t' && c != '\n') || c.toNat == 0x7F

/-- How a text is quoted: in double quotes with escapes or in single ones without, and by one quote
on each side or by three. -/
structure Form where
  escapes : Bool
  long : Bool
deriving DecidableEq, Repr

namespace Form

/-- The quote of a form. -/
def mark (f : Form) : Char := if f.escapes then '"' else singleQuote

/-- Whether a text can stand in a form as it is. -/
def holds (f : Form) (cs : List Char) : Bool :=
  !cs.any needsEscape && !(f.escapes && cs.contains '\\') &&
    (if f.long then decide (longestRun f.mark 0 0 cs < 3)
     else !cs.contains f.mark && !cs.contains '\n')

/-- The forms without an escape, the most welcome first. -/
def candidates : List Form := [⟨true, false⟩, ⟨false, false⟩, ⟨true, true⟩, ⟨false, true⟩]

/-- The form of a text. -/
def choose (cs : List Char) : Form :=
  (candidates.find? (·.holds cs)).getD ⟨true, cs.contains '\n'⟩

end Form

/-- The upper-case hexadecimal digit of a number below sixteen. -/
def hexChar (n : Nat) : Char :=
  if n < 10 then Char.ofNat ('0'.toNat + n) else Char.ofNat ('A'.toNat + (n - 10))

/-- A character other than the double quote, between double quotes; between three of them a line
break stands as it is. -/
def escape (long : Bool) (c : Char) : List Char :=
  match c.toNat with
  | 0x08 => ['\\', 'b']
  | 0x09 => ['\\', 't']
  | 0x0A => if long then [c] else ['\\', 'n']
  | 0x0C => ['\\', 'f']
  | 0x0D => ['\\', 'r']
  | 0x5C => ['\\', c]
  | n =>
    if n < 0x20 ∨ n = 0x7F then ['\\', 'u', '0', '0', hexChar (n / 16), hexChar (n % 16)] else [c]

/-- A text between double quotes. Between three of them up to two quotes in a row stand as they are,
and every third one is escaped; `run` counts those right before. -/
def escapeAll (long : Bool) (run : Nat) : List Char → List Char
  | [] => []
  | c :: rest =>
    if c = '"' then
      if long && decide (run < 2) then c :: escapeAll long (run + 1) rest
      else '\\' :: c :: escapeAll long 0 rest
    else escape long c ++ escapeAll long 0 rest

def quote (s : String) : String :=
  let cs := s.toList
  let f := Form.choose cs
  let marks := List.replicate (if f.long then 3 else 1) f.mark
  let lead := if f.long && cs.contains '\n' then ['\n'] else []
  String.ofList (marks ++ lead ++ (if f.escapes then escapeAll f.long 0 cs else cs) ++ marks)

def renderFloat (x : Float) : String :=
  let sign := if Decimal.isNegative x then "-" else ""
  if x.isNaN then sign ++ "nan"
  else if x.isInf then sign ++ "inf"
  else if x == 0.0 then sign ++ "0.0"
  else
    let d := Decimal.shortest x
    sign ++ d.positional ++ (if d.exponent ≥ 0 then ".0" else "")

/-- A scalar, unless it is too large an integer. -/
def Scalar.render? : Scalar → Option String
  | .int n => if -9223372036854775808 ≤ n ∧ n < 9223372036854775808 then some (toString n) else none
  | .float x => some (renderFloat x)
  | .text s => some (quote s)

/-- A section: its header and one line for each key. -/
def Section.render? (t : Section) : Option String := do
  let lines ← t.entries.mapM fun e => (e.2.render?).map fun v => e.1 ++ " = " ++ v ++ "\n"
  return "[" ++ t.header ++ "]\n" ++ String.join lines

/-- A document of sections; none when an integer in it cannot be written. -/
def render? (ts : List Section) : Option String := do
  return String.intercalate "\n" (← ts.mapM Section.render?)

end SharedScene.Toml
