import SharedScene.Text

/-!
# Parts of patterns

A pattern is a regular expression, and all that is asked of one here is whether it is well-formed.
What is well-formed depends on the **mode** at its place, which flags such as `(?i)` change.

Patterns are matched without tables of characters. In Unicode mode that leaves no meaning for the
classes `\d`, `\s`, `\w` and `\p`, for word boundaries, and for letters of which the case is
ignored. Out of it characters are bytes, the ones that are no ASCII may not be told apart, and
whatever could match one of them alone is refused.

In spaced mode blanks, and comments from a number sign to the end of the line, stand between the
parts of a pattern.
-/

namespace SharedScene.Pattern

/-- The flags at a place in a pattern that decide what is well-formed. -/
structure Mode where
  /-- The case of letters is ignored (`i`). -/
  ignoreCase : Bool
  /-- Characters are those of Unicode (`u`). -/
  unicode : Bool
  /-- Blanks and comments are left out (`x`). -/
  spaced : Bool
deriving DecidableEq, Repr

/-- The mode at the beginning of a pattern. -/
def Mode.initial : Mode := ⟨false, true, false⟩

/-- The characters after blanks and comments; the first ones may be in a comment. -/
def dropComments (inComment : Bool) : List Char → List Char
  | [] => []
  | c :: rest =>
    if inComment then dropComments (c != '\n') rest
    else if Text.isBlank c then dropComments false rest
    else if c = '#' then dropComments true rest
    else c :: rest

/-- The characters from the next part on. -/
def Mode.skip (m : Mode) (cs : List Char) : List Char :=
  if m.spaced then dropComments false cs else cs

/-- One part of a pattern that does not hold others. -/
inductive Part where
  /-- A character; one that is written as two hexadecimal digits is a byte. -/
  | literal (c : Char) (isByte : Bool)
  /-- An end of the text or of a line. -/
  | anchor
  | wordBoundary
  /-- A class with a letter for a name. -/
  | letterClass (negated : Bool)
deriving DecidableEq, Repr

/-- Whether a part may stand in a pattern. -/
def Part.isAllowed (m : Mode) : Part → Bool
  | .literal c isByte => if m.unicode then !m.ignoreCase else !(isByte && 0x80 ≤ c.toNat)
  | .anchor => true
  | .wordBoundary => !m.unicode
  | .letterClass negated => !m.unicode && !negated

/-- Whether a part may be an item between square brackets. -/
def Part.isItem (m : Mode) : Part → Bool
  | .literal c _ => if m.unicode then !m.ignoreCase else decide (c.toNat < 0x80)
  | .letterClass negated => !m.unicode && !negated
  | _ => false

/-! ## Escapes -/

/-- The number of so many hexadecimal digits, and what follows them. -/
def readHexDigits (m : Mode) : Nat → Nat → List Char → Option (Nat × List Char)
  | 0, n, cs => some (n, cs)
  | width + 1, n, cs =>
    match m.skip cs with
    | [] => none
    | c :: rest => do readHexDigits m width (n * 16 + (← Text.hexDigit? c)) rest

/-- The character that so many hexadecimal digits name. -/
def readHex (m : Mode) (width : Nat) (cs : List Char) : Option (Part × List Char) := do
  let (n, rest) ← readHexDigits m width 0 cs
  if n.isValidChar then return (.literal (Char.ofNat n) (width == 2), rest) else none

/-- Whether a backslash before the character makes a literal of it. -/
def isPlainEscape (c : Char) : Bool :=
  c.toNat < 0x80 && !c.isAlphanum && c != '<' && c != '>'

/-- The character of an escape of one letter. -/
def control? (c : Char) : Option Char :=
  match c with
  | 'a' => some (Char.ofNat 7)
  | 'f' => some (Char.ofNat 12)
  | 't' => some '\t'
  | 'n' => some '\n'
  | 'r' => some '\r'
  | 'v' => some (Char.ofNat 11)
  | _ => none

/-- The part that an escape stands for, after its backslash. -/
def readEscape (m : Mode) : List Char → Option (Part × List Char)
  | [] => none
  | 'x' :: rest => readHex m 2 rest
  | 'u' :: rest => readHex m 4 rest
  | 'U' :: rest => readHex m 8 rest
  | c :: rest =>
    if isPlainEscape c then some (.literal c false, rest)
    else if c = 'A' ∨ c = 'z' then some (.anchor, rest)
    else if c = 'b' ∨ c = 'B' ∨ c = '<' ∨ c = '>' then some (.wordBoundary, rest)
    else if c = 'd' ∨ c = 's' ∨ c = 'w' then some (.letterClass false, rest)
    else if c = 'D' ∨ c = 'S' ∨ c = 'W' then some (.letterClass true, rest)
    else (control? c).map fun e => (.literal e false, rest)

/-! ## Nesting -/

/-- How deep the parts of a pattern may nest. -/
def maxDepth : Nat := 250

/-- The depth of parts in a row: one more than the deepest, unless a part stands alone. -/
def depthOfRow : List Nat → Nat
  | [] => 0
  | [depth] => depth
  | depths => depths.foldl max 0 + 1

end SharedScene.Pattern
