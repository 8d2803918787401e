import SharedScene.Text
import SharedScene.Json.Basic

/-!
# Reading JSON

One value, with nothing but blanks after it. Objects keep a name that is written twice; text holds
no bare control character.

The grammar says what is a document, and the reader refuses nothing else. Some of what it lets pass
is no value: a number too large for a double, a text with half of a surrogate pair, an object with
such a text for a name, and arrays and objects that nest more than 127 deep. They are unreadable
parts of the result. Below the last level nothing is kept, so the reader only walks over it, with
a list of the brackets that are open.

## Numbers

The **significand** of a number is its row of digits as long as that fits into 64 bits; digits
beyond are left out, and each one left out before the point counts as one more power of ten. A
number without point and exponent, none of whose digits was left out, is an integer. Any other is
the double nearest to the significand, scaled by one multiplication or one division by a power of
ten. That is correctly rounded for every number of up to fifteen digits and a small exponent, and
the rule itself beyond. A number too small for a double is zero.
-/

namespace SharedScene.Json

/-- Why a text is not a JSON value. -/
inductive ReadError where
  | endOfText
  | unexpected (c : Char)
  | trailing
  | tooLong
  | controlCharacter
  | badEscape
deriving DecidableEq, Repr

def ReadError.message : ReadError → String
  | .endOfText => "unexpected end of text"
  | .unexpected c => "unexpected character " ++ c.quote
  | .trailing => "trailing characters"
  | .tooLong => "text too long"
  | .controlCharacter => "control character in text"
  | .badEscape => "invalid escape"

/-- What a reader has found, and the characters after it. -/
abbrev Found (α : Type) := α × List Char

/-- How deep arrays and objects may nest. -/
def maxDepth : Nat := 127

/-- A reader that met `cs` where something else should stand. -/
def unexpected {α : Type} : List Char → Except ReadError α
  | [] => .error .endOfText
  | c :: _ => .error (.unexpected c)

/-- Blanks between the parts of a value. -/
def isSpace (c : Char) : Bool :=
  c == ' ' || c == '\n' || c == '\t' || c == '\r'

/-- The characters from the first that is no blank. -/
def skipSpace (cs : List Char) : List Char := cs.dropWhile isSpace

/-! ## Numbers -/

/-- Digits that went into a significand, digits left out of it, and what follows them. -/
structure Digits where
  significand : Nat
  taken : Nat
  leftOut : Nat
  rest : List Char

/-- Takes digits into a significand as long as it fits into 64 bits. -/
def takeDigits (significand taken : Nat) : List Char → Digits
  | [] => ⟨significand, taken, 0, []⟩
  | c :: rest =>
    match Text.digit? c with
    | none => ⟨significand, taken, 0, c :: rest⟩
    | some d =>
      if significand * 10 + d < Nat.pow 2 64 then takeDigits (significand * 10 + d) (taken + 1) rest
      else
        let isDigit := fun c => (Text.digit? c).isSome
        ⟨significand, taken, ((c :: rest).takeWhile isDigit).length,
          (c :: rest).dropWhile isDigit⟩

/-- A power of ten as a double. -/
def powerOfTen (n : Nat) : Float := Float.ofScientific 1 false n

/-- A double scaled by a power of ten: one multiplication or division, after divisions by `10^308`
for an exponent below `-308`; none when the result is too large. -/
def scale? : Nat → Float → Int → Option Float
  | 0, x, _ => some x
  | fuel + 1, x, e =>
    if e.natAbs ≤ 308 then
      if e ≥ 0 then
        let y := x * powerOfTen e.natAbs
        if y.isInf then none else some y
      else some (x / powerOfTen e.natAbs)
    else if x == 0.0 then some x
    else if e ≥ 0 then none
    else scale? fuel (x / powerOfTen 308) (e + 308)

/-- The double of a sign, a significand and a decimal exponent. -/
def floatOf (negative : Bool) (significand : Nat) (e : Int) : Json :=
  match scale? 8 (Float.ofScientific significand false 0) e with
  | some x => .num (.float (if negative then -x else x))
  | none => .unreadable

/-- The largest exponent that is counted; digits beyond make the number zero or too large. -/
def maxExponent : Nat := Nat.pow 2 31 - 1

/-- The exponent part after its `e`. -/
def readExponent (negative : Bool) (significand : Nat) (e : Int) (cs : List Char) :
    Except ReadError (Found Json) := do
  let (down, cs) := match cs with
    | '+' :: rest => (false, rest)
    | '-' :: rest => (true, rest)
    | _ => (false, cs)
  let isDigit := fun c => (Text.digit? c).isSome
  let digits := cs.takeWhile isDigit
  let rest := cs.dropWhile isDigit
  if digits.isEmpty then unexpected cs
  else
    let power := (Text.natOfDigits? digits).getD 0
    if power > maxExponent then
      if significand ≠ 0 ∧ down = false then return (.unreadable, rest)
      else return (.num (.float (if negative then -0.0 else 0.0)), rest)
    else
      return (floatOf negative significand (if down then e - power else e + power), rest)

/-- What may follow the digits of a number with a point or with digits left out. -/
def readTail (negative : Bool) (significand : Nat) (e : Int) (cs : List Char) :
    Except ReadError (Found Json) :=
  match cs with
  | 'e' :: rest => readExponent negative significand e rest
  | 'E' :: rest => readExponent negative significand e rest
  | _ => .ok (floatOf negative significand e, cs)

/-- The fraction after the point. -/
def readFraction (negative : Bool) (significand leftOut : Nat) (cs : List Char) :
    Except ReadError (Found Json) :=
  let ds := takeDigits significand 0 cs
  if ds.taken = 0 ∧ ds.leftOut = 0 then unexpected ds.rest
  else readTail negative ds.significand ((leftOut : Int) - ds.taken) ds.rest

/-- A number without point and exponent. -/
def integer (negative : Bool) (n : Nat) : Json :=
  if negative = false then .num (.int n)
  else if n = 0 ∨ n > Nat.pow 2 63 then .num (.float (-(Float.ofScientific n false 0)))
  else .num (.int (-(n : Int)))

/-- A number after its sign. -/
def readNumber (negative : Bool) (cs : List Char) : Except ReadError (Found Json) := do
  let ds := takeDigits 0 0 cs
  if ds.taken = 0 then unexpected cs
  else if cs.head? = some '0' ∧ ds.taken + ds.leftOut > 1 then unexpected (cs.drop 1)
  else match ds.rest with
    | '.' :: rest => readFraction negative ds.significand ds.leftOut rest
    | 'e' :: _ => readTail negative ds.significand ds.leftOut ds.rest
    | 'E' :: _ => readTail negative ds.significand ds.leftOut ds.rest
    | rest =>
      if ds.leftOut = 0 then return (integer negative ds.significand, rest)
      else readTail negative ds.significand ds.leftOut rest

/-! ## Text -/

/-- The number that four hexadecimal digits spell. -/
def hex4? (a b c d : Char) : Option Nat := do
  return ((← Text.hexDigit? a) * 16 + (← Text.hexDigit? b)) * 256 +
    ((← Text.hexDigit? c) * 16 + (← Text.hexDigit? d))

/-- The character of an escape of one letter. -/
def unescape? (c : Char) : Option Char :=
  match c with
  | '"' => some c
  | '\\' => some c
  | '/' => some c
  | 'b' => some (Char.ofNat 8)
  | 'f' => some (Char.ofNat 12)
  | 'n' => some '\n'
  | 'r' => some '\r'
  | 't' => some '\t'
  | _ => none

/-- The rest after the second half of a surrogate pair, and the character of the pair. -/
def pairWith? (high : Nat) (cs : List Char) : Option (Found Char) :=
  match cs with
  | '\\' :: 'u' :: a :: b :: c :: d :: rest => do
    let low ← hex4? a b c d
    if 0xDC00 ≤ low ∧ low < 0xE000 then
      some (Char.ofNat (0x10000 + (high - 0xD800) * 0x400 + (low - 0xDC00)), rest)
    else none
  | _ => none

/-- The characters so far and one more, while all of them could be read. -/
def push (c : Char) (read : Option (List Char)) : Option (List Char) := read.map (c :: ·)

/-- A text after its opening quote, or none if it holds half of a surrogate pair; `read` holds the
characters so far, the last one first. Every step takes a character, so the length of the text is
fuel enough. -/
def readText : Nat → Option (List Char) → List Char → Except ReadError (Found (Option String))
  | 0, _, _ => .error .tooLong
  | _ + 1, _, [] => .error .endOfText
  | _ + 1, read, '"' :: rest => .ok (read.map fun cs => String.ofList cs.reverse, rest)
  | fuel + 1, read, '\\' :: 'u' :: a :: b :: c :: d :: rest =>
    match hex4? a b c d with
    | none => .error .badEscape
    | some n =>
      if 0xD800 ≤ n ∧ n < 0xDC00 then
        match pairWith? n rest with
        | some (c, rest) => readText fuel (push c read) rest
        | none => readText fuel none rest
      else if 0xDC00 ≤ n ∧ n < 0xE000 then readText fuel none rest
      else readText fuel (push (Char.ofNat n) read) rest
  | fuel + 1, read, '\\' :: c :: rest =>
    match unescape? c with
    | none => .error .badEscape
    | some e => readText fuel (push e read) rest
  | fuel + 1, read, c :: rest =>
    if c = '\\' then .error .endOfText
    else if c.toNat < 0x20 then .error .controlCharacter
    else readText fuel (push c read) rest

/-- A text after its opening quote. -/
def readQuoted (cs : List Char) : Except ReadError (Found (Option String)) :=
  readText (cs.length + 1) (some []) cs

/-! ## Values -/

/-- The rest after a word that is written out. -/
def expect (word : List Char) (v : Json) (cs : List Char) : Except ReadError (Found Json) :=
  match word, cs with
  | [], rest => .ok (v, rest)
  | w :: word, c :: rest => if c = w then expect word v rest else .error (.unexpected c)
  | _ :: _, [] => .error .endOfText

/-- A text as a value. -/
def textValue : Option String → Json
  | some s => .str s
  | none => .unreadable

/-- Members as an object; a name that could not be read spoils it. -/
def objectValue (members : List (Option String × Json)) : Json :=
  match members.mapM fun m => m.1.map fun name => (name, m.2) with
  | some members => .obj members
  | none => .unreadable

/-- A value that is no array and no object. -/
def readPlain (cs : List Char) : Except ReadError (Found Json) :=
  match cs with
  | [] => .error .endOfText
  | '"' :: rest => do
    let (s, rest) ← readQuoted rest
    return (textValue s, rest)
  | '-' :: rest => readNumber true rest
  | 'n' :: rest => expect ['u', 'l', 'l'] .null rest
  | 't' :: rest => expect ['r', 'u', 'e'] (.bool true) rest
  | 'f' :: rest => expect ['a', 'l', 's', 'e'] (.bool false) rest
  | rest => readNumber false rest

/-- The rest after the name of a member and its colon. -/
def readName (cs : List Char) : Except ReadError (Found (Option String)) :=
  match skipSpace cs with
  | '"' :: rest => do
    let (name, rest) ← readQuoted rest
    match skipSpace rest with
    | ':' :: rest => return (name, rest)
    | rest => unexpected rest
  | rest => unexpected rest

/-! ### Walking over values -/

/-- What opened an array or an object that is not closed yet. -/
inductive Bracket where
  | square
  | curly
deriving DecidableEq, Repr

def Bracket.closing : Bracket → Char
  | .square => ']'
  | .curly => '\x7d'

/-- The rest after a comma and, in an object, the name behind it. -/
def nextItem (b : Bracket) (cs : List Char) : Except ReadError (List Char) :=
  match b with
  | .square => .ok cs
  | .curly => (readName cs).map (·.2)

/-- The brackets that stay open after a value, and the rest from the next value on. -/
def closeAll : List Bracket → List Char → Except ReadError (List Bracket × List Char)
  | [], cs => .ok ([], cs)
  | b :: outer, cs =>
    match skipSpace cs with
    | [] => .error .endOfText
    | c :: rest =>
      if c = b.closing then closeAll outer rest
      else if c = ',' then do return (b :: outer, ← nextItem b rest)
      else .error (.unexpected c)

/-- The brackets that are open after an opening one, and the rest from the next value on. -/
def openOne (b : Bracket) (outer : List Bracket) (cs : List Char) :
    Except ReadError (List Bracket × List Char) :=
  match skipSpace cs with
  | [] => .error .endOfText
  | c :: rest =>
    if c = b.closing then closeAll outer rest
    else do return (b :: outer, ← nextItem b (c :: rest))

/-- The brackets that are open after the beginning of a value, and the rest from the next value
on. -/
def walkValue (outer : List Bracket) (cs : List Char) :
    Except ReadError (List Bracket × List Char) :=
  match skipSpace cs with
  | '[' :: rest => openOne .square outer rest
  | '\x7b' :: rest => openOne .curly outer rest
  | cs => do closeAll outer (← readPlain cs).2

/-- The rest after the brackets that are open. -/
def walk : Nat → List Bracket → List Char → Except ReadError (List Char)
  | 0, _, _ => .error .tooLong
  | _ + 1, [], cs => .ok cs
  | fuel + 1, outer, cs => do
    let (outer, rest) ← walkValue outer cs
    walk fuel outer rest

/-- The rest after an array or an object, after its opening bracket. -/
def skipRest (b : Bracket) (cs : List Char) : Except ReadError (List Char) := do
  let (outer, rest) ← openOne b [] cs
  walk (rest.length + 1) outer rest

/-! ### Reading values -/

mutual

/-- One value, after blanks; `depth` levels of nesting are left. -/
def readValue (depth : Nat) : Nat → List Char → Except ReadError (Found Json)
  | 0, _ => .error .tooLong
  | fuel + 1, cs =>
    match skipSpace cs with
    | '[' :: rest =>
      if depth = 0 then do return (.unreadable, ← skipRest .square rest)
      else match skipSpace rest with
        | ']' :: rest => .ok (.arr [], rest)
        | rest => readItems (depth - 1) [] fuel rest
    | '\x7b' :: rest =>
      if depth = 0 then do return (.unreadable, ← skipRest .curly rest)
      else match skipSpace rest with
        | '\x7d' :: rest => .ok (.obj [], rest)
        | rest => readMembers (depth - 1) [] fuel rest
    | rest => readPlain rest

/-- The items of an array, one at least; `read` holds the items so far, the last one first. -/
def readItems (depth : Nat) (read : List Json) :
    Nat → List Char → Except ReadError (Found Json)
  | 0, _ => .error .tooLong
  | fuel + 1, cs => do
    let (v, rest) ← readValue depth fuel cs
    match skipSpace rest with
    | ']' :: rest => return (.arr (v :: read).reverse, rest)
    | ',' :: rest => readItems depth (v :: read) fuel rest
    | rest => unexpected rest

/-- The members of an object, one at least; `read` holds the members so far, the last one first. -/
def readMembers (depth : Nat) (read : List (Option String × Json)) :
    Nat → List Char → Except ReadError (Found Json)
  | 0, _ => .error .tooLong
  | fuel + 1, cs => do
    let (name, rest) ← readName cs
    let (v, rest) ← readValue depth fuel rest
    match skipSpace rest with
    | '\x7d' :: rest => return (objectValue ((name, v) :: read).reverse, rest)
    | ',' :: rest => readMembers depth ((name, v) :: read) fuel rest
    | rest => unexpected rest

end

/-- The value that a whole text spells, names written twice included.

Every step of the reader takes a character or goes one level down to one that does, so twice the
length of the text is fuel enough. -/
def read (s : String) : Except ReadError Json := do
  let cs := s.toList
  let (v, rest) ← readValue maxDepth (2 * cs.length + 2) cs
  match skipSpace rest with
  | [] => return v
  | _ => throw .trailing

end SharedScene.Json
