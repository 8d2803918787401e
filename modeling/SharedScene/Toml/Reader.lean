import SharedScene.Decimal.Nearest
import SharedScene.Text
import SharedScene.Toml.Table

/-!
# Reading TOML

A document is a sequence of lines: a key with its value, the header of a table, or nothing, each
with a comment behind it if it likes. The result is one object. Integers have at most 64 bits with
sign; a double is the nearest one, and one that is too large is refused. A date or a time of day is
an object with one member, its text: no key of a configuration holds one, but keys that nobody asks
for may.

A dotted key has less than 80 parts, and arrays and inline tables nest less than 80 deep.

The line break is a line feed; a carriage return in front of it belongs to it, and stands nowhere
else.
-/

namespace SharedScene.Toml

/-- Why a text is not a TOML document. -/
inductive ReadError where
  | endOfText
  | unexpected (c : Char)
  | badValue
  | badEscape
  | tooDeep
  | repeatedKey (key : String)
deriving DecidableEq, Repr

def ReadError.message : ReadError → String
  | .endOfText => "unexpected end of text"
  | .unexpected c => "unexpected character " ++ c.quote
  | .badValue => "invalid value"
  | .badEscape => "invalid escape"
  | .tooDeep => "nested too deeply"
  | .repeatedKey key => "duplicate key " ++ key

/-- What a reader has found, and the characters after it. -/
abbrev Found (α : Type) := α × List Char

/-- A reader that met `cs` where something else should stand. -/
def unexpected {α : Type} : List Char → Except ReadError α
  | [] => .error .endOfText
  | c :: _ => .error (.unexpected c)

/-- A clash as a fault of the document. -/
def ofClash {α : Type} : Except Clash α → Except ReadError α
  | .ok a => .ok a
  | .error (.key name) => .error (.repeatedKey name)

/-! ## Characters -/

/-- Blanks within a line. -/
def isSpace (c : Char) : Bool := c == ' ' || c == '\t'

/-- The characters from the first that is no blank. -/
def skipSpace (cs : List Char) : List Char := cs.dropWhile isSpace

/-- Characters that may stand in a text or a comment. -/
def isPrintable (c : Char) : Bool := c == '\t' || (0x20 ≤ c.toNat && c.toNat != 0x7F)

/-- Characters of a key without quotes. -/
def isBare (c : Char) : Bool := c.isAlphanum || c == '_' || c == '-'

/-- Line breaks as single line feeds. -/
def joinBreaks : List Char → List Char
  | '\r' :: '\n' :: rest => '\n' :: joinBreaks rest
  | c :: rest => c :: joinBreaks rest
  | [] => []

/-- The rest after the end of a line, a comment in front of it included. -/
def endLine (cs : List Char) : Except ReadError (List Char) :=
  let cs := match skipSpace cs with
    | '#' :: rest => rest.dropWhile isPrintable
    | rest => rest
  match cs with
  | [] => .ok []
  | '\n' :: rest => .ok rest
  | c :: _ => .error (.unexpected c)

/-- The rest after blanks, comments and line breaks. -/
def skipLines : Nat → List Char → List Char
  | 0, cs => cs
  | fuel + 1, cs =>
    match skipSpace cs with
    | '\n' :: rest => skipLines fuel rest
    | '#' :: rest =>
      match rest.dropWhile isPrintable with
      | '\n' :: rest => skipLines fuel rest
      | rest => rest
    | rest => rest

/-! ## Text -/

/-- The character that hexadecimal digits name. -/
def charOfHex? (digits : List Char) : Option Char := do
  let n ← digits.foldlM (fun acc c => (Text.hexDigit? c).map (acc * 16 + ·)) 0
  if n < 0xD800 ∨ (0xE000 ≤ n ∧ n < 0x110000) then some (Char.ofNat n) else none

/-- The character of an escape, after its backslash. -/
def readEscape (cs : List Char) : Except ReadError (Found Char) :=
  let named (width : Nat) (rest : List Char) : Except ReadError (Found Char) :=
    if rest.length < width then .error .endOfText
    else match charOfHex? (rest.take width) with
      | some c => .ok (c, rest.drop width)
      | none => .error .badEscape
  match cs with
  | [] => .error .endOfText
  | 'b' :: rest => .ok (Char.ofNat 8, rest)
  | 't' :: rest => .ok ('\t', rest)
  | 'n' :: rest => .ok ('\n', rest)
  | 'f' :: rest => .ok (Char.ofNat 12, rest)
  | 'r' :: rest => .ok ('\r', rest)
  | '"' :: rest => .ok ('"', rest)
  | '\\' :: rest => .ok ('\\', rest)
  | 'u' :: rest => named 4 rest
  | 'U' :: rest => named 8 rest
  | _ => .error .badEscape

/-- Whether text is taken as it stands or with escapes, and its quote. -/
structure Quoting where
  mark : Char
  escapes : Bool

/-- Text in double quotes. -/
def basic : Quoting := ⟨'"', true⟩

/-- Text in single quotes. -/
def literal : Quoting := ⟨Char.ofNat 0x27, false⟩

/-- A text on one line after its opening quote; `read` holds the characters so far, the last one
first. -/
def readLineText (q : Quoting) : Nat → List Char → List Char → Except ReadError (Found String)
  | 0, _, _ => .error .tooDeep
  | _ + 1, _, [] => .error .endOfText
  | fuel + 1, read, c :: rest =>
    if c = q.mark then .ok (String.ofList read.reverse, rest)
    else if c = '\\' ∧ q.escapes then do
      let (e, rest) ← readEscape rest
      readLineText q fuel (e :: read) rest
    else if isPrintable c then readLineText q fuel (c :: read) rest
    else .error (.unexpected c)

/-- A text of several lines after its three opening quotes. Quotes inside it are fewer than three in
a row; in front of the closing ones there may be two more. A backslash at the end of a line takes
away all blanks up to the next character. -/
def readLongText (q : Quoting) : Nat → List Char → List Char → Except ReadError (Found String)
  | 0, _, _ => .error .tooDeep
  | _ + 1, _, [] => .error .endOfText
  | fuel + 1, read, c :: rest =>
    if c = q.mark then
      let marks := (c :: rest).takeWhile (· == q.mark)
      let rest := (c :: rest).dropWhile (· == q.mark)
      if marks.length < 3 then readLongText q fuel (marks ++ read) rest
      else if marks.length ≤ 5 then
        .ok (String.ofList (marks.drop 3 ++ read).reverse, rest)
      else .error (.unexpected c)
    else if c = '\\' ∧ q.escapes then
      match skipSpace rest with
      | '\n' :: rest =>
        readLongText q fuel read (rest.dropWhile fun c => isSpace c || c == '\n')
      | _ => do
        let (e, rest) ← readEscape rest
        readLongText q fuel (e :: read) rest
    else if isPrintable c || c == '\n' then readLongText q fuel (c :: read) rest
    else .error (.unexpected c)

/-- A text after its first quote, on one line or on several. -/
def readText (q : Quoting) (cs : List Char) : Except ReadError (Found String) :=
  match cs with
  | a :: b :: rest =>
    if a = q.mark ∧ b = q.mark then
      let rest := match rest with
        | '\n' :: rest => rest
        | rest => rest
      readLongText q (rest.length + 1) [] rest
    else readLineText q (cs.length + 1) [] cs
  | _ => readLineText q (cs.length + 1) [] cs

/-! ## Keys -/

/-- One part of a key. -/
def readKeyPart (cs : List Char) : Except ReadError (Found String) :=
  match cs with
  | [] => .error .endOfText
  | c :: rest =>
    if c = basic.mark then readLineText basic (rest.length + 1) [] rest
    else if c = literal.mark then readLineText literal (rest.length + 1) [] rest
    else
      let bare := cs.takeWhile isBare
      if bare.isEmpty then .error (.unexpected c)
      else .ok (String.ofList bare, cs.dropWhile isBare)

/-- One more than the parts that a dotted key may have, and than the levels of nesting. -/
def depthLimit : Nat := 80

/-- The parts of a dotted key before its last part, and the last part, when `left` parts are still
allowed. -/
def readParts : Nat → List Char → Except ReadError (Found (List String × String))
  | 0, _ => .error .tooDeep
  | left + 1, cs => do
    let (part, rest) ← readKeyPart (skipSpace cs)
    match skipSpace rest with
    | '.' :: rest =>
      let ((path, last), rest) ← readParts left rest
      return ((part :: path, last), rest)
    | rest => return (([], part), rest)

/-- A dotted key: the parts before its last part, and the last part. -/
def readKey (cs : List Char) : Except ReadError (Found (List String × String)) :=
  readParts (depthLimit - 1) cs

/-! ## Numbers and names -/

/-- Characters of a number or a name. -/
def isWordChar (c : Char) : Bool := isBare c || c == '+' || c == '.'

/-- Digits, with single underscores between them. -/
def digitsOf? (isDigit : Char → Bool) (cs : List Char) : Option (List Char) :=
  let groups := Text.splitOn '_' cs
  if groups.all fun g => !g.isEmpty && g.all isDigit then some groups.flatten else none

/-- Decimal digits without a zero in front. -/
def wholeDigits? (cs : List Char) : Option (List Char) := do
  let digits ← digitsOf? (fun c => (Text.digit? c).isSome) cs
  if digits.head? = some '0' ∧ (digits.length > 1 ∨ cs.length > 1) then none else some digits

/-- Whether an integer has at most 64 bits with sign. -/
def fitsInt64 (n : Int) : Bool :=
  decide (-9223372036854775808 ≤ n) && decide (n < 9223372036854775808)

/-- An integer as a value, if it is not too large. -/
def intValue? (n : Int) : Option Json := if fitsInt64 n then some (.ofInt n) else none

/-- The digit of a base that a character spells. -/
def digitIn? (base : Nat) (c : Char) : Option Nat := (Text.hexDigit? c).filter (· < base)

/-- An integer in another base than ten, after its mark. -/
def readBased? (base : Nat) (cs : List Char) : Option Json := do
  let digits ← digitsOf? (fun c => (digitIn? base c).isSome) cs
  let n ← digits.foldlM (fun acc c => (digitIn? base c).map (acc * base + ·)) 0
  intValue? n

/-- Splits at the first character that satisfies `p`; that character begins the second part. -/
def cut (p : Char → Bool) (cs : List Char) : List Char × List Char := cs.span fun c => !p c

/-- The exponent after an `e`. -/
def readPower? (cs : List Char) : Option Int := do
  let (negative, digits) := match cs with
    | '-' :: digits => (true, digits)
    | '+' :: digits => (false, digits)
    | digits => (false, digits)
  let digits ← digitsOf? (fun c => (Text.digit? c).isSome) digits
  let n ← Text.natOfDigits? digits
  return if negative then -(n : Int) else n

/-- A number with a point or an exponent, after its sign. -/
def readFraction? (negative : Bool) (cs : List Char) : Option Json := do
  let (mantissa, power) := cut (fun c => c == 'e' || c == 'E') cs
  let (whole, fraction) := cut (· == '.') mantissa
  let whole ← wholeDigits? whole
  let fraction ← match fraction with
    | [] => some []
    | _ :: digits => digitsOf? (fun c => (Text.digit? c).isSome) digits
  let power ← match power with
    | [] => some 0
    | _ :: rest => readPower? rest
  let digits ← Text.natOfDigits? (whole ++ fraction)
  let x := Decimal.nearest digits (power - fraction.length)
  if negative then some (.num (.float (-x)))
  else if x.isInf then none
  else some (.num (.float x))

/-- A decimal number after its sign. -/
def readDecimal? (negative : Bool) (cs : List Char) : Option Json :=
  if cs = ['i', 'n', 'f'] then
    some (.num (.float (if negative then -Decimal.infinity else Decimal.infinity)))
  else if cs = ['n', 'a', 'n'] then some (.num (.float (0.0 / 0.0)))
  else if cs.any fun c => c == '.' || c == 'e' || c == 'E' then readFraction? negative cs
  else do
    let n ← Text.natOfDigits? (← wholeDigits? cs)
    intValue? (if negative then -(n : Int) else n)

/-- The value of a word: a truth value or a number. -/
def readWord? (cs : List Char) : Option Json :=
  match cs with
  | ['t', 'r', 'u', 'e'] => some (.bool true)
  | ['f', 'a', 'l', 's', 'e'] => some (.bool false)
  | '0' :: 'x' :: digits => readBased? 16 digits
  | '0' :: 'o' :: digits => readBased? 8 digits
  | '0' :: 'b' :: digits => readBased? 2 digits
  | '-' :: rest => readDecimal? true rest
  | '+' :: rest => readDecimal? false rest
  | cs => readDecimal? false cs

/-! ## Dates -/

/-- The number of exactly `width` digits, between two bounds. -/
def readField? (width low high : Nat) (cs : List Char) : Option (Found Nat) := do
  if cs.length < width then none
  else
    let n ← Text.natOfDigits? (cs.take width)
    if low ≤ n ∧ n ≤ high then some (n, cs.drop width) else none

/-- The rest after one character. -/
def readMark? (mark : Char) : List Char → Option (List Char)
  | [] => none
  | c :: rest => if c = mark then some rest else none

def daysOfMonth (year month : Nat) : Nat :=
  if month = 2 then (if year % 4 = 0 ∧ (year % 100 ≠ 0 ∨ year % 400 = 0) then 29 else 28)
  else if month = 4 ∨ month = 6 ∨ month = 9 ∨ month = 11 then 30 else 31

/-- The rest after a date: a year of four digits, a month and a day of two. -/
def skipDate? (cs : List Char) : Option (List Char) := do
  let (year, cs) ← readField? 4 0 9999 cs
  let (month, cs) ← readField? 2 1 12 (← readMark? '-' cs)
  let (_, cs) ← readField? 2 1 (daysOfMonth year month) (← readMark? '-' cs)
  return cs

/-- The rest after a fraction of a second, if there is one. -/
def skipFraction (cs : List Char) : List Char :=
  match cs with
  | '.' :: d :: rest =>
    if (Text.digit? d).isSome then rest.dropWhile fun c => (Text.digit? c).isSome else cs
  | _ => cs

/-- The rest after a time of day; a minute may have a leap second. -/
def skipTime? (cs : List Char) : Option (List Char) := do
  let (_, cs) ← readField? 2 0 23 cs
  let (_, cs) ← readField? 2 0 59 (← readMark? ':' cs)
  let (_, cs) ← readField? 2 0 60 (← readMark? ':' cs)
  return skipFraction cs

/-- The rest after an offset from UTC, if there is one; none when it is begun and not right. -/
def skipOffset? (cs : List Char) : Option (List Char) :=
  match cs with
  | 'Z' :: rest => some rest
  | 'z' :: rest => some rest
  | c :: rest =>
    if c = '+' ∨ c = '-' then do
      let (_, cs) ← readField? 2 0 23 rest
      let (_, cs) ← readField? 2 0 59 (← readMark? ':' cs)
      return cs
    else some cs
  | [] => some []

/-- The rest after what may follow a date: a time behind a `T` or a blank, with its offset. What is
no time does not belong to the date. -/
def skipTimeOfDate? (cs : List Char) : Option (List Char) :=
  match cs with
  | c :: rest =>
    if c = 'T' ∨ c = 't' ∨ c = ' ' then
      match skipTime? rest with
      | some rest => skipOffset? rest
      | none => some cs
    else some cs
  | [] => some []

/-- The rest after a date, a date with a time, or a time of day. -/
def skipDateTime? (cs : List Char) : Option (List Char) :=
  match skipDate? cs with
  | some rest => skipTimeOfDate? rest
  | none => skipTime? cs

/-- A date as a value, from its text. -/
def dateValue (text : List Char) : Json := .obj [("date", .str (String.ofList text))]

/-! ## Values -/

/-- A value that begins with `c`, is no text and holds no other values. -/
def readPlain (c : Char) (cs : List Char) : Except ReadError (Found Json) :=
  match skipDateTime? cs with
  | some rest => .ok (dateValue (cs.take (cs.length - rest.length)), rest)
  | none =>
    match readWord? (cs.takeWhile isWordChar) with
    | some v => .ok (v, cs.dropWhile isWordChar)
    | none => if isWordChar c then .error .badValue else .error (.unexpected c)

mutual

/-- One value; `depth` levels of nesting are left. -/
def readValue (depth : Nat) : Nat → List Char → Except ReadError (Found Json)
  | 0, _ => .error .tooDeep
  | fuel + 1, cs =>
    match cs with
    | [] => .error .endOfText
    | '[' :: rest => if depth = 0 then .error .tooDeep else readItems (depth - 1) fuel [] rest
    | '\x7b' :: rest =>
      if depth = 0 then .error .tooDeep
      else match skipSpace rest with
        | '\x7d' :: rest => .ok (.obj [], rest)
        | rest => readInline (depth - 1) fuel [] rest
    | c :: rest =>
      if c = basic.mark then do
        let (s, rest) ← readText basic rest
        return (.str s, rest)
      else if c = literal.mark then do
        let (s, rest) ← readText literal rest
        return (.str s, rest)
      else readPlain c cs

/-- The items of an array after its bracket or a comma; `read` holds the items so far, the last one
first. -/
def readItems (depth : Nat) : Nat → List Json → List Char → Except ReadError (Found Json)
  | 0, _, _ => .error .tooDeep
  | fuel + 1, read, cs =>
    match skipLines cs.length cs with
    | ']' :: rest => .ok (.arr read.reverse, rest)
    | cs => do
      let (v, rest) ← readValue depth fuel cs
      match skipLines rest.length rest with
      | ',' :: rest => readItems depth fuel (v :: read) rest
      | ']' :: rest => return (.arr (v :: read).reverse, rest)
      | rest => unexpected rest

/-- The members of a table on one line, one at least. -/
def readInline (depth : Nat) : Nat → Members → List Char → Except ReadError (Found Json)
  | 0, _, _ => .error .tooDeep
  | fuel + 1, ms, cs => do
    let ((path, key), rest) ← readKey cs
    match rest with
    | '=' :: rest =>
      let (v, rest) ← readValue depth fuel (skipSpace rest)
      let ms ← ofClash (assign path key v ms)
      match skipSpace rest with
      | ',' :: rest => readInline depth fuel ms rest
      | '\x7d' :: rest => return (.obj (membersToJson ms), rest)
      | rest => unexpected rest
    | rest => unexpected rest

end

/-! ## Documents -/

/-- A document in the course of reading: its tables, and the header that counts. -/
structure Document where
  root : Members
  header : List String

/-- The rest after a header's brackets and the end of its line. -/
def endHeader (width : Nat) (cs : List Char) : Except ReadError (List Char) :=
  if cs.take width = List.replicate width ']' then endLine (cs.drop width) else unexpected cs

/-- The document after one line, and the rest. -/
def readLine (d : Document) (cs : List Char) : Except ReadError (Document × List Char) :=
  match skipSpace cs with
  | [] => .ok (d, [])
  | '\n' :: rest => .ok (d, rest)
  | '#' :: rest => do
    let rest ← endLine ('#' :: rest)
    return (d, rest)
  | '[' :: '[' :: rest => do
    let ((path, key), rest) ← readKey rest
    let rest ← endHeader 2 rest
    return (⟨← ofClash (openItem path key d.root), path ++ [key]⟩, rest)
  | '[' :: rest => do
    let ((path, key), rest) ← readKey rest
    let rest ← endHeader 1 rest
    return (⟨← ofClash (openTable path key d.root), path ++ [key]⟩, rest)
  | cs => do
    let ((path, key), rest) ← readKey cs
    match rest with
    | '=' :: rest =>
      let rest := skipSpace rest
      let (v, rest) ← readValue (depthLimit - 1) (2 * rest.length + 2) rest
      let rest ← endLine rest
      return ({ d with root := ← ofClash (assignBelow d.header path key v d.root) }, rest)
    | rest => unexpected rest

/-- The document of all lines; every line takes a character. -/
def readLines : Nat → Document → List Char → Except ReadError Document
  | 0, d, _ => .ok d
  | _ + 1, d, [] => .ok d
  | fuel + 1, d, cs => do
    let (d, rest) ← readLine d cs
    readLines fuel d rest

def read (s : String) : Except ReadError Json := do
  let cs := match s.toList with
    | '\uFEFF' :: rest => rest
    | cs => cs
  let cs := joinBreaks cs
  let d ← readLines (cs.length + 1) ⟨[], []⟩ cs
  return .obj (membersToJson d.root)

end SharedScene.Toml
