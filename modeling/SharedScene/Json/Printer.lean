import SharedScene.Decimal.Shortest
import SharedScene.Json.Basic

/-!
# Writing JSON

The compact form: no blanks, members in the order of the value. A double is written with the fewest
digits that read back, positionally while its point falls within the first sixteen digits or at
most four zeros in front of them, and keeps `.0` when it is whole, so that it never looks like an
integer. Text is written as it is, but for the quote, the backslash and the characters below
U+0020. What is unreadable has no text of its own and is written as null.
-/

namespace SharedScene.Json

def renderFloat (x : Float) : String :=
  let sign := if Decimal.isNegative x then "-" else ""
  if x == 0.0 then sign ++ "0.0"
  else
    let d := Decimal.shortest x
    let point := (d.digitChars.length : Int) + d.exponent
    if 0 < point ∧ point ≤ 16 then
      sign ++ d.positional ++ (if d.exponent ≥ 0 then ".0" else "")
    else if -5 < point ∧ point ≤ 0 then sign ++ d.positional
    else sign ++ d.scientific

def Number.render : Number → String
  | .int n => toString n
  | .float x => renderFloat x

/-- The lower-case hexadecimal digit of a number below sixteen. -/
def hexChar (n : Nat) : Char :=
  if n < 10 then Char.ofNat ('0'.toNat + n) else Char.ofNat ('a'.toNat + (n - 10))

def escape (c : Char) : List Char :=
  match c.toNat with
  | 0x22 => ['\\', c]
  | 0x5C => ['\\', c]
  | 0x08 => ['\\', 'b']
  | 0x0C => ['\\', 'f']
  | 0x0A => ['\\', 'n']
  | 0x0D => ['\\', 'r']
  | 0x09 => ['\\', 't']
  | n => if n < 0x20 then ['\\', 'u', '0', '0', hexChar (n / 16), hexChar (n % 16)] else [c]

def quote (s : String) : String :=
  String.ofList ('"' :: s.toList.flatMap escape ++ ['"'])

mutual

def render : Json → String
  | .null => "null"
  | .bool true => "true"
  | .bool false => "false"
  | .num n => n.render
  | .str s => quote s
  | .unreadable => "null"
  | .arr items => "[" ++ String.intercalate "," (renderItems items) ++ "]"
  | .obj members => "\x7b" ++ String.intercalate "," (renderMembers members) ++ "\x7d"

/-- The texts of the items of an array. -/
def renderItems : List Json → List String
  | [] => []
  | v :: rest => render v :: renderItems rest

/-- The texts of the members of an object. -/
def renderMembers : List (String × Json) → List String
  | [] => []
  | (name, v) :: rest => (quote name ++ ":" ++ render v) :: renderMembers rest

end

end SharedScene.Json
