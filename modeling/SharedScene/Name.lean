import SharedScene.Identifier

/-!
# Names of instances

A name is not blank, has at most 100 characters and no control characters; spaces and points are
allowed, since a path is a list of names and not a joined text. Siblings never share a name: a name
that is taken gives way to its base with the smallest free number from 2 on.

```text
desired   siblings                result
Folder    none                    Folder
Folder    Folder                  Folder_2
Folder    Folder, Folder_2        Folder_3
Folder_2  Folder, Folder_2        Folder_3
```

The search tries one number more than there are siblings, so one of them is free.
-/

namespace SharedScene.Name

def maxLength : Nat := 100

/-- Whether a text may name an instance. -/
def check (name : String) : Except IdentifierError Unit :=
  if Text.isBlankText name then .error .empty
  else if name.length > maxLength then .error (.tooLong maxLength name.length)
  else if name.toList.any Text.isControl then
    .error (.invalidCharacters "control characters are not allowed in names")
  else .ok ()

/-- Whether a text may name an instance, as a truth value. -/
def isValid (name : String) : Bool := (check name).isOk

/-- Whether the characters after an underscore are a number that a collision puts there: at least
2, without a zero in front, and below `2^64`. -/
def isCollisionSuffix (digits : List Char) : Bool :=
  digits.head? != some '0' &&
    match digits, Text.natOfDigits? digits with
    | _ :: _, some n => 2 ≤ n && n < Nat.pow 2 64
    | _, _ => false

/-- The characters before and after the last underscore. -/
def splitLast? (cs : List Char) : Option (List Char × List Char) :=
  let tail := cs.reverse.takeWhile (· != '_')
  match cs.reverse.dropWhile (· != '_') with
  | [] => none
  | _ :: head => some (head.reverse, tail.reverse)

/-- A name without the number that a collision put there. -/
def base (name : String) : String :=
  match splitLast? name.toList with
  | some (head, tail) =>
    if !head.isEmpty && isCollisionSuffix tail then String.ofList head else name
  | none => name

def numbered (base : String) (k : Nat) : String := base ++ "_" ++ toString k

/-- The first free number from `k` on, trying at most `tries` before it takes the next. -/
def firstFree (base : String) (taken : List String) : Nat → Nat → String
  | 0, k => numbered base k
  | tries + 1, k =>
    if numbered base k ∈ taken then firstFree base taken tries (k + 1) else numbered base k

/-- The desired name when it is free among the siblings, else its base with the smallest free
number. -/
def resolve (desired : String) (siblings : List String) : String :=
  if desired ∈ siblings then firstFree (base desired) siblings siblings.length 2 else desired

end SharedScene.Name
