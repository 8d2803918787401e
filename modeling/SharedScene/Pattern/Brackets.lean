import SharedScene.Pattern.Basic

/-!
# Square brackets

A class in square brackets is a row of items: characters, ranges of them, classes with a name, and
classes in square brackets again. Operators stand between rows: `&&`, `--` and `~~`.

```text
[a-z]    [^[:alpha:]_]    [a-z&&[^aeiou]]    []-]
```

Hyphens at the beginning are literal, and after them a closing bracket too, when it is the first
item. Brackets nest, so the reader keeps the classes that are open, the inner one apart.
-/

namespace SharedScene.Pattern

/-- The names of classes that are written `[:name:]`. -/
def classNames : List String :=
  ["alnum", "alpha", "ascii", "blank", "cntrl", "digit", "graph", "lower", "print", "punct",
    "space", "upper", "word", "xdigit"]

/-- A class in square brackets that is not closed yet. -/
structure OpenClass where
  /-- The depth of what stands before the last operator. -/
  left : Option Nat
  /-- The depths of the items since then. -/
  items : List Nat
  /-- Nothing but hyphens was there yet. -/
  isFresh : Bool
deriving Repr

/-- A class right after its opening bracket. -/
def OpenClass.empty : OpenClass := ⟨none, [], true⟩

/-- The class with one more item. -/
def OpenClass.push (k : OpenClass) (depth : Nat) : OpenClass :=
  { k with items := depth :: k.items, isFresh := false }

/-- The depth of what a class holds. -/
def OpenClass.depth (k : OpenClass) : Nat :=
  match k.left with
  | none => depthOfRow k.items
  | some left => max left (depthOfRow k.items) + 1

/-- The class after an operator. -/
def OpenClass.operate (k : OpenClass) : OpenClass := ⟨some k.depth, [], false⟩

/-- What follows a class with a name, after its opening bracket, when it is one; the mode must
allow it. -/
def readNamed? (cs : List Char) : Option (Bool × List Char) :=
  match cs with
  | ':' :: rest =>
    let (negated, rest) := match rest with
      | '^' :: rest => (true, rest)
      | rest => (false, rest)
    let inName := fun c => c != ':'
    match rest.dropWhile inName with
    | ':' :: ']' :: after =>
      if classNames.contains (String.ofList (rest.takeWhile inName)) then some (negated, after)
      else none
    | _ => none
  | _ => none

/-- Whether a class with a name may stand at a place. -/
def allowsNamed (m : Mode) (negated : Bool) : Bool :=
  if m.unicode then !m.ignoreCase else !negated

/-- A new class after its opening bracket, and what follows. -/
def openClass (m : Mode) (cs : List Char) : Option (OpenClass × List Char) :=
  match m.skip cs with
  | '^' :: rest => if m.unicode then some (.empty, rest) else none
  | rest => some (.empty, rest)

/-- One end of a range, or an item of its own. -/
def readItem (m : Mode) : List Char → Option (Part × List Char)
  | [] => none
  | '\\' :: rest => readEscape m rest
  | c :: rest => some (.literal c false, rest)

/-- The first character after blanks, one number sign in front of it left out. -/
def Mode.peek (m : Mode) (cs : List Char) : Option Char :=
  if m.spaced then
    match Text.dropBlanks cs with
    | '#' :: rest => (Text.dropBlanks rest).head?
    | rest => rest.head?
  else cs.head?

/-- What follows a range, after its hyphen. -/
def readRangeEnd (m : Mode) (start : Part) (cs : List Char) : Option (List Char) := do
  let (stop, rest) ← readItem m (m.skip cs)
  match start, stop with
  | .literal a _, .literal b _ =>
    if a ≤ b ∧ start.isItem m ∧ stop.isItem m then some rest else none
  | _, _ => none

/-- What follows an item or a range. A hyphen before a closing bracket or before another hyphen
makes no range. -/
def readRange (m : Mode) (cs : List Char) : Option (List Char) := do
  let (start, rest) ← readItem m cs
  match m.skip rest with
  | '-' :: after =>
    if m.peek after = some ']' ∨ m.peek after = some '-' then
      if start.isItem m then some ('-' :: after) else none
    else readRangeEnd m start after
  | rest => if start.isItem m then some rest else none

/-- What a reader of brackets has found: more to read in a class, or the depth of the whole. -/
inductive Bracketed where
  | inside (k : OpenClass) (outer : List OpenClass) (rest : List Char)
  | closed (depth : Nat) (rest : List Char)

/-- Closes a class. -/
def closeClass (k : OpenClass) (outer : List OpenClass) (rest : List Char) : Bracketed :=
  match outer with
  | [] => .closed (k.depth + 1) rest
  | next :: outer => .inside (next.push (k.depth + 1)) outer rest

/-- Opens a class within a class, or takes one with a name. -/
def openInner (m : Mode) (k : OpenClass) (outer : List OpenClass) (cs : List Char) :
    Option Bracketed :=
  match readNamed? cs with
  | some (negated, rest) =>
    if allowsNamed m negated then some (.inside (k.push 0) outer rest) else none
  | none => do
    let (inner, rest) ← openClass m cs
    return .inside inner (k :: outer) rest

/-- A literal at the beginning of a class, where hyphens and a closing bracket are nothing more. -/
def freshLiteral? (k : OpenClass) (c : Char) : Option OpenClass :=
  if k.isFresh && c == '-' then some { k with items := 0 :: k.items }
  else if k.isFresh && c == ']' && k.items.isEmpty then some (k.push 0)
  else none

/-- One step within brackets, from a part on. -/
def stepInside (m : Mode) (k : OpenClass) (outer : List OpenClass) (cs : List Char) :
    Option Bracketed :=
  match cs with
  | [] => none
  | '[' :: rest => openInner m k outer rest
  | ']' :: rest => some (closeClass k outer rest)
  | '&' :: '&' :: rest => some (.inside k.operate outer rest)
  | '-' :: '-' :: rest => some (.inside k.operate outer rest)
  | '~' :: '~' :: rest => some (.inside k.operate outer rest)
  | cs => do
    let rest ← readRange m cs
    return .inside (k.push 0) outer rest

/-- What follows the brackets, and their depth. Every step takes a character. -/
def readInside (m : Mode) : Nat → OpenClass → List OpenClass → List Char →
    Option (Nat × List Char)
  | 0, _, _, _ => none
  | fuel + 1, k, outer, cs =>
    match m.skip cs with
    | [] => none
    | c :: rest =>
      match freshLiteral? k c with
      | some k =>
        if (Part.literal c false).isItem m then readInside m fuel k outer rest else none
      | none => do
        match ← stepInside m { k with isFresh := false } outer (c :: rest) with
        | .inside k outer rest => readInside m fuel k outer rest
        | .closed depth rest => return (depth, rest)

/-- What follows brackets after the opening one, and how deep they nest. -/
def readBrackets (m : Mode) (cs : List Char) : Option (Nat × List Char) := do
  let (k, rest) ← openClass m cs
  readInside m (rest.length + 1) k [] rest

end SharedScene.Pattern
