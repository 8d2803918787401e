import SharedScene.Pattern.Brackets
import SharedScene.Text.Alphanumeric

/-!
# Well-formed patterns

A pattern is a list of alternatives with bars between them, an alternative a row of items, and an
item a part, a class in square brackets or a group. A star, a plus or a question mark repeats the
item before it, which must be there. Curly brackets never stand in a pattern: the notation that it
is written in ends at the first closing one.

```text
ab|c*    (a|b)+    (?P<name>a)    (?:a)    (?i-u:a)    (?x)
```

A group has a number, or a name of its own, or flags for what is in it. Flags that stand alone hold
to the end of the group around them. A group that looks ahead or behind is refused, and so is a
reference to a group.
-/

namespace SharedScene.Pattern

/-- One item of a row. -/
structure Item where
  depth : Nat
  /-- Whether it may be repeated: flags may not. -/
  repeats : Bool
deriving Repr

/-- A group that is not closed yet, or the pattern around all groups. -/
structure OpenGroup where
  /-- The mode that holds again after the group. -/
  around : Mode
  /-- The depths of the alternatives that are over. -/
  alternatives : List Nat
  /-- The items of the last alternative, the last one first. -/
  items : List Item
deriving Repr

/-- The depths of all alternatives. -/
def OpenGroup.depths (g : OpenGroup) : List Nat :=
  depthOfRow (g.items.map Item.depth) :: g.alternatives

/-- The depth of what a group holds. -/
def OpenGroup.depth (g : OpenGroup) : Nat := depthOfRow g.depths

/-- How far a pattern is read. -/
structure Progress where
  mode : Mode
  group : OpenGroup
  /-- The groups around it, the inner ones first. -/
  outer : List OpenGroup
  /-- The names of groups. -/
  names : List (List Char)
deriving Repr

namespace Progress

/-- Nothing is read yet. -/
def start : Progress := ⟨.initial, ⟨.initial, [], []⟩, [], []⟩

/-- One more item in the row. -/
def push (p : Progress) (i : Item) : Progress :=
  { p with group := { p.group with items := i :: p.group.items } }

/-- The last item repeated. -/
def repeatLast (p : Progress) : Option Progress :=
  match p.group.items with
  | [] => none
  | i :: rest =>
    if i.repeats then
      some { p with group := { p.group with items := ⟨i.depth + 1, true⟩ :: rest } }
    else none

/-- The next alternative. -/
def alternate (p : Progress) : Progress :=
  { p with group := { p.group with alternatives := p.group.depths, items := [] } }

/-- A group with a mode for what is in it. -/
def openGroup (p : Progress) (mode : Mode) : Progress :=
  { p with mode, group := ⟨p.mode, [], []⟩, outer := p.group :: p.outer }

/-- The group closed. -/
def closeGroup (p : Progress) : Option Progress :=
  match p.outer with
  | [] => none
  | g :: outer =>
    some ({ p with mode := p.group.around, group := g, outer }.push ⟨p.group.depth + 1, true⟩)

/-- Whether what is read is a whole pattern. -/
def isWhole (p : Progress) : Bool := p.outer.isEmpty && p.group.depth ≤ maxDepth

end Progress

/-! ## Groups -/

/-- A mode with one flag set or not; `none` for what is no flag. -/
def Mode.setFlag? (m : Mode) (flag : Char) (on : Bool) : Option Mode :=
  match flag with
  | 'i' => some { m with ignoreCase := on }
  | 'u' => some { m with unicode := on }
  | 'x' => some { m with spaced := on }
  | 'm' => some m
  | 's' => some m
  | 'U' => some m
  | 'R' => some m
  | _ => none

/-- Flags up to the colon or the parenthesis that ends them; `read` holds what was there, the last
one first. No flag and no minus is there twice, and a flag follows the minus. -/
def readFlags (m : Mode) (read : List Char) : List Char → Option (Mode × List Char × List Char)
  | [] => none
  | c :: rest =>
    if c = ':' ∨ c = ')' then
      if read.head? = some '-' then none else some (m, read, c :: rest)
    else if read.contains c then none
    else if c = '-' then readFlags m (c :: read) rest
    else do readFlags (← m.setFlag? c (!read.contains '-')) (c :: read) rest

/-- Whether a text is the name of a group. -/
def isGroupName : List Char → Bool
  | [] => false
  | c :: rest =>
    (c == '_' || Text.isAlphabetic c) &&
      rest.all fun c => ['_', '.', '[', ']'].contains c || Text.isAlphanumeric c

/-- A group with a name, from the name on. -/
def openNamed (p : Progress) (cs : List Char) : Option (Progress × List Char) :=
  let inName := fun c => c != '>'
  let name := cs.takeWhile inName
  match cs.dropWhile inName with
  | _ :: rest =>
    if isGroupName name && !p.names.contains name then
      some ({ p with names := name :: p.names }.openGroup p.mode, rest)
    else none
  | [] => none

/-- A group with flags, or flags that stand alone. -/
def openFlagged (p : Progress) (cs : List Char) : Option (Progress × List Char) := do
  let (mode, read, rest) ← readFlags p.mode [] cs
  match rest with
  | ':' :: rest => return (p.openGroup mode, rest)
  | _ :: rest =>
    if read.isEmpty then none else return ({ p with mode }.push ⟨0, false⟩, rest)
  | [] => none

/-- A group after its opening parenthesis. -/
def openAny (p : Progress) (cs : List Char) : Option (Progress × List Char) :=
  match p.mode.skip cs with
  | '?' :: 'P' :: '<' :: rest => openNamed p rest
  | '?' :: '<' :: '!' :: _ => none
  | '?' :: '<' :: rest => openNamed p rest
  | '?' :: rest => openFlagged p rest
  | rest => some (p.openGroup p.mode, rest)

/-! ## The whole -/

/-- One more part in the row, when it may stand there. -/
def pushPart (p : Progress) (part : Part) (rest : List Char) : Option (Progress × List Char) :=
  if part.isAllowed p.mode then some (p.push ⟨0, true⟩, rest) else none

/-- One step. -/
def step (p : Progress) (cs : List Char) : Option (Progress × List Char) :=
  match cs with
  | [] => none
  | '(' :: rest => openAny p rest
  | ')' :: rest => p.closeGroup.map fun p => (p, rest)
  | '|' :: rest => some (p.alternate, rest)
  | '[' :: rest => (readBrackets p.mode rest).map fun (depth, rest) => (p.push ⟨depth, true⟩, rest)
  | '\\' :: rest => do
    let (part, rest) ← readEscape p.mode rest
    pushPart p part rest
  | '^' :: rest => pushPart p .anchor rest
  | '$' :: rest => pushPart p .anchor rest
  | '.' :: rest => if p.mode.unicode then some (p.push ⟨0, true⟩, rest) else none
  | c :: rest =>
    if c = '*' ∨ c = '+' ∨ c = '?' then p.repeatLast.map fun p => (p, rest)
    else if c = '\x7b' then none
    else pushPart p (.literal c false) rest

/-- Reads to the end; every step takes a character. -/
def readAll : Nat → Progress → List Char → Option Progress
  | 0, _, _ => none
  | fuel + 1, p, cs =>
    match p.mode.skip cs with
    | [] => some p
    | cs => do
      let (p, rest) ← step p cs
      readAll fuel p rest

def isWellFormed (cs : List Char) : Bool :=
  (readAll (cs.length + 1) .start cs).any Progress.isWhole

end SharedScene.Pattern
