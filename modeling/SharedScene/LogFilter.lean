import SharedScene.Decimal.Reader
import SharedScene.Pattern.Grammar

/-!
# Log filters

A filter is a list of directives with commas between them; empty ones are skipped. A directive
names a level, or a target, a span with at most one field, and a level for them:

```text
info    core=debug    [span]    core[span{field=value}]=trace
```

Levels are words in either case or the numbers 0 to 5; without one all messages pass. A target
begins with a letter or digit of any script, a hyphen, a colon or a low line. The value of a field
is a number or a pattern, and ends at the next equals sign.

Blanks around a directive are left out, but one that sets a level for something must have none. The
places of its parts are counted in bytes without the blanks in front and looked up with them, so
that behind blanks a field is taken from as many bytes further left.
-/

namespace SharedScene.LogFilter

def levelNames : List String := ["off", "error", "warn", "info", "debug", "trace"]

/-- Whether digits spell a number of at most five. -/
def isLevelNumber (cs : List Char) : Bool :=
  let digits := match cs with
    | '+' :: rest => rest
    | rest => rest
  !digits.isEmpty && (Text.natOfDigits? digits).any (· ≤ 5)

/-- Whether a text after an equals sign is a level; nothing stands for all messages. -/
def isLevel (cs : List Char) : Bool :=
  cs.isEmpty || isLevelNumber cs || levelNames.contains (String.ofList (cs.map Char.toLower))

/-- Whether a target may begin with the character. -/
def beginsTarget (c : Char) : Bool :=
  c == '-' || c == ':' || c == '_' || Text.isAlphanumeric c

/-- Whether a text is the value of a field: a number, or a pattern. -/
def isFieldValue (cs : List Char) : Bool :=
  (Text.readFloat (String.ofList cs)).isOk || Pattern.isWellFormed cs

/-- Whether a text is a field: a name, and perhaps a value between the first two equals signs. -/
def isField (cs : List Char) : Bool :=
  match Text.splitOn '=' cs with
  | _ :: value :: _ => isFieldValue value
  | _ => true

/-- A directive with and without the blanks around it. -/
structure Written where
  whole : List Char
  trimmed : List Char

/-- A text as a directive. -/
def Written.ofChars (cs : List Char) : Written := ⟨cs, (Text.trim (String.ofList cs)).toList⟩

/-- Whether there are no blanks around a directive. -/
def Written.isTrim (w : Written) : Bool := decide (w.trimmed = w.whole)

/-- As many bytes of the whole as `part` has, from the place where `part` and `rest` stand at the
end of the trimmed directive; `none` where that cuts a character. -/
def Written.lookUp? (w : Written) (part rest : List Char) : Option (List Char) := do
  let start := Text.byteLength w.trimmed - Text.byteLength (part ++ rest)
  Text.takeBytes? (Text.byteLength part) (← Text.dropBytes? start w.whole)

/-- What may follow a target or a span: nothing, or a level. -/
def endsDirective (w : Written) : List Char → Bool
  | [] => true
  | '=' :: level => w.isTrim && isLevel level
  | _ => false

/-- A span after its opening bracket, and what follows it. -/
def isSpan (w : Written) (cs : List Char) : Bool :=
  match cs.dropWhile fun c => c != ']' && c != '\x7b' with
  | ']' :: rest => endsDirective w rest
  | _ :: rest =>
    let isInside := fun c => c != '\x7d'
    let field := rest.takeWhile isInside
    match rest.dropWhile isInside with
    | _ :: ']' :: after =>
      !field.isEmpty && (w.lookUp? field (rest.dropWhile isInside)).any isField &&
        endsDirective w after
    | _ => false
  | [] => false

/-- Whether a directive is well-formed. -/
def isDirective (w : Written) : Bool :=
  match w.trimmed with
  | [] => false
  | '[' :: rest => isSpan w rest
  | c :: rest =>
    beginsTarget c &&
      match rest.dropWhile fun c => c != '=' && c != '[' with
      | '[' :: rest => isSpan w rest
      | rest => endsDirective w rest

/-- Whether a text is a log filter. -/
def isValid (filter : String) : Bool :=
  ((Text.splitOn ',' filter.toList).filter fun cs => !cs.isEmpty).all fun cs =>
    isDirective (.ofChars cs)

end SharedScene.LogFilter
