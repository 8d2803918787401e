/-!
# Command line arguments

```text
[--config FILE] [--log FILTER] replay FILE [--seed FILE]
[--config FILE] [--log FILTER] config
```

The two options in front may also stand after the name of the command, and there they win. An
option takes its value from the next argument or after an equals sign; a value of its own must not
begin with a dash, a single dash aside. No option is given twice in one place. After two dashes
everything is a file name. The first argument that asks for help or for the version, or that is
wrong, decides.
-/

namespace SharedScene.Program

/-- What help is about. -/
inductive Topic where
  | program
  | replay
  | config
  | help
deriving DecidableEq, Repr

/-- What the program is to do. -/
inductive Task where
  | replay (file : String) (seed : Option String)
  | config
deriving DecidableEq, Repr

/-- A task with the options that go with every task. -/
structure Invocation where
  configPath : Option String
  logFilter : Option String
  task : Task
deriving DecidableEq, Repr

/-- What the arguments ask for. -/
inductive Ask where
  | run (invocation : Invocation)
  | help (topic : Topic)
  | version
deriving DecidableEq, Repr

/-- Why arguments are refused. -/
inductive UsageError where
  | noArguments
  | missingCommand
  | unknownCommand (name : String)
  | unexpected (argument : String)
  | missingValue (option : String)
  | repeated (option : String)
  | missingFile
deriving DecidableEq, Repr

def UsageError.message : UsageError → String
  | .noArguments => "nothing to do"
  | .missingCommand => "a command is required"
  | .unknownCommand name => s!"unrecognized command '{name}'"
  | .unexpected argument => s!"unexpected argument '{argument}'"
  | .missingValue option => s!"a value is required for '{option}'"
  | .repeated option => s!"'{option}' cannot be used multiple times"
  | .missingFile => "a file is required"

namespace Arguments

/-- The options and file names found in one place. -/
structure Found where
  options : List (String × String)
  files : List String

/-- What stopped the reading of one place. -/
inductive Stop where
  /-- The end of the arguments. -/
  | done
  /-- An argument that is no option, and what follows it. -/
  | word (name : String) (rest : List String)
  | help
  | version

def Found.get? (f : Found) (option : String) : Option String :=
  (f.options.find? fun o => o.1 == option).map (·.2)

/-- The options with one more; it must be new. -/
def Found.add (f : Found) (option value : String) : Except UsageError Found :=
  if (f.get? option).isSome then .error (.repeated option)
  else .ok { f with options := f.options ++ [(option, value)] }

/-- The name of a long option and the value after its equals sign. -/
def splitLong (argument : String) : String × Option String :=
  let cs := argument.toList
  let (name, rest) := cs.span (· != '=')
  match rest with
  | [] => (argument, none)
  | _ :: value => (String.ofList name, some (String.ofList value))

/-- Whether an argument may be the value of the option before it. -/
def isValue (argument : String) : Bool := argument == "-" || argument.toList.head? != some '-'

/-- What a word that is no option means. -/
inductive Words where
  /-- The name of a command, which ends the place. -/
  | command
  /-- A file name, of which there may be so many. -/
  | files (max : Nat)

/-- What the arguments in one place may be. -/
structure Rules where
  options : List String
  /-- Whether the version may be asked for here. -/
  version : Bool
  words : Words

/-- The files found so far with one more, if there may be. -/
def Found.addFile (f : Found) (max : Nat) (word : String) : Except UsageError Found :=
  if f.files.length < max then .ok { f with files := f.files ++ [word] }
  else .error (.unexpected word)

/-- What is found when all that is left are words. -/
def readWords (rules : Rules) (f : Found) (rest : List String) : Except UsageError Found :=
  match rules.words, rest with
  | _, [] => .ok f
  | .command, word :: _ => .error (.unexpected word)
  | .files max, rest => rest.foldlM (fun f word => f.addFile max word) f

/-- A cluster of short options. -/
def readShort (rules : Rules) (argument : String) : Except UsageError Stop :=
  match argument.toList with
  | _ :: 'h' :: _ => .ok .help
  | _ :: 'V' :: _ => if rules.version then .ok .version else .error (.unexpected argument)
  | _ => .error (.unexpected argument)

/-- Reads the arguments of one place, up to what stops it. -/
def readPlace (rules : Rules) (f : Found) : List String → Except UsageError (Found × Stop)
  | [] => .ok (f, .done)
  | argument :: rest =>
    if argument = "--" then do
      return (← readWords rules f rest, .done)
    else if argument.startsWith "--" then
      match splitLong argument with
      | ("--help", none) => .ok (f, .help)
      | ("--version", none) =>
        if rules.version then .ok (f, .version) else .error (.unexpected argument)
      | (name, value?) =>
        if !rules.options.contains name then .error (.unexpected argument)
        else match value?, rest with
          | some value, rest => do readPlace rules (← f.add name value) rest
          | none, [] => .error (.missingValue name)
          | none, value :: rest =>
            if isValue value then do readPlace rules (← f.add name value) rest
            else .error (.missingValue name)
    else if argument.startsWith "-" && argument != "-" then do
      return (f, ← readShort rules argument)
    else match rules.words with
      | .command => .ok (f, .word argument rest)
      | .files max => do readPlace rules (← f.addFile max argument) rest

/-- The options that go with every task. -/
def globalOptions : List String := ["--config", "--log"]

/-- The rules in front of the command. -/
def outer : Rules := ⟨globalOptions, true, .command⟩

/-- The rules after `replay`. -/
def afterReplay : Rules := ⟨globalOptions ++ ["--seed"], false, .files 1⟩

/-- The rules after `config`. -/
def afterConfig : Rules := ⟨globalOptions, false, .files 0⟩

/-- A task with the options from both places; those after the command win. -/
def invocation (front inner : Found) (task : Task) : Ask :=
  .run
    { configPath := (inner.get? "--config").or (front.get? "--config")
      logFilter := (inner.get? "--log").or (front.get? "--log")
      task }

/-- What is asked for after `replay`. -/
def readReplay (front : Found) (arguments : List String) : Except UsageError Ask := do
  match ← readPlace afterReplay ⟨[], []⟩ arguments with
  | (_, .help) => return .help .replay
  | (inner, _) =>
    match inner.files with
    | [] => throw .missingFile
    | file :: _ => return invocation front inner (.replay file (inner.get? "--seed"))

/-- What is asked for after `config`. -/
def readConfig (front : Found) (arguments : List String) : Except UsageError Ask := do
  match ← readPlace afterConfig ⟨[], []⟩ arguments with
  | (_, .help) => return .help .config
  | (inner, _) => return invocation front inner .config

/-- What help is asked for after `help`. -/
def readHelp : List String → Except UsageError Ask
  | [] => .ok (.help .program)
  | ["replay"] => .ok (.help .replay)
  | ["config"] => .ok (.help .config)
  | ["help"] => .ok (.help .help)
  | name :: rest =>
    if ["replay", "config", "help"].contains name then
      .error (.unknownCommand (rest.headD name))
    else .error (.unknownCommand name)

def read (arguments : List String) : Except UsageError Ask := do
  if arguments.isEmpty then throw .noArguments
  match ← readPlace outer ⟨[], []⟩ arguments with
  | (_, .done) => throw .missingCommand
  | (_, .help) => return .help .program
  | (_, .version) => return .version
  | (front, .word "replay" rest) => readReplay front rest
  | (front, .word "config" rest) => readConfig front rest
  | (_, .word "help" rest) => readHelp rest
  | (_, .word name _) => throw (.unknownCommand name)

end Arguments

end SharedScene.Program
