import SharedScene.Config.Load
import SharedScene.Json.Printer
import SharedScene.LogFilter
import SharedScene.Program.Help
import SharedScene.Session.Replay

/-!
# A run of the program

What the program does follows from its arguments, the environment and the files, up to the point
where it begins to answer requests: `start` gives either the **end** of the run, with what is
printed and the exit code, or an engine and the requests that it is to answer.

Files are looked at in this order: the configuration, the seed, the requests. The log filter that
counts is checked after the configuration; one that another filter overrides is not looked at.
-/

namespace SharedScene.Program

/-- The end of a run. -/
structure Ending where
  exitCode : Nat
  output : String
  errors : String
deriving DecidableEq, Repr

/-- An end with nothing but output. -/
def Ending.success (output : String) : Ending := ⟨0, output, ""⟩

/-- An end with a message. -/
def Ending.failure (exitCode : Nat) (text : String) : Ending := ⟨exitCode, "", text ++ "\n"⟩

/-- An end by a failure. -/
def Ending.ofFailure (e : Failure) : Ending := .failure e.exitCode s!"Error: {e.message}"

/-- Where requests come from. -/
inductive Requests where
  | standardInput
  | text (content : String)

/-- What a run does after it has begun. -/
inductive Start where
  | ending (e : Ending)
  | session (engine : Engine) (requests : Requests)

/-- What surrounds a run. -/
structure Surroundings where
  arguments : List String
  env : Environment
  files : FileView
  /-- The ids that new instances get. -/
  ids : IdSupply
  /-- The clock at the beginning, in milliseconds. -/
  clock : Int

def projectPath : String := ".scenesync/config.toml"

/-- The place of the global file: in the directory for configurations, which is below the home
directory unless it is set. -/
def globalPath? (env : Environment) : Option String :=
  let file := "/scenesync/config.toml"
  match (env "XDG_CONFIG_HOME").filter (·.startsWith "/") with
  | some dir => some (dir ++ file)
  | none => ((env "HOME").filter fun home => !home.isEmpty).map (· ++ "/.config" ++ file)

/-- The files that a run may look at. -/
def paths (arguments : List String) (env : Environment) : List String :=
  let configPaths := (globalPath? env).toList ++ [projectPath]
  match Arguments.read arguments with
  | .ok (.run i) =>
    configPaths ++ i.configPath.toList ++
      match i.task with
      | .config => []
      | .replay file seed => seed.toList ++ [file]
  | _ => []

/-- Checks the log filter that counts: the option, else the variable if it holds a filter, else the
configured one. -/
def checkLogFilter (option : Option String) (env : Environment) (config : Config) :
    Except Ending Unit :=
  match option with
  | some filter =>
    if LogFilter.isValid filter then .ok () else .error (.failure 1 "Error: Invalid --log filter")
  | none =>
    if (env "RUST_LOG").any LogFilter.isValid || LogFilter.isValid config.log.filter then .ok ()
    else .error (.failure 1 s!"Error: Invalid log filter '{config.log.filter}'")

/-- The engine after the seed, if there is one. -/
def seedEngine (files : FileView) (engine : Engine) (seed : Option String) :
    Except Ending Engine :=
  match seed with
  | none => .ok engine
  | some path =>
    match files path with
    | .file content =>
      (Session.seeded engine content).mapError fun e =>
        .failure e.exitCode s!"Error: Failed to parse seed file {path}: {e.message}"
    | _ => .error (.failure 1 s!"Error: Failed to read seed file {path}")

/-- The requests in a file, or from standard input for a dash. -/
def openRequests (files : FileView) (path : String) : Except Ending Requests :=
  if path = "-" then .ok .standardInput
  else match files path with
    | .file content => .ok (.text content)
    | .missing =>
      let e := Failure.io "no such file"
      .error (.failure e.exitCode s!"Error: Failed to open request file {path}: {e.message}")
    | _ => .error (.failure 1 "Error: Failed to read request line 1")

/-- Begins a task. -/
def begin (s : Surroundings) (i : Invocation) : Except Ending Start := do
  let sources : ConfigSources :=
    { files := s.files, env := s.env, globalPath := globalPath? s.env, projectPath }
  let config ← (Config.load sources i.configPath).mapError Ending.ofFailure
  checkLogFilter i.logFilter s.env config
  match i.task with
  | .config =>
    match config.toToml? with
    | some text => return .ending (.success text)
    | none => throw (.failure 1 "Error: Failed to render config")
  | .replay file seed =>
    let engine ← seedEngine s.files (Engine.new config s.ids s.clock) seed
    return .session engine (← openRequests s.files file)

/-- What a run does. -/
def start (s : Surroundings) : Start :=
  match Arguments.read s.arguments with
  | .error .noArguments => .ending ⟨2, "", helpText .program⟩
  | .error e => .ending (.failure 2 s!"error: {e.message}")
  | .ok (.help topic) => .ending (.success (helpText topic))
  | .ok .version => .ending (.success versionText)
  | .ok (.run i) =>
    match begin s i with
    | .ok start => start
    | .error ending => .ending ending

def replyLine (r : Session.Reply) : String := r.toJson.normalize.render ++ "\n"

/-- A whole run whose requests are all there at its beginning. -/
def run (s : Surroundings) (input : String) : Ending :=
  match start s with
  | .ending e => e
  | .session engine requests =>
    let text := match requests with
      | .standardInput => input
      | .text content => content
    let (replies, _) := Session.run engine 1 (Session.linesOf text)
    .success (String.join (replies.map replyLine))

end SharedScene.Program
