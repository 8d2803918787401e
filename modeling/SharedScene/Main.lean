import SharedScene.Program.Run
import Std.Time.DateTime.Timestamp

/-!
# The command line program

The outer layer: it reads the environment, the files that the run may look at and the lines of the
requests, and prints what the run says. Requests are answered line by line, each at the time of the
system's clock, so that the program can be talked to.
-/

namespace SharedScene.Program

/-- The code of the system for a directory where a file should be. -/
def isDirectoryCode : UInt32 := 21

/-- What stands at a path of the file system. -/
def entryAt (path : String) : IO FileEntry := do
  try
    let bytes ← IO.FS.readBinFile path
    match String.fromUTF8? bytes with
    | some content => return .file content
    | none => return .unreadable
  catch
    | .noFileOrDirectory .. => return .missing
    | .inappropriateType _ code _ =>
      return if code == isDirectoryCode then .directory else .missing
    | _ => return .unreadable

/-- What stands at each of some paths. -/
def entriesAt (paths : List String) : IO (List (String × FileEntry)) :=
  paths.mapM fun path => do return (path, ← entryAt path)

/-- The names of the variables that a run looks at. -/
def variableNames : List String :=
  ["HOME", "XDG_CONFIG_HOME", "RUST_LOG"] ++ Override.all.map (·.name)

/-- The variables of the process that a run looks at. -/
def readEnvironment : IO Environment := do
  let values ← variableNames.mapM fun name => do return (name, ← IO.getEnv name)
  return fun name => (SortedMap.find? name values).join

/-- The milliseconds since the beginning of 1970. -/
def systemClock : IO Int := do
  return (← Std.Time.Timestamp.now).toMillisecondsSinceUnixEpoch.toInt

/-- A stem for ids that no other run has. -/
def freshStem : IO String := do
  let words ← (List.range 4).mapM fun _ => IO.rand 0 (Nat.pow 2 30 - 1)
  return String.join (words.map fun n => Text.padZeros 10 n) ++ "-"

/-- Prints at once. -/
def printNow (text : String) : IO Unit := do
  IO.print text
  (← IO.getStdout).flush

/-- Answers one line at the time of the system's clock. -/
def answerLine (engine : Engine) (number : Nat) (line : String) : IO Engine := do
  let (reply, engine) := Session.step (engine.setClock (← systemClock)) number line
  match reply with
  | some r => printNow (replyLine r)
  | none => pure ()
  return engine

/-- Answers lines from standard input until it ends. -/
partial def answerInput (engine : Engine) (number : Nat) : IO UInt32 := do
  let line ← try (← IO.getStdin).getLine
    catch _ =>
      IO.eprintln s!"Error: Failed to read request line {number}"
      return 1
  if line.isEmpty then return 0
  match Session.linesOf line with
  | [] => answerInput engine (number + 1)
  | line :: _ => answerInput (← answerLine engine number line) (number + 1)

/-- Runs a session to its end. -/
def answerAll (engine : Engine) (requests : Requests) : IO UInt32 := do
  match requests with
  | .standardInput => answerInput engine 1
  | .text content =>
    let _ ← (Session.linesOf content).foldlM
      (fun (engine, number) line => do return (← answerLine engine number line, number + 1))
      (engine, 1)
    return 0

end SharedScene.Program

open SharedScene Program

def main (arguments : List String) : IO UInt32 := do
  let env ← readEnvironment
  let entries ← entriesAt (paths arguments env)
  let surroundings : Surroundings :=
    { arguments, env
      files := fun path => (SortedMap.find? path entries).getD .missing
      ids := .stemmed (← freshStem)
      clock := ← systemClock }
  match start surroundings with
  | .ending e =>
    printNow e.output
    IO.eprint e.errors
    return e.exitCode.toUInt32
  | .session engine requests => answerAll engine requests
