import SharedScene.Config.Document
import SharedScene.Config.Environment

/-!
# Where the configuration comes from

Four sources, each over the one before: the defaults, the global file, the project file, and the
environment. The global file counts if it is a file. The project file counts if there is anything
at its place; when a path is given, that file takes its place and must be there. What comes out is
validated.

Files are seen through a `FileView`, so all this is a function of what stands in them.
-/

namespace SharedScene

/-- What stands at a path of the file system. -/
inductive FileEntry where
  | missing
  | directory
  | file (content : String)
  /-- A file whose content is not text. -/
  | unreadable
deriving DecidableEq, Repr

/-- What stands where in the file system. -/
abbrev FileView := String → FileEntry

/-- What the configuration is read from. -/
structure ConfigSources where
  files : FileView
  env : Environment
  /-- The place of the global file, if there is one. -/
  globalPath : Option String
  /-- The place of the project file. -/
  projectPath : String

namespace Config

/-- The layer in a file. -/
def ofFile (files : FileView) (path : String) : Except Failure Config :=
  match files path with
  | .directory => .error (.io s!"Config path is a directory, not a file: {path}")
  | .missing => .error (.io s!"Failed to read config file {path}: no such file")
  | .unreadable => .error (.io s!"Failed to read config file {path}: not a text")
  | .file content =>
    (ofToml content).mapError fun e => .parse s!"Failed to parse config file {path}: {e}"

/-- The layer of the global file. -/
def globalLayer (s : ConfigSources) : Except Failure (List Config) :=
  match s.globalPath with
  | none => .ok []
  | some path =>
    match s.files path with
    | .missing => .ok []
    | .directory => .ok []
    | _ => (ofFile s.files path).map ([·])

/-- The layer of the project file, or of the file that is given in its place. -/
def projectLayer (s : ConfigSources) (override : Option String) : Except Failure (List Config) :=
  match override with
  | some path => (ofFile s.files path).map ([·])
  | none =>
    match s.files s.projectPath with
    | .missing => .ok []
    | _ => (ofFile s.files s.projectPath).map ([·])

def load (s : ConfigSources) (override : Option String) : Except Failure Config := do
  let globalFile ← globalLayer s
  let projectFile ← projectLayer s override
  let c ← (ofLayers (globalFile ++ projectFile)).withEnvironment s.env
  validate c
  return c

end Config

end SharedScene
