import Switchboard.Disk
import Switchboard.Settings.Basic
import Switchboard.Text.Lines

/-!
# Source files of projects

* `Sources`: project roots, project languages, and languages by file extension;
* `Sources.open?`: the lines of a file of a project;
* `Sources.Fault`: why a file has none;
* `Settings.sources`: sources of the configured projects and languages.
-/

namespace Switchboard

/-- Why a source file cannot be used. -/
inductive Sources.Fault where
  | unknownProject (name : String)
  | fileNotFound (path : Path)
  | disk (fault : Disk.Fault)
  | position (fault : Text.PositionError)
deriving DecidableEq, Repr

/-- The wording of a fault. -/
def Sources.Fault.message : Sources.Fault → String
  | unknownProject name => "unknown project: " ++ name
  | fileNotFound path => "file not found: " ++ path.text
  | disk fault => "file I/O error: " ++ fault.message
  | position fault => fault.message

/-- Project roots and languages; of two entries under one key the later one counts. -/
structure Sources where
  roots : List (String × Path) := []
  projectLanguages : List (String × String) := []
  extensions : List (String × String) := []
  /-- The root of projects that have none of their own. -/
  fallback : Option Path := none
deriving Repr, Inhabited

namespace Sources

/-- Register a project. -/
def addProject (s : Sources) (name : String) (root : Path) (language : Option String) : Sources :=
  { s with
    roots := (name, root) :: s.roots
    projectLanguages := match language with
      | some l => (name, l) :: s.projectLanguages
      | none => s.projectLanguages }

/-- Register a file extension, its leading dots dropped. -/
def addExtension (s : Sources) (extension language : String) : Sources :=
  { s with extensions := (Text.trimStartOf (· = '.') extension, language) :: s.extensions }

/-- The full path of a file of a project. -/
def fullPath (s : Sources) (project : String) (path : Path) : Except Fault Path :=
  if path.isAbsolute then pure path
  else
    match s.roots.lookup project <|> s.fallback with
    | some root => pure (root.join path)
    | none => throw (.unknownProject project)

/-- The lines of a file. -/
def load (d : Disk) (full : Path) : Except Fault Text.Lines :=
  if !d.pathExists full then throw (.fileNotFound full)
  else
    match d.readText full with
    | .ok text => pure (.ofText text)
    | .error e => throw (.disk e)

/-- The full path and the lines of a file of a project. -/
def open? (s : Sources) (d : Disk) (project : String) (path : Path) : Except Fault (Path × Text.Lines) := do
  let full ← s.fullPath project path
  return (full, ← load d full)

/-- The language of a project. -/
def projectLanguage? (s : Sources) (project : String) : Option String := s.projectLanguages.lookup project

/-- The language of a file, by its extension. -/
def languageOf? (s : Sources) (path : Path) : Option String := path.extension?.bind fun e => s.extensions.lookup e

/-- The offset of a position in a file of a project. -/
def offsetIn (s : Sources) (d : Disk) (project : String) (path : Path) (p : Text.Position) :
    Except Fault Nat := do
  let (_, lines) ← s.open? d project path
  match lines.offsetOf p with
  | .ok n => return n
  | .error e => throw (.position e)

end Sources

/-- Sources of the configured projects and languages. -/
def Settings.sources (s : Settings) : Sources :=
  let projects := s.projects.foldl (fun x p => Sources.addProject x p.1 p.2.root p.2.language) {}
  s.languages.foldl (fun x l => l.2.extensions.foldl (fun x e => Sources.addExtension x e l.1) x) projects

end Switchboard
