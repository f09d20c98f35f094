import Switchboard.Debug.Breakpoint.Catalog
import Switchboard.Debug.Launch.Catalog
import Switchboard.Json.Record

/-!
# State files

Breakpoints and launch configurations are kept in two files of the state directory. A file is written beside
its place first and then moved into it.
-/

namespace Switchboard.Debug

open Json (Shape Fields)

/-- The directory of the state files. -/
structure Store where
  directory : Path
deriving DecidableEq, Repr, Inhabited

namespace Store

/-- The format that is written. -/
def formatVersion : Nat := 1

/-- The file of the breakpoints. -/
def breakpointsPath (s : Store) : Path := s.directory.join ⟨"breakpoints.json"⟩

/-- The file of the launch configurations. -/
def launchesPath (s : Store) : Path := s.directory.join ⟨"launches.json"⟩

/-- The file that is written first. -/
def beside (p : Path) : Path := ⟨p.text ++ ".tmp"⟩

/-- The fields of a file: a version and a list under a name. -/
def fileFields {α : Type} (list : String) (shape : Shape α) : Fields (List α) :=
  (fun _ items => items) <$> Fields.field "version" Shape.u32 <*> Fields.field list (Shape.list shape)

/-- The list in a file, empty if there is no file. -/
def readList {α : Type} (d : Disk) (p : Path) (type list : String) (shape : Shape α) : Except Fault (List α) :=
  match d.readText p with
  | .error .notFound => pure []
  | .error e => throw (.disk e)
  | .ok text =>
    match (fileFields list shape).read? type text with
    | some items => pure items
    | none => throw (.badStateFile p.text)

/-- Write a file by way of its neighbour. What was done before a refusal stays done. -/
def writeList (d : Disk) (p : Path) (list : String) (items : List Json) : Except Fault Unit × Disk :=
  let text := (Json.obj [("version", .nat formatVersion), (list, .arr items)]).pretty
  let made := match p.parent? with
    | some parent => d.makeDirectories parent
    | none => (pure (), d)
  match made with
  | (.error e, d) => (throw (.disk e), d)
  | (.ok (), d) =>
    match d.writeText (beside p) text with
    | .error e => (throw (.disk e), d)
    | .ok d =>
      match d.rename (beside p) p with
      | .error e => (throw (.disk e), d)
      | .ok d => (pure (), d)

/-- The stored breakpoints. -/
def loadBreakpoints (s : Store) (d : Disk) : Except Fault (List Breakpoint) :=
  readList d s.breakpointsPath "BreakpointFile" "breakpoints" Breakpoint.shape

/-- Store breakpoints; what an adapter said of them is left out. -/
def saveBreakpoints (s : Store) (d : Disk) (l : List Breakpoint) : Except Fault Unit × Disk :=
  writeList d s.breakpointsPath "breakpoints" (l.map fun b => { b with verification := none }.toJson)

/-- The stored launch configurations. -/
def loadLaunches (s : Store) (d : Disk) : Except Fault (List Launch) :=
  readList d s.launchesPath "LaunchFile" "launches" Launch.shape

/-- Store launch configurations. -/
def saveLaunches (s : Store) (d : Disk) (l : List Launch) : Except Fault Unit × Disk :=
  writeList d s.launchesPath "launches" (l.map Launch.toJson)

end Store

end Switchboard.Debug
