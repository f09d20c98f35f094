import Switchboard.Editor.Service
import Switchboard.LogFile
import Switchboard.Settings.Load

/-!
# The command line

* `CommandLine.Options`: what the arguments say, read by `CommandLine.parse`;
* `CommandLine.start`: settings are loaded, the log file is made ready, and the service begins;
* `CommandLine.exitCode`: how the program ends.

Settings that cannot be loaded are replaced by the plain ones. A log that cannot be made ready ends the
program.
-/

namespace Switchboard.CommandLine

/-- What the arguments say. -/
structure Options where
  configDirectory : Option Path := none
  projectDirectory : Option Path := none
  logDirectory : Option Path := none
  help : Bool := false
deriving DecidableEq, Repr, Inhabited

/-- How the program is called. -/
def usage : String := "usage: relay [--config-dir DIR] [--project DIR] [--log-dir DIR]"

/-- Why the program ends early. -/
inductive Fault where
  | valueMissing (flag : String)
  | unknownArgument (argument : String)
  | logDirectory (directory : Path) (fault : Disk.Fault)
  | logFile (file : Path) (fault : Disk.Fault)
  /-- The input of the service cannot be read any more. -/
  | input (reason : String)
deriving Repr

namespace Fault

/-- The wording of a fault. -/
def message : Fault → String
  | valueMissing flag => flag ++ " needs a value"
  | unknownArgument argument => "unknown argument: " ++ argument ++ "\n" ++ usage
  | logDirectory directory fault => "cannot create log directory " ++ directory.text ++ ": " ++ fault.message
  | logFile file fault => "cannot open log file " ++ file.text ++ ": " ++ fault.message
  | input reason => reason

/-- The exit code of a fault: two for wrong arguments, one for all else. -/
def exitCode : Fault → Nat
  | valueMissing _ | unknownArgument _ => 2
  | _ => 1

end Fault

/-- A line on the standard error stream. -/
def complaint (text : String) : String := "relay: " ++ text

/-! ## Arguments -/

/-- Read the arguments. Of a flag that is repeated the last value counts. -/
def parseFrom (o : Options) : List String → Except Fault Options
  | [] => pure o
  | "--config-dir" :: dir :: rest => parseFrom { o with configDirectory := some ⟨dir⟩ } rest
  | "--project" :: dir :: rest => parseFrom { o with projectDirectory := some ⟨dir⟩ } rest
  | "--log-dir" :: dir :: rest => parseFrom { o with logDirectory := some ⟨dir⟩ } rest
  | "-h" :: rest | "--help" :: rest => parseFrom { o with help := true } rest
  | argument :: _ =>
    if argument ∈ ["--config-dir", "--project", "--log-dir"] then throw (.valueMissing argument)
    else throw (.unknownArgument argument)

/-- Read the arguments. -/
def parse (arguments : List String) : Except Fault Options := parseFrom {} arguments

/-! ## Starting -/

/-- Where the program finds itself. -/
structure Surroundings where
  /-- Where programs keep their settings. -/
  configHome : Path
  /-- Where programs keep their data. -/
  dataHome : Path
  /-- The current directory. -/
  current : Path
  processId : Nat := 1
  programs : Programs := fun _ _ => none

namespace Surroundings

/-- The directory of this program under another one. -/
def own (home : Path) : Path := home.join ⟨"relay"⟩

/-- Where the settings are. -/
def configDirectory (s : Surroundings) (o : Options) : Path := o.configDirectory.getD (own s.configHome)

/-- Where breakpoints and launch configurations are kept. -/
def stateDirectory (s : Surroundings) : Path := own s.dataHome

/-- Where the log is. -/
def logDirectory (s : Surroundings) (o : Options) : Path :=
  o.logDirectory.getD (s.stateDirectory.join ⟨"logs"⟩)

end Surroundings

/-- What starting leads to. -/
structure Started where
  /-- What was said on the standard error stream. -/
  warnings : List String := []
  service : Except Fault Editor.Service
  disk : Disk

/-- Make the log file ready: its directory is made, a large log is moved, and the file is there. Gives what is
worth a warning. -/
def prepareLog (directory : Path) (d : Disk) : Except Fault (List String) × Disk :=
  match LogFile.prepare d directory with
  | (.error e, d) => (throw (.logDirectory directory e), d)
  | (.ok log, d) =>
    let (rotated, d) := LogFile.Rotation.rotate {} log d
    let warnings := match rotated with
      | .ok () => []
      | .error e => [complaint ("log rotation failed: " ++ e.message)]
    match d.touch log with
    | .ok d => (pure warnings, d)
    | .error e => (throw (.logFile log e), d)

/-- Load the settings, make the log ready and begin the service. -/
def start (o : Options) (s : Surroundings) (d : Disk) : Started :=
  let (loaded, d) := Settings.load d (s.configDirectory o) (some (o.projectDirectory.getD s.current))
  let settings := loaded.toOption.getD {}
  match prepareLog (s.logDirectory o) d with
  | (.error e, d) => { service := throw e, disk := d }
  | (.ok warnings, d) =>
    let world := Editor.Service.worldOf settings s.stateDirectory s.current s.processId d s.programs
    { warnings, service := pure (.ofWorld world), disk := d }

/-- Why a service is over, if its input is at fault. -/
def faultOf (s : Editor.Service) : Option Fault :=
  match s.phase with
  | .ended (some reason) => some (.input reason)
  | _ => none

/-- The exit code at the end of a service. -/
def exitCode (s : Editor.Service) : Nat := ((faultOf s).map Fault.exitCode).getD 0

end Switchboard.CommandLine
