import Switchboard.CommandLine

/-!
# The program

Files are looked at before they are needed and written back when they have changed; lines come from the
standard input, and what the editor is told goes to the standard output. The program has no way to start
other programs, so every server and adapter counts as one that cannot be found.
-/

namespace Switchboard.Program

/-! ## Files -/

/-- Files that matter when the program starts. -/
def filesAtStart (o : CommandLine.Options) (s : CommandLine.Surroundings) : List Path :=
  let project := o.projectDirectory.getD s.current
  let configs := (project :: project.ancestors).map fun dir => (dir.join ⟨".relay"⟩).join ⟨"config.toml"⟩
  let log := (s.logDirectory o).join ⟨LogFile.name⟩
  let logs := log :: (List.range 6).map (LogFile.Rotation.numbered log)
  [(s.configDirectory o).join ⟨"config.toml"⟩] ++ configs ++ logs
    ++ ["breakpoints.json", "launches.json"].map fun name => s.stateDirectory.join ⟨name⟩

/-- Files that matter for a line: that of a breakpoint to add and those that have breakpoints. -/
def filesForLine (s : Editor.Service) (line : String) : List Path :=
  let b := s.world.debugger
  let named := match (Editor.Order.ofLine line).map fun o => Debug.Command.ofJson o.command o.arguments with
    | some (.ok (.addBreakpoint project path _ _)) => [(project, path)]
    | _ => []
  (named ++ b.breakpoints.files).filterMap fun f => (b.sources.fullPath f.1 f.2).toOption

/-- Look at a file, and at what stands in the place of the directories above it. -/
def look (d : Disk) (p : Path) : IO Disk := do
  let mut d := d
  for place in p :: p.ancestors do
    match d.place place with
    | .error _ => pure ()
    | .ok at_ =>
      let content ← try some <$> IO.FS.readBinFile place.text catch _ => pure none
      match content with
      | some content => d := d.install at_ (.file content)
      | none => if place.text = p.text then d := d.drop at_
  return d

/-- Write back what has changed. -/
def writeBack (old new : Disk) : IO Unit := do
  let name (place : List String) := "/" ++ "/".intercalate place
  for (place, entry) in old.entries do
    match entry with
    | .file _ => if (new.entry? place).isNone then IO.FS.removeFile (name place)
    | .directory => pure ()
  for (place, entry) in new.entries do
    match entry, old.entry? place with
    | .directory, none => IO.FS.createDirAll (name place)
    | .directory, some _ => pure ()
    | .file content, some (.file before) => if content.data ≠ before.data then IO.FS.writeBinFile (name place) content
    | .file content, _ => do
      IO.FS.createDirAll (name place.dropLast)
      IO.FS.writeBinFile (name place) content

/-! ## Surroundings -/

/-- A directory that the environment names, or one under the home directory. -/
def homeDirectory (variable_ fallback : String) : IO Path := do
  match (← IO.getEnv variable_).map Path.mk with
  | some p => if p.isAbsolute then return p
  | none => pure ()
  return (Path.mk ((← IO.getEnv "HOME").getD "/")).join ⟨fallback⟩

/-- The number of this process, if the system tells. -/
def processId : IO Nat := do
  try return (((← IO.FS.readFile "/proc/self/stat").splitOn " ").head?.bind String.toNat?).getD 1
  catch _ => return 1

/-- Where the program finds itself. -/
def surroundings : IO CommandLine.Surroundings := do
  return {
    configHome := ← homeDirectory "XDG_CONFIG_HOME" ".config"
    dataHome := ← homeDirectory "XDG_DATA_HOME" ".local/share"
    current := ⟨(← IO.currentDir).toString⟩
    processId := ← processId }

/-! ## Serving -/

/-- Pass on what the editor is told, and write back what has changed since. -/
def pass (before : Disk) (s : Editor.Service) : IO Editor.Service := do
  let (told, s) := s.takeTold
  let output ← IO.getStdout
  for m in told do
    output.putStrLn m.line
  output.flush
  writeBack before s.world.disk
  return s

/-- Go on until nothing that was asked for remains to be done. -/
def goOn (s : Editor.Service) : IO Editor.Service :=
  pass s.world.disk (s.finish Editor.Service.deadlineBound)

/-- Take up lines until the service is over. -/
partial def serve (s : Editor.Service) : IO Editor.Service := do
  match s.phase with
  | .ended _ => return s
  | _ =>
    let line? ← try some <$> (← IO.getStdin).getLine catch _ => pure none
    match line? with
    | none => goOn (s.feed [0xFF, 0x0A])
    | some "" => goOn s.endInput
    | some line => do
      let disk ← (filesForLine s line).foldlM look s.world.disk
      let s := { s with activity := s.activity.onWorld fun w => { w with disk } }
      serve (← goOn (s.feed (Utf8.encode line)))

/-- End with a fault. -/
def fail (e : CommandLine.Fault) : IO UInt32 := do
  IO.eprintln (CommandLine.complaint e.message)
  return e.exitCode.toUInt32

/-- Start the service and serve. -/
def run (o : CommandLine.Options) : IO UInt32 := do
  let place ← surroundings
  let empty : Disk := { current := place.current.pieces.filter (· ≠ "") }
  let disk ← (filesAtStart o place).foldlM look empty
  let started := CommandLine.start o place disk
  writeBack disk started.disk
  for warning in started.warnings do
    IO.eprintln warning
  match started.service with
  | .error e => fail e
  | .ok s =>
    let s ← serve s
    match CommandLine.faultOf s with
    | some e => fail e
    | none => return 0

end Switchboard.Program

/-- The program: read the arguments, then serve the editor. -/
def main (arguments : List String) : IO UInt32 := do
  match Switchboard.CommandLine.parse arguments with
  | .error e => Switchboard.Program.fail e
  | .ok o =>
    if o.help then
      IO.println Switchboard.CommandLine.usage
      return 0
    else Switchboard.Program.run o
