import Switchboard.Disk

/-!
# Log files

* `LogFile.filter`: how much of a level's name is logged;
* `LogFile.prepare`: the log file of a directory;
* `Rotation.rotate`: a log that has grown is moved to `log.1`, that to `log.2`, and so on.
-/

namespace Switchboard.LogFile

/-- The name of the log file. -/
def name : String := "relay.log"

/-- The filter of a level, in letters of either case; an unknown level logs what `info` does. -/
def filter (level : String) : String :=
  match Text.lower level with
  | "trace" => "trace"
  | "debug" => "debug"
  | "warn" => "warn"
  | "warning" => "warn"
  | "error" => "error"
  | _ => "info"

/-- The log file of a directory, which is made if it is missing. -/
def prepare (d : Disk) (directory : Path) : Except Disk.Fault Path × Disk :=
  match d.makeDirectories directory with
  | (.ok (), d) => (pure (directory.join ⟨name⟩), d)
  | (.error e, d) => (throw e, d)

/-- When and how far logs are moved. -/
structure Rotation where
  /-- The size in bytes from which a log is moved. -/
  maxSize : Nat := 10 * 1024 * 1024
  /-- How many moved logs are kept. -/
  maxFiles : Nat := 5
deriving DecidableEq, Repr, Inhabited

namespace Rotation

-- Irreducible: the path is never looked into where a rotation is unfolded.
/-- The place of a moved log. -/
@[irreducible]
def numbered (log : Path) (i : Nat) : Path :=
  (log.parent?.getD ⟨"."⟩).join ⟨log.fileName?.getD "" ++ "." ++ toString i⟩

/-- Move `log.n` to `log.(n+1)`, then `log.(n-1)` to `log.n`, and so on down to `log.1`. What was done before a
refusal stays done. -/
def shift (log : Path) : Nat → Disk → Except Disk.Fault Unit × Disk
  | 0, d => (pure (), d)
  | n + 1, d =>
    if d.pathExists (numbered log (n + 1)) then
      match d.rename (numbered log (n + 1)) (numbered log (n + 2)) with
      | .ok d => shift log n d
      | .error e => (throw e, d)
    else shift log n d

/-- Remove the oldest log, if it is there. -/
def dropOldest (r : Rotation) (log : Path) (d : Disk) : Except Disk.Fault Disk :=
  if d.pathExists (numbered log r.maxFiles) then d.removeFile (numbered log r.maxFiles) else pure d

/-- Move the log and the logs moved before. -/
def move (r : Rotation) (log : Path) (d : Disk) : Except Disk.Fault Unit × Disk :=
  match r.dropOldest log d with
  | .error e => (throw e, d)
  | .ok d =>
    match shift log (r.maxFiles - 1) d with
    | (.error e, d) => (throw e, d)
    | (.ok _, d) =>
      match d.rename log (numbered log 1) with
      | .ok d => (pure (), d)
      | .error e => (throw e, d)

/-- Move the log if it has grown to the size; one that is missing or small stays. -/
def rotate (r : Rotation) (log : Path) (d : Disk) : Except Disk.Fault Unit × Disk :=
  match d.size log with
  | .error _ => (pure (), d)
  | .ok n => if n < r.maxSize then (pure (), d) else r.move log d

end Rotation

end Switchboard.LogFile
