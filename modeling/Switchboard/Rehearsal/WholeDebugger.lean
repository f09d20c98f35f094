import Switchboard.Debug.Command
import Switchboard.Rehearsal.OneTarget

/-!
# Rehearsals of the debugger

`WholeDebugger.play` runs a script of commands on a debugger, with any number of sessions whose adapters are
scripted peers, and with changes to the files behind its back.
-/

namespace Switchboard.Script.WholeDebugger

/-- The directory in which the debugger keeps its state. -/
def stateDirectory : Path := ⟨"state"⟩

/-- A rehearsal with the names of its sessions, one for each peer. -/
structure Play where
  rehearsal : Rehearsal
  names : List String := []

namespace Play

/-- The world of a play. -/
def world (p : Play) : World := p.rehearsal.world

/-- Change the rehearsal. -/
def onRehearsal (p : Play) (f : Rehearsal → Rehearsal) : Play := { p with rehearsal := f p.rehearsal }

/-- The peer of a session, by name. -/
def peer (p : Play) (name : String) : Nat := p.names.length - 1 - p.names.reverse.idxOf name

/-- Begin a call under a number and let everybody take turns. -/
def begin (p : Play) (number : Nat) (work : Task Wait World Json) : Play :=
  p.onRehearsal fun r => (r.begin number work).settle

/-! ## Sessions -/

/-- Connect a session to a new peer; it becomes the one of its language. -/
def connect (p : Play) (number : Nat) (name : String) (s : Json) : Play :=
  let language := String.ofList (name.toList.takeWhile (· ≠ '#'))
  let settings := p.world.settings
  let ch := { World.adapterChannel settings language with limit := nat? (get s "timeout_ms") }
  let (channel, r) := p.rehearsal.connect ch (habitsOf (get s "auto"))
  let adapter := (settings.adapter? language).getD (OneTarget.adapterOf .null)
  let (id, b) := p.world.debugger.addSession { language, adapter, channel }
  let p : Play := { rehearsal := r.onWorld fun w => { w with debugger := b }, names := p.names ++ [name] }
  p.begin number do
    Debug.Running.insertSession id
    return "inserted"

/-- An event as an adapter sends it. -/
def eventFrame (name : String) (body : Option Json) : Json :=
  .record [("seq", some (.int 0)), ("type", some "event"), ("event", some name), ("body", body)]

/-- A step of the peer of a session, by its key. -/
def ofPeer (p : Play) (name key : String) (v : Json) : Option Json × Play :=
  match peerStep (p.peer name) key v p.rehearsal with
  | some (ret, r) => (ret, { p with rehearsal := r })
  | none => (none, p)

/-! ## Files -/

/-- A state file as JSON. -/
def stateFile (p : Play) (name : String) : Json :=
  orNull (((p.world.disk.readText (stateDirectory.join ⟨name⟩)).toOption).bind Json.read?)

/-- Change the disk. -/
def onDisk (p : Play) (f : Disk → Disk) : Play := p.onRehearsal fun r => r.onWorld fun w => { w with disk := f w.disk }

/-- Change the debugger. -/
def onDebugger (p : Play) (f : Debug.Debugger → Debug.Debugger) : Play :=
  p.onRehearsal fun r => r.onWorld fun w => { w with debugger := f w.debugger }

/-- Anchors of a file resolve so many characters further on. -/
def drift (p : Play) (path : Path) (by_ : Int) : Play :=
  p.onDebugger fun b => { b with drift := (path, by_) :: b.drift.filter fun x => !x.1.same path }

/-- A new debugger on what is on the disk. -/
def restart (p : Play) : Play :=
  let b := p.world.debugger
  p.onRehearsal fun r =>
    r.restart { Debug.Debugger.ofDisk b.settings b.sources stateDirectory p.world.disk with drift := b.drift }

/-! ## Steps -/

/-- What one step does. Gives what is to be reported of it. -/
def perform (p : Play) (k : Nat) (key : String) (v s : Json) : Option Json × Play :=
  let l := items v
  let name := text (at_ l 0)
  match key with
  | "cmd" => (none, p.begin k (Debug.Command.answer (text v) (get s "args")))
  | "session" => (none, p.connect k (text v) s)
  | "event" => p.ofPeer name "frame" (eventFrame (text (at_ l 1)) l[2]?)
  | "frame" => p.ofPeer name key (at_ l 1)
  | "respond" | "auto" => p.ofPeer name key (.arr l.tail)
  | "eof" | "close_input" => p.ofPeer (text v) key .null
  | "advance" => p.ofPeer "" key v
  | "shift" => (none, p.drift ⟨name⟩ (int (at_ l 1)))
  | "write" => (none, p.onDisk fun d => installFile d (name, at_ l 1))
  | "remove" => (none, p.onDisk fun d => (d.removeFile (path v)).toOption.getD d)
  | "disk" =>
    (some (.obj [("breakpoints", p.stateFile "breakpoints.json"), ("launches", p.stateFile "launches.json")]), p)
  | "restart" => (none, p.restart)
  | "shutdown" => (none, p.begin k do
    Debug.Running.shutdown
    return "shut down")
  | "handles" => (some (Debug.Command.isName (text v)), p)
  | _ => (none, p)

/-- The key of a step that may have arguments. -/
def keyOf (s : Json) : String × Json :=
  match s.get? "cmd", s.get? "session" with
  | some v, _ => ("cmd", v)
  | none, some v => ("session", v)
  | none, none => onlyMember s

/-- What every peer received, by session. -/
def takeSent (p : Play) : List (String × Json) × Play :=
  p.names.zipIdx.foldl (fun (sent, p) x =>
    let (l, r) := p.rehearsal.takeReceived x.2
    (sent ++ listMember x.1 l, { p with rehearsal := r })) ([], p)

/-- The phases of the sessions. -/
def phases (p : Play) : List (String × Json) :=
  p.names.zipIdx.map fun x => (x.1, .str (p.rehearsal.channel x.2).phase.name)

/-- One step and its report. -/
def step (k : Nat) (s : Json) (p : Play) : Json × Play :=
  let (key, v) := keyOf s
  let (ret, p) := p.perform k key v s
  let p := p.onRehearsal Rehearsal.settle
  let (done, r) := p.rehearsal.takeResults
  let (told, r) := r.takeTold
  let (sent, p) := takeSent { p with rehearsal := r }
  (.obj (listMember "done" (doneJson done) ++ (if sent.isEmpty then [] else [("sent", .obj sent)])
    ++ listMember "notes" (debugNotes told)
    ++ (if p.names.isEmpty then [] else [("sessions", Json.canonical (.obj p.phases))]) ++ optionMember "ret" ret), p)

end Play

/-- Run a script on a debugger with files on the disk. -/
def play (disk : Disk) (script : Json) : Json :=
  let settings := ((Settings.shape .json (get script "config")).toOption).getD {}
  let world : World := { disk, debugger := .ofDisk settings settings.sources stateDirectory disk }
  .arr (run Play.step 0 (items (get script "steps")) { rehearsal := { activity := { world } } })

end Switchboard.Script.WholeDebugger
