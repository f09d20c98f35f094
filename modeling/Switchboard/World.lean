import Switchboard.Analysis.Session
import Switchboard.Debug.Debugger
import Switchboard.Process

/-!
# The world

* `World`: channels, files, processes, both sides of the switchboard (analysis and debugging) and what the
  editor was told;
* `Work`: work over the world that may fail;
* `World.spawn`: start a process and connect a channel to it;
* `World.read`: take one frame off a channel and pass on what it brings.
-/

namespace Switchboard

/-- What the editor is told. -/
inductive Message where
  | debug (note : Debug.Note)
  | diagnostics (note : Analysis.Diagnostics.Note)
  /-- The answer to a command. -/
  | reply (answer : Json)

/-- A message as a line for the editor. -/
def Message.toJson : Message → Json
  | .debug n => .obj [("body", n.toJson), ("notification", "debug")]
  | .diagnostics n => .obj [("body", n.toJson), ("notification", "diagnostics")]
  | .reply v => v

/-- A message as the text of a line. -/
def Message.line (m : Message) : String := m.toJson.canonical.text

/-- Everything there is. -/
structure World where
  net : Network := {}
  disk : Disk := {}
  programs : Programs := fun _ _ => none
  processes : List Process := []
  analysis : Analysis.Registry := {}
  debugger : Debug.Debugger := {}
  /-- What the editor was told, in order. -/
  told : List Message := []
deriving Inhabited

/-- Work over the world that may fail. -/
abbrev Work (ε α : Type) := Attempt Wait World ε α

namespace World

/-- The settings. -/
def settings (w : World) : Settings := w.debugger.settings

/-- Does a wait hold? -/
def holds (wait : Wait) (w : World) : Bool := wait.holds w.net

/-- Tell the editor. -/
def tell (w : World) (m : Message) : World := { w with told := w.told ++ [m] }

/-- Tell the editor of the debugger. -/
def note (w : World) (notes : List Debug.Note) : World := { w with told := w.told ++ notes.map .debug }

/-- Work on the network alone. -/
def onNet {α : Type} (t : Task Wait Network α) : Task Wait World α := t.zoom (·.net) fun n w => { w with net := n }

/-- Calls on the network alone. -/
def call {ε α : Type} (c : Attempt Wait Network ε α) : Work ε α :=
  Attempt.zoom (·.net) (fun n w => { w with net := n }) c

/-- A channel. -/
def channel (w : World) (c : ChannelId) : Channel := w.net.channel c

/-- Change a channel. -/
def updateChannel (w : World) (c : ChannelId) (f : Channel → Channel) : World :=
  { w with net := w.net.update c f }

/-- Connect a channel. -/
def connect (w : World) (ch : Channel) : ChannelId × World :=
  let (c, net) := w.net.connect ch
  (c, { w with net })

/-- Start the process of a command and connect a channel to it. -/
def spawn (w : World) (ch : Channel) (command : String) (args : List String) (directory : Option Path) :
    Except Channel.Fault ChannelId × World :=
  match Process.obstacle? w.disk w.programs command args directory with
  | some e => (throw (.cannotStart command e.message), w)
  | none =>
    let (c, w) := w.connect { ch with child := .running }
    let script := (w.programs command args).getD []
    (pure c, { w with processes := w.processes ++ [{ channel := c, script }] })

/-! ## Events of analysis servers -/

/-- Apply an event of an analysis server. -/
def applyAnalysisEvent (k : Nat) (w : World) (e : Channel.Event) : World :=
  if e.name = Analysis.Session.publishEvent then
    match (w.analysis.session k).diagnostics.publishParams e.body with
    | some (d, n) =>
      let sessions := w.analysis.sessions.modify k fun s => { s with diagnostics := d }
      { w with analysis := { w.analysis with sessions } }.tell (.diagnostics n)
    | none => w
  else w

/-- Apply what a channel passed on, if it is the channel of an analysis server. -/
def applyAnalysis (w : World) (c : ChannelId) : World :=
  match w.analysis.sessions.findIdx? (·.channel = c) with
  | some k =>
    let heard := (w.channel c).heard
    (heard.map (·.event)).foldl (applyAnalysisEvent k) (w.updateChannel c fun ch => { ch with heard := [] })
  | none => w

/-- Take one frame off the incoming bytes of a channel. Says whether there may be more. -/
def read (w : World) (c : ChannelId) : Bool × World :=
  let (more, net) := w.net.updateWith c Channel.readOne
  (more, { w with net }.applyAnalysis c)

end World

end Switchboard
