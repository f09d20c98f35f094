import Switchboard.Analysis.Running
import Switchboard.Rehearsal.Script

/-!
# Rehearsals of analysis sessions

`AnalysisSessions.play` runs a script of calls on several sessions and on the registry that holds them.
-/

namespace Switchboard.Script.AnalysisSessions

/-- The call that a step on a session begins. -/
def sessionCall? (k : Nat) (s : Json) (w : World) : Option (Task Wait World Json) :=
  let session := w.analysis.session k
  let uri := text (get s "uri")
  let run (c : Analysis.Call Unit) := some (settled analysisFailure unit (World.call c))
  match text (get s "call") with
  | "initialize" => run session.introduce
  | "request" =>
    some (settled analysisFailure id (World.call (session.request (text (get s "method")) (get s "params"))))
  | "notify" => run (session.notify (text (get s "method")) (get s "params"))
  | "did_open" => run (session.didOpen uri (text (get s "text")))
  | "did_change" => run (session.didChange uri (int (get s "version")) (text (get s "text")))
  | "did_save" => run (session.didSave uri)
  | "did_close" => run (session.didClose uri)
  | "diagnostics" => some do
    return .arr ((← Task.view fun w => (w.analysis.session k).diagnostics.get uri).map Analysis.Diagnostic.toJson)
  | "legend" => some do
    let f ← Task.view fun w => (w.channel session.channel).features
    return orNull ((Analysis.Session.legend? f).map Analysis.Legend.toJson)
  | "capabilities" => some do
    return Analysis.Session.serverFeatures (← Task.view fun w => (w.channel session.channel).features)
  | "shutdown" => some do
    World.onNet session.shutdown
    return .null
  | _ => none

/-- A language and workspace. -/
def keyJson (x : String × Path) : Json := .arr [x.1, .str x.2.text]

/-- The language and workspace of a session. -/
def keyOf (w : World) (k : Nat) : Json :=
  let server := (w.analysis.session k).server
  keyJson (server.language, server.workspace)

/-- The call that a step on the registry begins; a server is started by the command. -/
def registryCall? (command : String) (s : Json) : Option (Task Wait World Json) :=
  let language := text (get s "language")
  let workspace := path (get s "workspace")
  let number (work : Analysis.AnalysisWork Nat) := some do
    let outcome ← work.outcome
    let w ← Task.state
    return result analysisFailure (keyOf w) outcome
  match text (get s "registry") with
  | "active" => some do return .arr ((← Task.view fun w => w.analysis.active w.net).map keyJson)
  | "get" => some do
    let w ← Task.state
    return orNull ((w.analysis.find? language workspace).map (keyOf w))
  | "require" => number (Analysis.Running.require language workspace)
  | "start" => number (Analysis.Running.start { language, command, workspace } .null)
  | "shutdown" => some (settled analysisFailure unit (Analysis.Running.stop language workspace))
  | "shutdown_all" => some do
    Analysis.Running.stopAll
    return .null
  | _ => none

/-- A message with the number of this process hidden. -/
def hidePid (message : Json) : Json :=
  match message.get? "method", message.get? "params" with
  | some (.str "initialize"), some params => message.set "params" (params.set "processId" "PID")
  | _, _ => message

/-- What every peer received. -/
def takeSent (r : Rehearsal) : List (String × Json) × Rehearsal :=
  (List.range r.peers.length).foldl (fun (sent, r) p =>
    let (l, r) := Rehearsal.takeReceived r p
    (sent ++ listMember ("sent" ++ toString p) (l.map hidePid), r)) ([], r)

/-- One step and its report. -/
def step (command : String) (k : Nat) (s : Json) (r : Rehearsal) : Json × Rehearsal :=
  let peer := nat (get s "s")
  let (key, v) := (((s.asObj?.getD []).filter (·.1 ≠ "s")).head?).getD ("", .null)
  let call := if (s.get? "registry").isSome then registryCall? command s
    else if (s.get? "call").isSome then sessionCall? peer s r.world else none
  let (ret, r) := match call with
    | some work => (none, (r.begin k work).settle)
    | none => (peerStep peer key v r).getD (none, r)
  let (done, r) := r.takeResults
  let (told, r) := r.takeTold
  let (sent, r) := takeSent r
  let phases := r.peers.map fun p => Json.str (r.world.channel p.channel).phase.name
  (.obj (sent ++ [("states", .arr phases)] ++ listMember "done" (doneJson done)
    ++ listMember "notes" (diagnosticNotes told) ++ optionMember "ret" ret), r)

/-- Attach a session to a new peer. -/
def attach (limit : Option Nat) (r : Rehearsal) (v : Json) : Rehearsal :=
  let server : Analysis.Server :=
    { language := text (get v "language"), command := "", workspace := path (get v "workspace")
      initializationOptions := v.get? "init_options" }
  let (c, r) := r.connect (World.serverChannel limit (get v "caps")) (habitsOf (get v "auto"))
  r.onWorld fun w =>
    { w with analysis := (w.analysis.insert (.attach server c w.analysis.current w.analysis.processId)).2 }

/-- Run a script on sessions; the registry starts servers by the command. -/
def play (command : String) (script : Json) : Json :=
  let limit := nat? (get script "timeout_ms")
  let start : Rehearsal := { activity := { world := { analysis := { limit } } } }
  let r := (items (get script "sessions")).foldl (attach limit) start
  .arr (run (step command) 0 (items (get script "steps")) r)

end Switchboard.Script.AnalysisSessions
