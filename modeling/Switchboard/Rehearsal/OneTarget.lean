import Switchboard.Debug.Running
import Switchboard.Rehearsal.Script
import Switchboard.Sources

/-!
# Rehearsals of one target

`OneTarget.play` runs a script of events, actions and inspections on one target and its session. No event loop
takes up the events of the session; the script says what the target hears of.
-/

namespace Switchboard.Script.OneTarget

open Debug (Target Session DebugWork)

/-- What is left to do after an event. -/
def effectJson : Target.Effect → Json
  | .none => "none"
  | .stopped threads => .obj [("stopped", .arr (threads.map .int))]
  | .terminated => "terminated"

/-- Results in a list. -/
def listed {α : Type} (f : α → Json) (l : List α) : Json := .arr (l.map f)

/-- An action by its name. -/
def action (id : Nat) (l : List Json) : DebugWork Bool := do
  let a ← Attempt.ofExcept (Debug.Action.ofName (text (at_ l 0)))
  Target.perform id a (int? (at_ l 1)) (nat? (at_ l 2))

/-- The call that a step on the target begins. -/
def targetCall? (id : Nat) (key : String) (v : Json) : Option (Task Wait World Json) :=
  let l := items v
  match key with
  | "start" => some (settled debugFailure unit (Target.start id ((text? v).map Path.mk)))
  | "action" => some (settled debugFailure Json.bool (action id l))
  | "refresh" => some (settled debugFailure (listed Debug.DebugThread.toJson) (Target.refreshThreads id))
  | "stack" => some (settled debugFailure (listed Debug.Stack.Frame.toJson) (Target.stack id (int v)))
  | "variables" =>
    some (settled debugFailure (listed Debug.Stack.Variable.toJson) (Target.frameVariables id (int (at_ l 0)) (nat (at_ l 1))))
  | "children" => some (settled debugFailure (listed Debug.Stack.Variable.toJson) (Target.children id (int v)))
  | "evaluate" =>
    some (settled debugFailure Debug.EvaluateBody.toJson (Target.evaluate id (int (at_ l 0)) (text (at_ l 1))))
  | _ => none

/-- The call that a step on the session begins. -/
def sessionCall? (session : Session) (key : String) (v : Json) : Option (Task Wait World Json) :=
  let l := items v
  match key with
  | "initialize" => some (settled debugFailure unit (World.call session.introduce))
  | "finish" => some (settled debugFailure unit (World.call session.finishConfiguration))
  | "request" => some (settled debugFailure id (World.call (session.request (text (at_ l 0)) (at_ l 1))))
  | "shutdown" => some (do
    World.onNet session.shutdown
    return .null)
  | _ => none

/-- A step that shows something. -/
def shown? (id : Nat) (key : String) (v : Json) (w : World) : Option Json :=
  let session := w.debugger.session 0
  let features := (w.channel session.channel).features
  let l := items v
  match key with
  | "filters" => some (.arr ((Session.exceptionFilters features (flag (at_ l 0)) (flag (at_ l 1))).map .str))
  | "supports" => some (Session.supports features (text v))
  | "adapter_capabilities" => some (Session.adapterFeatures features).toJson
  | "wants_configuration_done" => some (session.wantsConfigurationDone features)
  | "snapshot" => some (w.target id).toJson
  | _ => none

/-- A step that changes something at once. -/
def changed (id : Nat) (key : String) (v : Json) (r : Rehearsal) : Option Json × Rehearsal :=
  let l := items v
  match key with
  | "event" =>
    let (t, notes, effect) := (r.world.target id).process_ (text (at_ l 0)) (at_ l 1)
    (some (effectJson effect), r.onWorld fun w => { w with debugger := w.debugger.putTarget t }.note notes)
  | "mark_terminated" => (none, r.onWorld fun w => w.changeTarget id Target.terminate)
  | "cap" =>
    (none, r.updateChannel (r.world.debugger.session 0).channel fun ch =>
      { ch with features := ch.features.insert (text (at_ l 0)) (at_ l 1) })
  | _ => (none, r)

/-- One step and its report. -/
def step (id : Nat) (k : Nat) (s : Json) (r : Rehearsal) : Json × Rehearsal :=
  let (key, v) := onlyMember s
  let call := targetCall? id key v <|> sessionCall? (r.world.debugger.session 0) key v
  let (ret, r) := match peerStep 0 key v r, call, shown? id key v r.world with
    | some x, _, _ => x
    | none, some work, _ => (none, (r.begin k work).settle)
    | none, none, some v => (some v, r)
    | none, none, none => changed id key v r
  let r := r.settle
  let (done, r) := r.takeResults
  let (told, r) := r.takeTold
  let (sent, r) := r.takeReceived 0
  let (heard, r) := takeHeard 0 r
  let t := r.world.target id
  (.obj ([("state", .str t.state.name), ("session", .str (r.world.channel 0).phase.name), ("stamp", .nat t.stamp)]
    ++ listMember "suspended" (t.suspendedThreads.map .int) ++ listMember "sent" sent
    ++ listMember "done" (doneJson done) ++ listMember "notes" (debugNotes told)
    ++ listMember "streamed" (heard.map fun h => .arr [.str h.event.name, h.event.body]) ++ optionMember "ret" ret), r)

/-- The launch configuration of a script, or a plain one. -/
def launchOf (language : String) (v : Json) : Debug.Launch :=
  match Debug.Launch.shape v with
  | .ok l => l
  | .error _ => { id := 1, name := "Main", language, project := "demo", attributes := [(.program, "/bin/demo")] }

/-- The adapter of a script, or a plain one. -/
def adapterOf (v : Json) : Settings.Adapter :=
  match Settings.recordShape .json "DebugAdapterEntry" Settings.adapterFields v with
  | .ok a => a
  | .error _ =>
    { command := "fake", adapterId := "fake"
      launch := [("program", .str "$\x7bprogram\x7d"), ("request", .str "launch")] }

/-- Run a script on a target, with files on the disk if it has settings. -/
def play (disk : Disk) (script : Json) : Json :=
  let language := (text? (get script "language")).getD "java"
  let settings? := (script.get? "config").bind fun v => (Settings.shape .json v).toOption
  let settings := settings?.getD {}
  let ch : Channel :=
    { dialect := .sequenced, limit := nat? (get script "timeout_ms"), handlers := Handlers.onAny {} "events"
      features := .ofJson (get script "caps") }
  let id := (nat? (get script "id")).getD 1
  let debugger : Debug.Debugger :=
    { settings, sources := settings.sources, placesFrames := settings?.isSome, nextTarget := id }
  let (channel, r) := Rehearsal.connect { activity := { world := { disk, debugger } } } ch (habitsOf (get script "auto"))
  let (s, b) := debugger.addSession { language, adapter := adapterOf (get script "adapter"), channel }
  let (_, b) := b.addTarget (launchOf language (get script "launch")) s
  .arr (run (step id) 0 (items (get script "steps")) (r.onWorld fun w => { w with debugger := b }))

end Switchboard.Script.OneTarget
