import Switchboard.Debug.Sync

/-!
# Sessions and targets coming and going

* `Running.run`: a target for a launch configuration, on the open session of its language or on a new one;
* `Running.insertSession`: a session that was connected elsewhere;
* `Running.handleEvent`, `Running.sessionClosed`: what an adapter says, and that it is gone;
* `Running.prefetch`: frames fetched ahead for a thread that has just stopped;
* `Running.threads`, `Running.evaluateExpression`: questions that fall back on what is known;
* `Running.shutdown`: the end of every session and target.

A target is claimed in one step: no two targets that have not ended share a session.
-/

namespace Switchboard

namespace World

/-- The channel of an adapter of a language, before it is connected. -/
def adapterChannel (settings : Settings) (language : String) : Channel :=
  { dialect := .sequenced, limit := settings.rpc.limit?, handlers := Handlers.onAny {} "events"
    features := .ofJson (((settings.languages.lookup language).map (·.features)).getD .null) }

/-- Start the adapter of a language; its session becomes the one of the language. That the reader starts and that the
session listens is one access: runs begin where the session listens. An event that is read before that is heard by
nobody, so it takes no part in what follows. -/
def startAdapter (w : World) (language : String) (directory : Option Path) :
    Except Debug.Fault Debug.SessionId × World :=
  let settings := w.debugger.settings
  match settings.adapter? language with
  | none => (throw (.noAdapter language), w)
  | some adapter =>
    match w.spawn (adapterChannel settings language) adapter.command adapter.args directory with
    | (.error e, w) => (throw (.ofChannel "spawn" e), w)
    | (.ok channel, w) =>
      let (s, b) := w.debugger.addSession { language, adapter, channel, served := true }
      (pure s, { w with debugger := (b.setCurrent language s).2 })

/-- The open session of a language without a target, or a new one. -/
def freeSession (w : World) (language : String) (directory : Option Path) :
    Except Debug.Fault Debug.SessionId × World :=
  match (w.debugger.current.lookup language).filter w.isSessionOpen with
  | some s =>
    if (w.debugger.liveTarget? s).isSome then (throw (.alreadyRunning language), w) else (pure s, w)
  | none => w.startAdapter language directory

/-- Reserve a target on a session of the language. -/
def claim (w : World) (launch : Debug.Launch) (directory : Option Path) : Except Debug.Fault Debug.Target × World :=
  match w.freeSession launch.language directory with
  | (.error e, w) => (throw e, w)
  | (.ok s, w) =>
    let (t, b) := w.debugger.addTarget launch s
    (pure t, { w with debugger := b }.note [.target .add t])

/-- What an event does to the target on a session. Gives the target's id and what is left to do. -/
def applyDebugEvent (w : World) (s : Debug.SessionId) (e : Channel.Event) :
    Option (Nat × Debug.Target.Effect) × World :=
  match w.debugger.liveTarget? s with
  | none => (none, w)
  | some t =>
    let (t, notes, effect) := t.process_ e.name e.body
    (some (t.id, effect), { w with debugger := w.debugger.putTarget t }.note notes)

/-- Put off fetching the frames of threads. -/
def schedulePrefetch (w : World) (target : Nat) (threads : List Int) : World :=
  let b := w.debugger
  let delay := b.settings.rpc.prefetchDelayMs
  let version := (b.target target).stamp
  let pool := threads.foldl (fun p thread => p.add (some delay) version ⟨target, thread⟩) b.pool
  { w with debugger := { b with pool } }

end World

namespace Debug.Running

/-! ## Sessions -/

/-- End a session. -/
def close (s : SessionId) : Task Wait World Unit := do
  let session ← Task.view fun w => w.debugger.session s
  World.onNet session.shutdown

/-- Make a connected session the one of its language. The one before it is ended first. -/
def insertSession (s : SessionId) : Task Wait World Unit := do
  Task.await .table
  let old ← Task.act fun w =>
    let (old, b) := w.debugger.setCurrent (w.debugger.session s).language s
    (old, { w with debugger := b })
  match old with
  | some o => if o ≠ s then close o
  | none => pure ()
  Task.modify fun w => { w with debugger := w.debugger.serve s }

/-- Do something with a target that is there. -/
def withTarget {α : Type} (id : Nat) (work : DebugWork α) : DebugWork α := do
  let known ← Attempt.ofTask (Task.view fun w => (w.debugger.target? id).isSome)
  if known then work else throw (.unknownTarget id)

/-- Run a launch configuration. Gives the id of its target. -/
def run (id : Nat) : DebugWork Nat := do
  let w ← Attempt.ofTask Task.state
  match w.debugger.launches.get? id with
  | none => throw (.noSuchLaunch id)
  | some launch => do
    let root := w.debugger.settings.projectRoot? launch.project
    Attempt.ofTask (Task.await .table)
    let target ← Attempt.act fun w => w.claim launch root
    let session ← Target.sessionOf target.id
    match ← Attempt.ofTask (World.call session.introduce).outcome with
    | .ok () => do
      Target.start target.id root
      return target.id
    | .error e => do
      Attempt.ofTask (Target.markTerminated target.id)
      throw e

/-! ## Events -/

/-- An adapter said that it is initialized: it is sent all it has to know, and the session is ready. -/
def configure (s : SessionId) : Task Wait World Unit := do
  Sync.everything s
  let session ← Task.view fun w => w.debugger.session s
  let _ ← (World.call session.finishConfiguration).outcome

/-- Forget a session whose target has ended, and end it. -/
def retire (s : SessionId) : Task Wait World Unit := do
  Task.await .table
  Task.modify fun w => { w with debugger := w.debugger.forget s }
  close s

/-- Take up one event of an adapter. -/
def handleEvent (s : SessionId) (e : Channel.Event) : Task Wait World Unit := do
  if e.name = "initialized" then configure s
  else
    match ← Task.act fun w => w.applyDebugEvent s e with
    | some (target, .stopped threads) => Task.modify fun w => w.schedulePrefetch target threads
    | some (_, .terminated) => retire s
    | _ => pure ()

/-- The adapter of a session is gone, and every event that it sent was taken up. -/
def sessionClosed (s : SessionId) : Task Wait World Unit := do
  match ← Task.view fun w => w.debugger.liveTarget? s with
  | some t => Target.markTerminated t.id
  | none => pure ()
  Task.await .table
  Task.modify fun w => { w with debugger := w.debugger.forget s }

/-- Fetch the frames of a thread ahead, unless its target has moved on when the delay is over. -/
def prefetch (job : Deferred.Job Prefetch) : Task Wait World Unit := do
  let now ← Task.view fun w => w.net.now
  Task.await (.time (now + job.delay.getD 0))
  let stamp ← Task.view fun w => (w.target job.work.target).stamp
  if stamp = job.version then
    let _ ← (Target.stack job.work.target job.work.thread).outcome

/-! ## Inspection -/

/-- Threads of a target, as the adapter lists them or, if it does not, as they are known. -/
def threads (id : Nat) : DebugWork (List DebugThread) :=
  withTarget id do
    if (← Target.look id (·.state)) = .running then
      match ← Attempt.ofTask (Target.refreshThreads id).outcome with
      | .ok l => return l
      | .error _ => Target.look id (·.threads)
    else Target.look id (·.threads)

/-- The frame of a thread in which an expression can be evaluated. -/
def chooseFrame (target : Nat) (thread : Int) (index : Nat) : Task Wait World (Option Stack.Frame) := do
  match ← (Target.stack target thread).outcome with
  | .ok frames => return frames[index]?
  | .error _ => return none

/-- Evaluate in the first thread of a target that has the frame. -/
def evaluateIn (target index : Nat) (expression : String) : List Int → DebugWork (Option EvaluateBody)
  | [] => pure none
  | thread :: rest => do
    match ← Attempt.ofTask (chooseFrame target thread index) with
    | some f => some <$> Target.evaluate target f.id expression
    | none => evaluateIn target index expression rest

/-- Evaluate in the first target that has a suspended thread with the frame. -/
def evaluateAmong (thread : Option Int) (index : Nat) (expression : String) : List Nat → DebugWork EvaluateBody
  | [] => throw .nothingToEvaluate
  | target :: rest => do
    let suspended ← Target.look target (·.suspendedThreads)
    let threads := suspended.filter fun id => thread.all (· = id)
    match ← evaluateIn target index expression threads with
    | some body => return body
    | none => evaluateAmong thread index expression rest

/-- Evaluate in a running target of a project, in a thread or else the first suspended one that has the
frame. -/
def evaluateExpression (project : Option String) (expression : String) (thread : Option Int)
    (frame : Option Nat) : DebugWork EvaluateBody := do
  let running ← Attempt.ofTask (Task.view fun w =>
    (w.debugger.targets.filter fun t => t.state = .running && project.all (· = t.launch.project)).map (·.id))
  evaluateAmong thread (frame.getD 0) expression running

/-! ## The end -/

/-- End every session, one after the other, and then every target. -/
def shutdown : Task Wait World Unit := do
  Task.await .table
  let sessions ← Task.act fun w =>
    (w.debugger.current.map (·.2), { w with debugger := { w.debugger with current := [] } })
  Task.forEach close sessions
  let targets ← Task.view fun w => w.debugger.targets.map (·.id)
  Task.forEach Target.markTerminated targets

end Debug.Running

end Switchboard
