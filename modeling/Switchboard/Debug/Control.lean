import Switchboard.World

/-!
# Control and inspection of targets

* `Target.start`, `Target.perform`: launching, stepping, ending;
* `Target.refreshThreads`, `stack`, `frameVariables`, `children`, `evaluate`: looking inside.

A fetch remembers the stop it began in; what it brings is kept only if the thread is still in that stop.
-/

namespace Switchboard

/-- Debugging work. -/
abbrev Debug.DebugWork (α : Type) := Work Debug.Fault α

namespace World

/-- A target. -/
def target (w : World) (id : Nat) : Debug.Target := w.debugger.target id

/-- Change a target and tell of it. -/
def changeTarget (w : World) (id : Nat) (f : Debug.Target → Debug.Target × List Debug.Note) : World :=
  let (t, notes) := f (w.target id)
  { w with debugger := w.debugger.putTarget t }.note notes

end World

namespace Debug.Target

/-! ## Steps on a target -/

/-- Look at a target. -/
def look {α : Type} (id : Nat) (f : Target → α) : DebugWork α :=
  Attempt.ofTask (Task.view fun w => f (w.target id))

/-- Look at a target; what is not there is a fault. -/
def demand {α : Type} (id : Nat) (f : Target → Except Fault α) : DebugWork α := do
  Attempt.ofExcept (← look id f)

/-- Change a target and tell of it. -/
def change (id : Nat) (f : Target → Target × List Note) : DebugWork Unit :=
  Attempt.ofTask (Task.modify fun w => w.changeTarget id f)

/-- Change a target and tell of it, unless it refuses. -/
def tryChange (id : Nat) (f : Target → Except Fault (Target × List Note)) : DebugWork Unit :=
  Attempt.act fun w =>
    match f (w.target id) with
    | .ok r => (pure (), w.changeTarget id fun _ => r)
    | .error e => (throw e, w)

/-- The session of a target. -/
def sessionOf (id : Nat) : DebugWork Session :=
  Attempt.ofTask (Task.view fun w => w.debugger.session (w.target id).session)

/-- Send a request for a target. -/
def request (id : Nat) (command : String) (arguments : Json) : DebugWork Json := do
  World.call ((← sessionOf id).request command arguments)

/-- Send a request for a target whose answer has a body of a known shape. -/
def requestAs {α : Type} (id : Nat) (shape : Json.Shape α) (command : String) (arguments : Json) : DebugWork α := do
  World.call ((← sessionOf id).requestAs shape command arguments)

/-- The features of a target's adapter. -/
def features (id : Nat) : DebugWork Features := do World.call (← sessionOf id).features

/-! ## Launching -/

/-- Begin the launch; a target is launched once. -/
def beginLaunch (t : Target) : Except Fault (Target × List Note) :=
  if t.state = .created then
    let t := { t with state := .launching }
    pure (t, [.target .change t])
  else throw (.alreadyStarted t.id)

/-- The adapter has launched the debuggee, which may have ended already. -/
def launched (t : Target) : Target × List Note :=
  if t.state = .launching then
    let t := { t with state := .running }
    (t, [.target .change t])
  else (t, [])

/-- The adapter could not launch the debuggee. -/
def launchFailed (t : Target) : Target × List Note :=
  let t := { t with state := .terminated }
  (t, [.target .change t])

/-- Send the rendered launch or attach request. -/
def start (id : Nat) (root : Option Path) : DebugWork Unit := do
  tryChange id beginLaunch
  let launch ← look id (·.launch)
  let session ← sessionOf id
  let arguments := Template.render (launch.vars root) (session.template launch.mode)
  match ← Attempt.ofTask (request id launch.mode.name arguments).outcome with
  | .ok _ => change id launched
  | .error e => do
    change id launchFailed
    throw e

/-- The target ends without the adapter's word. -/
def markTerminated (id : Nat) : Task Wait World Unit := Task.modify fun w => w.changeTarget id terminate

/-! ## Inspection -/

/-- Ask the adapter for its threads and take them in. -/
def refreshThreads (id : Nat) : DebugWork (List DebugThread) := do
  let body ← requestAs id ThreadsBody.shape "threads" .null
  change id fun t => t.mergeThreads body.threads
  look id (·.threads)

/-- Frames as the adapter sent them, with offsets where files can be read. -/
def placeFrames (w : World) (id : Nat) (frames : List StackFrame) : List Stack.Frame :=
  let frames := frames.zipIdx.map fun x => Stack.Frame.ofMessage x.2 x.1
  if w.debugger.placesFrames then
    frames.map fun f => f.locate w.debugger.sources w.disk (w.target id).launch.project
  else frames

/-- Frames of a suspended thread, fetched once in a stop. -/
def stack (id : Nat) (thread : Int) : DebugWork (List Stack.Frame) := do
  let stop ← demand id fun t => t.currentStop thread
  match ← look id fun t => t.keptFrames? thread with
  | some frames => return frames
  | none => do
    let arguments := StackTraceArguments.toJson { threadId := thread, startFrame := some 0 }
    let body ← requestAs id StackTraceBody.shape "stackTrace" arguments
    let frames ← Attempt.ofTask (Task.view fun w => placeFrames w id body.stackFrames)
    change id fun t => (t.keepFrames thread stop frames, [])
    return frames

/-- Variables under a reference. -/
def fetchVariables (id : Nat) (rules : Rules) (reference : Int) (c : Stack.ScopeClass) :
    DebugWork (List Stack.Variable) := do
  let arguments := VariablesArguments.toJson { variablesReference := reference }
  let body ← requestAs id VariablesBody.shape "variables" arguments
  return body.contents.map fun v => rules.variable_ v c

/-- Variables of scopes; a delayable scope gives one that stands for it. -/
def expandScopes (id : Nat) (rules : Rules) : List Stack.Scope → DebugWork (List Stack.Variable)
  | [] => pure []
  | s :: rest => do
    let own ← if s.delayable then pure [s.placeholder] else fetchVariables id rules s.reference s.class_
    return own ++ (← expandScopes id rules rest)

/-- A frame by its position. -/
def frameAt (thread : Int) (index : Nat) (frames : List Stack.Frame) : Except Fault Stack.Frame :=
  match frames[index]? with
  | some f => pure f
  | none => throw (.noFrame thread index)

/-- Variables of a frame. -/
def frameVariables (id : Nat) (thread : Int) (index : Nat) : DebugWork (List Stack.Variable) := do
  let frames ← stack id thread
  let stop ← demand id fun t => t.currentStop thread
  let frame ← Attempt.ofExcept (frameAt thread index frames)
  match frame.contents with
  | some l => return l
  | none =>
    if frame.synthetic then return []
    else do
      let rules := Rules.ofFeatures (← features id)
      let body ← requestAs id ScopesBody.shape "scopes" (ScopesArguments.toJson { frameId := frame.id })
      let scopes := body.scopes.map rules.scope
      let l ← expandScopes id rules scopes
      change id fun t => (t.keepContents thread stop index scopes l, [])
      return l

/-- Children of a variable or of a scope that was delayed; leaves have none. -/
def children (id : Nat) (reference : Int) : DebugWork (List Stack.Variable) := do
  if reference ≤ 0 then return []
  else fetchVariables id (Rules.ofFeatures (← features id)) reference .other

/-- Evaluate an expression in a frame. -/
def evaluate (id : Nat) (frame : Int) (expression : String) : DebugWork EvaluateBody :=
  requestAs id EvaluateBody.shape "evaluate"
    (EvaluateArguments.toJson { expression, frameId := some frame, context := some "repl" })

/-! ## Execution control -/

/-- Send a request about a thread. -/
def requestThread (id : Nat) (command : String) (thread : Int) : DebugWork Json :=
  request id command (ThreadArguments.toJson { threadId := thread })

/-- A thread went on because an editor asked for it. -/
def resumed (id : Nat) (thread : Int) (all : Bool) (detail : String) : DebugWork Unit :=
  change id fun t => t.applyResume thread all detail

/-- Do all threads go on? An adapter that is silent about it resumes all of them. -/
def resumesAll (body : Json) : Except Fault Bool :=
  if body.isNull then pure true
  else
    match ContinueBody.shape body with
    | .ok b => pure (b.allThreadsContinued.getD true)
    | .error e => throw (.badBody "continue" e)

/-- Step a thread. -/
def stepThread (id : Nat) (thread : Int) (command detail : String) : DebugWork Unit := do
  let _ ← requestThread id command thread
  resumed id thread false detail

/-- Carry out an action on a thread. -/
def act (id : Nat) (thread : Int) (frame : Option Nat) : Action → DebugWork Unit
  | .resume => do
    let body ← requestThread id "continue" thread
    resumed id thread (← Attempt.ofExcept (resumesAll body)) "resume"
  | .stepInto => stepThread id thread "stepIn" "step_into"
  | .stepOver => stepThread id thread "next" "step_over"
  | .stepReturn => stepThread id thread "stepOut" "step_return"
  | .suspend => do
    let _ ← requestThread id "pause" thread
  | .terminate => do
    if Session.supports (← features id) "supportsTerminateRequest" then
      let _ ← request id "terminate" (.obj [])
    else
      let _ ← request id "disconnect" Session.farewell
  | .dropToFrame => do
    let frames ← stack id thread
    let f ← Attempt.ofExcept (frameAt thread (frame.getD 0) frames)
    let _ ← request id "restartFrame" (RestartFrameArguments.toJson { frameId := f.id })
    resumed id thread false "drop_to_frame"

/-- Perform an action. Says whether the target was running. -/
def perform (id : Nat) (action : Action) (thread : Option Int) (frame : Option Nat) : DebugWork Bool := do
  if (← look id (·.state)) ≠ .running then return false
  else do
    let thread ← match thread with
      | some t => pure t
      | none => demand id (·.defaultThread)
    act id thread frame action
    return true

end Debug.Target

end Switchboard
