import Switchboard.Concurrency.Deferred
import Switchboard.Debug.Launch
import Switchboard.Debug.Breakpoint
import Switchboard.Debug.Thread

/-!
# Targets: running debuggees

* `Target`: a debuggee and its threads;
* `Note`: what an editor is told about breakpoints, launch configurations, threads, targets and output;
* `Target.process`: what an event of the adapter does to a target, with the notes it causes in order.
-/

namespace Switchboard.Debug

/-- The life of a target. -/
inductive Target.State where
  | created
  | launching
  | running
  /-- It never leaves this state. -/
  | terminated
deriving DecidableEq, Repr, Inhabited

/-- The name of a state. -/
def Target.State.name : Target.State → String
  | created => "created"
  | launching => "launching"
  | running => "running"
  | terminated => "terminated"

/-- What the adapter told of the process. -/
structure Target.Process where
  name : Option String := none
  pid : Option Int := none
  startMethod : Option String := none
deriving DecidableEq, Repr, Inhabited

/-- Debug sessions are numbered in the order in which they were attached. -/
abbrev SessionId := Nat

/-- A debuggee; its threads are in order of their ids. -/
structure Target where
  id : Nat
  launch : Launch
  session : SessionId
  state : Target.State := .created
  process : Target.Process := {}
  exitCode : Option Int := none
  threads : List DebugThread := []
  /-- Raised by every thread transition. -/
  stamp : Nat := 0
deriving DecidableEq, Repr, Inhabited

/-! ## Notes -/

/-- What happened to something. -/
inductive Change where
  | add
  | change
  | remove
deriving DecidableEq, Repr, Inhabited

/-- The name of a change. -/
def Change.name : Change → String
  | add => "ADD"
  | change => "CHANGE"
  | remove => "REMOVE"

/-- What happened to a thread. -/
inductive ThreadChange where
  | create
  | change
  | terminate
deriving DecidableEq, Repr, Inhabited

/-- The name of a change. -/
def ThreadChange.name : ThreadChange → String
  | create => "CREATE"
  | change => "CHANGE"
  | terminate => "TERMINATE"

/-- What an editor is told. -/
inductive Note where
  | breakpoint (what : Change) (now : Breakpoint)
  | launch (what : Change) (now : Launch)
  | thread (targetId : Nat) (what : ThreadChange) (detail data : Option String) (now : DebugThread)
  | target (what : Change) (now : Target)
  | output (targetId : Nat) (category : Option String) (text : String)
deriving Repr

namespace Target

/-! ## JSON -/

/-- What is known of a process as JSON. -/
def Process.toJson (p : Process) : Json :=
  .record [("name", p.name.map .str), ("pid", p.pid.map .int), ("start_method", p.startMethod.map .str)]

/-- What an editor sees of a target. -/
def toJson (t : Target) : Json :=
  .record [("id", some (.nat t.id)), ("launch", some (.nat t.launch.id)), ("name", some t.launch.name),
    ("language", some t.launch.language), ("project", some t.launch.project), ("state", some t.state.name),
    ("process", some t.process.toJson), ("exit_code", t.exitCode.map .int),
    ("threads", some (.arr (t.threads.map DebugThread.toJson)))]

end Target

/-- A note as JSON. -/
def Note.toJson : Note → Json
  | .breakpoint c b => .obj [("type", "breakpoint"), ("change", c.name), ("breakpoint", b.toJson)]
  | .launch c l => .obj [("type", "launch"), ("change", c.name), ("configuration", l.toJson)]
  | .thread id c detail data t =>
    .record [("type", some "thread"), ("target", some (.nat id)), ("kind", some c.name),
      ("detail", detail.map .str), ("data", data.map .str), ("thread", some t.toJson)]
  | .target c t => .obj [("type", "target"), ("change", c.name), ("target", t.toJson)]
  | .output id category text =>
    .record [("type", some "output"), ("target", some (.nat id)), ("category", category.map .str),
      ("output", some text)]

namespace Target

/-! ## Threads -/

/-- A thread by its id. -/
def thread? (t : Target) (id : Int) : Option DebugThread := t.threads.find? (·.id = id)

/-- Put a thread into a list ordered by id. -/
def insertThread (x : DebugThread) : List DebugThread → List DebugThread
  | [] => [x]
  | y :: rest =>
    if x.id < y.id then x :: y :: rest
    else if x.id = y.id then x :: rest
    else y :: insertThread x rest

/-- Put a thread into the target. -/
def putThread (t : Target) (x : DebugThread) : Target := { t with threads := insertThread x t.threads }

/-- Ids of suspended threads, lowest first. -/
def suspendedThreads (t : Target) : List Int := (t.threads.filter (·.isSuspended)).map (·.id)

/-- The note of a thread transition. -/
def threadNote (t : Target) (c : ThreadChange) (detail data : Option String) (x : DebugThread) : Note :=
  .thread t.id c detail data x

/-- Has the target ended? -/
def isTerminated (t : Target) : Bool := t.state = .terminated

/-- Raise the stamp. -/
def raise (t : Target) : Target := { t with stamp := Deferred.raised t.stamp }

/-- Make sure that a thread is known; one that is met for the first time is announced. -/
def meet (t : Target) (id : Int) : Target × List Note :=
  match t.thread? id with
  | some _ => (t, [])
  | none => (t.putThread (.unnamed id), [t.threadNote .create none none (.unnamed id)])

/-- Change a known thread and tell of it. -/
def changeThread (t : Target) (id : Int) (detail data : Option String) (f : DebugThread → DebugThread) :
    Target × List Note :=
  match t.thread? id with
  | some x => (t.putThread (f x), [t.threadNote .change detail data (f x)])
  | none => (t, [])

/-- Do something for several threads, the notes in order. -/
def forThreads (f : Target → Int → Target × List Note) : Target → List Int → Target × List Note
  | t, [] => (t, [])
  | t, id :: rest =>
    let (t, notes) := f t id
    let (t, more) := forThreads f t rest
    (t, notes ++ more)

/-! ## Events -/

/-- A thread started, exited or changed. -/
def applyThread (t : Target) (body : ThreadBody) : Target × List Note :=
  if t.isTerminated then (t, [])
  else
    let t := t.raise
    if body.reason = "exited" then
      match t.thread? body.threadId with
      | some x =>
        ({ t with threads := t.threads.filter (·.id ≠ body.threadId) },
          [t.threadNote .terminate (some "exited") none x.terminate])
      | none => (t, [])
    else if body.reason = "started" then
      match t.thread? body.threadId with
      | some _ => (t, [])
      | none =>
        let x := DebugThread.unnamed body.threadId
        (t.putThread x, [t.threadNote .create (some "started") none x])
    else
      let (t, notes) := t.meet body.threadId
      let (t, more) := t.changeThread body.threadId (some body.reason) none fun x => x
      (t, notes ++ more)

/-- Threads stopped. Gives the ids of those that did. -/
def applyStop (t : Target) (body : StoppedBody) : Target × List Note × List Int :=
  if t.isTerminated then (t, [], [])
  else
    let t := t.raise
    let (t, notes) := match body.threadId with
      | some id => t.meet id
      | none => (t, [])
    let ids := if body.allThreadsStopped then t.threads.map (·.id) else body.threadId.toList
    let (t, more) := forThreads (fun t id =>
      t.changeThread id (some body.reason) body.text (·.suspend body.reason body.description)) t ids
    (t, notes ++ more, ids)

/-- Threads went on; only those that were not running are told of. -/
def applyResume (t : Target) (thread : Int) (all : Bool) (detail : String) : Target × List Note :=
  if t.isTerminated then (t, [])
  else
    let t := t.raise
    let ids := if all then t.threads.map (·.id) else [thread]
    forThreads (fun t id =>
      let (t, notes) := t.meet id
      match t.thread? id with
      | some x =>
        if x.state = .running then (t, notes)
        else
          let (t, more) := t.changeThread id (some detail) none (·.resume)
          (t, notes ++ more)
      | none => (t, notes)) t ids

/-- The target ends, and its threads with it. -/
def terminate (t : Target) : Target × List Note :=
  if t.isTerminated then (t, [])
  else
    let t := t.raise
    let notes := t.threads.map fun x => t.threadNote .terminate (some "terminated") none x.terminate
    let t := { t with threads := [], state := .terminated }
    (t, notes ++ [.target .change t])

/-- What is left to do after an event. -/
inductive Effect where
  | none
  /-- These threads just stopped. -/
  | stopped (threads : List Int)
  | terminated
deriving DecidableEq, Repr

/-- Apply the body of an event if it has the shape that the event demands. -/
def withBody {α : Type} (t : Target) (shape : Json.Shape α) (body : Json)
    (f : α → Target × List Note) : Target × List Note × Effect :=
  match shape body with
  | .ok a =>
    let (t, notes) := f a
    (t, notes, .none)
  | .error _ => (t, [], .none)

/-- What an event of the adapter does. Unknown events and bodies of an unexpected shape do nothing. -/
def process_ (t : Target) (name : String) (body : Json) : Target × List Note × Effect :=
  match name with
  | "process" => t.withBody ProcessBody.shape body fun b =>
    let t := { t with process := ⟨some b.name, b.systemProcessId, b.startMethod⟩ }
    (t, [.target .change t])
  | "thread" => t.withBody ThreadBody.shape body t.applyThread
  | "stopped" =>
    match StoppedBody.shape body with
    | .ok b =>
      let (t, notes, ids) := t.applyStop b
      (t, notes, .stopped ids)
    | .error _ => (t, [], .none)
  | "continued" => t.withBody ContinuedBody.shape body fun b =>
    t.applyResume b.threadId b.allThreadsContinued "continued"
  | "exited" => t.withBody ExitedBody.shape body fun b =>
    let t := { t with exitCode := some b.exitCode }
    (t, [.target .change t])
  | "terminated" =>
    let (t, notes) := t.terminate
    (t, notes, .terminated)
  | "output" => t.withBody OutputBody.shape body fun b => (t, [.output t.id b.category b.output])
  | _ => (t, [], .none)

/-- Take in the adapter's list of threads; new ones are announced. -/
def mergeThreads (t : Target) (threads : List ThreadInfo) : Target × List Note :=
  if t.isTerminated then (t, [])
  else
    threads.foldl (fun (t, notes) info =>
      match t.thread? info.id with
      | some x => (t.putThread { x with name := info.name }, notes)
      | none =>
        let x : DebugThread := { id := info.id, name := info.name }
        (t.putThread x, notes ++ [t.threadNote .create none none x])) (t, [])

/-- The first suspended thread, else the first one. -/
def defaultThread (t : Target) : Except Fault Int :=
  match t.threads.find? (·.isSuspended) <|> t.threads.head? with
  | some x => pure x.id
  | none => throw (.noThreads t.id)

/-- The number of the stop that a thread is in. -/
def currentStop (t : Target) (thread : Int) : Except Fault Nat :=
  match t.thread? thread with
  | none => throw (.unknownThread thread)
  | some x => if x.isSuspended then pure x.stop else throw (.notSuspended thread)

/-- The frames of a thread that were kept. -/
def keptFrames? (t : Target) (thread : Int) : Option (List Stack.Frame) := (t.thread? thread).bind (·.frames)

/-- Keep frames of a thread, if it is still in that stop. -/
def keepFrames (t : Target) (thread : Int) (stop : Nat) (frames : List Stack.Frame) : Target :=
  match t.thread? thread with
  | some x => t.putThread (x.storeFrames stop frames).2
  | none => t

/-- Keep the contents of a frame, if its thread is still in that stop. -/
def keepContents (t : Target) (thread : Int) (stop index : Nat) (scopes : List Stack.Scope)
    (contents : List Stack.Variable) : Target :=
  match t.thread? thread with
  | some x => t.putThread (x.storeContents stop index scopes contents).2
  | none => t

end Target

/-- Execution control that an editor asks for. -/
inductive Action where
  | resume
  | stepInto
  | stepOver
  | stepReturn
  | suspend
  | terminate
  | dropToFrame
deriving DecidableEq, Repr

/-- Every action by name. -/
def Action.byName : List (String × Action) :=
  [("RESUME", .resume), ("STEP_INTO", .stepInto), ("STEP_OVER", .stepOver), ("STEP_RETURN", .stepReturn),
    ("SUSPEND", .suspend), ("TERMINATE", .terminate), ("DROP_TO_FRAME", .dropToFrame)]

/-- The action of a name, in letters of either case. -/
def Action.ofName (name : String) : Except Fault Action :=
  match Action.byName.lookup (Text.upper name) with
  | some a => pure a
  | none => throw (.unknownAction name)

end Switchboard.Debug
