import Switchboard.Debug.Control

/-!
# Breakpoints and adapters

* `Sync.file`, `Sync.exceptions`: send the breakpoints of a file, or the exception filters, to every ready
  session that they concern;
* `Sync.everything`: send all of them to one session, which is how a session gets those that were set before
  it was ready.

An adapter always gets the complete list of a file, also an empty one. What it answers becomes the
verification of the breakpoints; what it refuses is left as it is.
-/

namespace Switchboard

namespace World

/-- Store the breakpoints. A failure leaves the file as it is; the next change writes all of it. -/
def saveBreakpoints (w : World) : World :=
  { w with disk := (w.debugger.store.saveBreakpoints w.disk w.debugger.breakpoints.entries).2 }

/-- Change the breakpoints. -/
def setBreakpoints (w : World) (c : Debug.Breakpoint.Catalog) : World :=
  { w with debugger := { w.debugger with breakpoints := c } }

/-- Tell of breakpoints. -/
def noteBreakpoints (w : World) (what : Debug.Change) (l : List Debug.Breakpoint) : World :=
  w.note (l.map (.breakpoint what))

/-- Is the session open? -/
def isSessionOpen (w : World) (s : Debug.SessionId) : Bool := (w.channel (w.debugger.session s).channel).isOpen

/-- Is the session ready? -/
def isSessionReady (w : World) (s : Debug.SessionId) : Bool :=
  (w.channel (w.debugger.session s).channel).phase = .ready

/-- Open sessions of a language, or all open ones if none is given. -/
def sessionsFor (w : World) (language : Option String) : List Debug.SessionId :=
  (w.debugger.current.filter fun x => w.isSessionOpen x.2 && (language.all (· = x.1))).map (·.2)

/-- Send the breakpoints of a file to where their anchors are, and tell of those that have moved. -/
def relocate (w : World) (path : Path) : World :=
  let (moved, b) := w.debugger.relocate w.disk path
  let w := { w with debugger := b }
  if moved.isEmpty then w else w.saveBreakpoints.noteBreakpoints .change moved

/-- Record what an adapter answered for breakpoints, and tell of those whose verification changed. -/
def verify (w : World) (ids : List Nat) (responses : List Debug.BreakpointResponse) : World :=
  let (changed, c) := w.debugger.breakpoints.applyVerification ids responses
  (w.setBreakpoints c).noteBreakpoints .change (changed.filterMap c.get?)

end World

namespace Debug.Sync

/-- What an adapter is sent for a file. -/
def fileArguments (path : Path) (l : List SourceBreakpoint) : Json :=
  SetBreakpointsArguments.toJson
    { source := { name := path.fileName?, path := some path.text }, breakpoints := l }

/-- Send the breakpoints of a file to a session. -/
def fileWith (s : SessionId) (path : Path) : Task Wait World Unit := do
  Task.modify fun w => w.relocate path
  let w ← Task.state
  let session := w.debugger.session s
  let l := w.debugger.sourceBreakpoints path
  let sent := World.call (session.requestAs SetBreakpointsBody.shape "setBreakpoints"
    (fileArguments path (l.map (·.2))))
  match ← sent.outcome with
  | .ok body => Task.modify fun w => w.verify (l.map (·.1)) body.breakpoints
  | .error _ => return ()

/-- Do something with a session if it is ready by then. -/
def ifReady (work : SessionId → Task Wait World Unit) (s : SessionId) : Task Wait World Unit := do
  if ← Task.view fun w => w.isSessionReady s then work s

/-- Do something with every ready session of a language, or every one if none is given. -/
def forSessions (language : World → Option String) (work : SessionId → Task Wait World Unit) :
    Task Wait World Unit := do
  Task.await .table
  let sessions ← Task.view fun w => w.sessionsFor (language w)
  Task.forEach (ifReady work) sessions

/-- Send the breakpoints of a file to the sessions of its language. -/
def file (project : String) (path : Path) : Task Wait World Unit :=
  forSessions (fun w => w.debugger.languageOf (some project) (some path)) fun s => fileWith s path

/-- Send the exception filters to a session. -/
def exceptionsWith (s : SessionId) : Task Wait World Unit := do
  let w ← Task.state
  let session := w.debugger.session s
  let (caught, uncaught) := w.debugger.exceptionFlags
  let filters := Session.exceptionFilters (w.channel session.channel).features caught uncaught
  let _ ← (World.call (session.request "setExceptionBreakpoints"
    (SetExceptionBreakpointsArguments.toJson { filters }))).outcome

/-- Send the exception filters to the sessions of a project's language. -/
def exceptions (project : Option String) : Task Wait World Unit :=
  forSessions (fun w => w.debugger.languageOf project none) exceptionsWith

/-- Send every breakpoint that concerns a session to it, file by file, and then the exception filters. -/
def everything (s : SessionId) : Task Wait World Unit := do
  let files ← Task.view fun w => w.debugger.filesFor (w.debugger.session s).language
  Task.forEach (fileWith s) files
  exceptionsWith s

end Debug.Sync

end Switchboard
