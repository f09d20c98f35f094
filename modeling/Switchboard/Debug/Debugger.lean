import Switchboard.Debug.Breakpoint.Catalog
import Switchboard.Debug.Session
import Switchboard.Debug.Store
import Switchboard.Debug.Target

/-!
# The state of the debugger

Breakpoints and launch configurations, one debug session per language, the targets that run on the sessions,
and work that was put off.
-/

namespace Switchboard.Debug

/-- Fetching the frames of a thread ahead. -/
structure Prefetch where
  target : Nat
  thread : Int
deriving DecidableEq, Repr, Inhabited

/-- The state of the debugger. -/
structure Debugger where
  settings : Settings := {}
  sources : Sources := {}
  /-- Frames are given offsets in source files. -/
  placesFrames : Bool := true
  /-- How far the anchors in a file have moved since they were issued. -/
  drift : List (Path × Int) := []
  store : Store := ⟨⟨"state"⟩⟩
  breakpoints : Breakpoint.Catalog := {}
  launches : Launch.Catalog := {}
  /-- Every session that was attached, in order. -/
  sessions : List Session := []
  /-- The session of each language. -/
  current : List (String × SessionId) := []
  /-- Targets in order of their ids. -/
  targets : List Target := []
  nextTarget : Nat := 1
  pool : Deferred.Pool Prefetch := {}
deriving Inhabited

namespace Debugger

/-- The debugger of a state directory; a file that cannot be used counts as empty. -/
def ofDisk (settings : Settings) (sources : Sources) (directory : Path) (d : Disk) : Debugger :=
  let store : Store := ⟨directory⟩
  { settings, sources, store
    breakpoints := .ofList ((store.loadBreakpoints d).toOption.getD [])
    launches := .ofList ((store.loadLaunches d).toOption.getD [])
    pool := .ofWorkers settings.rpc.deferredWorkers }

/-! ## Sessions -/

/-- A session. -/
def session (b : Debugger) (s : SessionId) : Session := b.sessions.getD s default

/-- Add a session. -/
def addSession (b : Debugger) (s : Session) : SessionId × Debugger :=
  (b.sessions.length, { b with sessions := b.sessions ++ [s] })

/-- From now on somebody takes up the events of a session. -/
def serve (b : Debugger) (s : SessionId) : Debugger :=
  { b with sessions := b.sessions.modify s fun x => { x with served := true } }

/-- Make a session the one of its language. Gives the session that was it before. -/
def setCurrent (b : Debugger) (language : String) (s : SessionId) : Option SessionId × Debugger :=
  match b.current.lookup language with
  | some old =>
    (some old, { b with current := b.current.map fun x => if x.1 = language then (language, s) else x })
  | none => (none, { b with current := b.current ++ [(language, s)] })

/-- Forget a session, if it is the one of its language. -/
def forget (b : Debugger) (s : SessionId) : Debugger :=
  { b with current := b.current.filter (· ≠ ((b.session s).language, s)) }

/-! ## Targets -/

/-- A target by its id. -/
def target? (b : Debugger) (id : Nat) : Option Target := b.targets.find? (·.id = id)

/-- The target of an id. -/
def target (b : Debugger) (id : Nat) : Target := (b.target? id).getD default

/-- Change a target. -/
def putTarget (b : Debugger) (t : Target) : Debugger :=
  { b with targets := b.targets.map fun x => if x.id = t.id then t else x }

/-- The target on a session that has not ended. -/
def liveTarget? (b : Debugger) (s : SessionId) : Option Target :=
  b.targets.find? fun t => t.session = s && !t.isTerminated

/-- Add a target under a new id. -/
def addTarget (b : Debugger) (launch : Launch) (s : SessionId) : Target × Debugger :=
  let t : Target := { id := b.nextTarget, launch, session := s }
  (t, { b with nextTarget := b.nextTarget + 1, targets := b.targets ++ [t] })

/-! ## Files -/

/-- The language of a file, by its extension or else by its project. -/
def languageOf (b : Debugger) (project : Option String) (path : Option Path) : Option String :=
  path.bind b.sources.languageOf? <|> project.bind b.sources.projectLanguage?

/-- How far the anchors of a file have moved. -/
def driftOf (b : Debugger) (path : Path) : Int := ((b.drift.find? fun x => x.1.same path).map (·.2)).getD 0

/-- The lines of a file, if it can be read. -/
def linesOf? (b : Debugger) (d : Disk) (project : String) (path : Path) : Option Text.Lines :=
  ((b.sources.open? d project path).toOption).map (·.2)

/-- Send the breakpoints of a file to where their anchors are, as the file of the first one's project shows.
Gives those that have moved. -/
def relocate (b : Debugger) (d : Disk) (path : Path) : List Breakpoint × Debugger :=
  let all := b.breakpoints.forFile path
  match (all.head?.bind Breakpoint.project?).bind fun project => b.linesOf? d project path with
  | none => ([], b)
  | some f =>
    let (moved, c) := Breakpoint.Catalog.followAll f (b.driftOf path) all b.breakpoints
    (moved, { b with breakpoints := c })

/-- What a session is sent for a file: the enabled breakpoints, with their ids. -/
def sourceBreakpoints (b : Debugger) (path : Path) : List (Nat × SourceBreakpoint) :=
  (b.breakpoints.forFile path).filterMap fun x => x.toSource?.map (x.id, ·)

/-- The flags of the exception breakpoint, both off if there is none or it is disabled. -/
def exceptionFlags (b : Debugger) : Bool × Bool :=
  match b.breakpoints.exception? with
  | some x =>
    if x.enabled then
      match x.kind with
      | .exception caught uncaught => (caught, uncaught)
      | .line .. => (false, false)
    else (false, false)
  | none => (false, false)

/-- Files that have breakpoints and the language of a session, or no known language. -/
def filesFor (b : Debugger) (language : String) : List Path :=
  (b.breakpoints.files.filter fun f =>
    match b.languageOf (some f.1) (some f.2) with
    | some l => l = language
    | none => true).map (·.2)

end Debugger

end Switchboard.Debug
