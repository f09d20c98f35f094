import Switchboard.Debug.Sync

/-!
# Commands on breakpoints and launch configurations

Every change is made in one step together with storing it and telling of it; after that adapters are sent
what they have to know.
-/

namespace Switchboard.Debug

namespace Editing

/-! ## Breakpoints -/

/-- Add a line breakpoint, unless there is one on that line. -/
def placeBreakpoint (project : String) (path : Path) (line : Nat) (column : Option Nat) (w : World) :
    Option Nat × World :=
  let anchor := (w.debugger.linesOf? w.disk project path).bind fun f => Breakpoint.anchorIn? f line column
  match w.debugger.breakpoints.addLine project path line column anchor with
  | (none, _) => (none, w)
  | (some id, c) => (some id, (w.setBreakpoints c).saveBreakpoints.noteBreakpoints .add (c.get? id).toList)

/-- Add a line breakpoint; gives nothing if there is one on that line. -/
def addBreakpoint (project : String) (path : Path) (line : Nat) (column : Option Nat) : DebugWork (Option Nat) := do
  if line = 0 then throw .lineZero
  else
    match ← Attempt.ofTask (Task.act (placeBreakpoint project path line column)) with
    | none => return none
    | some id => do
      Attempt.ofTask (Sync.file project path)
      return some id

/-- Set the flags of the exception breakpoint. -/
def placeException (caught uncaught : Bool) (w : World) : Nat × World :=
  let ((id, created), c) := w.debugger.breakpoints.setException caught uncaught
  (id, (w.setBreakpoints c).saveBreakpoints.noteBreakpoints (if created then .add else .change) (c.get? id).toList)

/-- Set the flags of the exception breakpoint, which is made if there is none. -/
def setException (caught uncaught : Bool) (project : Option String) : DebugWork Nat := do
  let id ← Attempt.ofTask (Task.act (placeException caught uncaught))
  Attempt.ofTask (Sync.exceptions project)
  return id

/-- Apply edits to a breakpoint, all of them or none. Gives the breakpoint that was changed or removed. -/
def applyEdits (id : Nat) (edits : List (String × String)) (w : World) : Except Fault Breakpoint × World :=
  let c := w.debugger.breakpoints
  match c.get? id with
  | none => (throw (.unknownBreakpoint id), w)
  | some b =>
    match b.applyAll edits with
    | .error e => (throw e, w)
    | .ok (_, true) => (pure b, (w.setBreakpoints (c.remove id).2).saveBreakpoints.noteBreakpoints .remove [b])
    | .ok (b, false) =>
      (pure b, (w.setBreakpoints (c.modify id fun _ => b)).saveBreakpoints.noteBreakpoints .change [b])

/-- Edit a breakpoint. -/
def editBreakpoint (id : Nat) (edits : List (String × String)) : DebugWork Unit := do
  let b ← Attempt.act (applyEdits id edits)
  match b.kind with
  | .line project path _ _ _ => Attempt.ofTask (Sync.file project path)
  | .exception _ _ => Attempt.ofTask (Sync.exceptions none)

/-- Remove every breakpoint. Gives those removed. -/
def dropBreakpoints (w : World) : List Breakpoint × World :=
  let (removed, c) := w.debugger.breakpoints.clear
  (removed, (w.setBreakpoints c).saveBreakpoints.noteBreakpoints .remove removed)

/-- Files of breakpoints, each project and path once, in order of their first breakpoint. -/
def filesOf : List Breakpoint → List (String × Path) → List (String × Path)
  | [], files => files
  | b :: rest, files =>
    match Breakpoint.Catalog.fileOf? b with
    | some f =>
      if files.any fun g => g.1 = f.1 && g.2.same f.2 then filesOf rest files else filesOf rest (files ++ [f])
    | none => filesOf rest files

/-- Remove every breakpoint. Gives how many there were. -/
def clearBreakpoints : DebugWork Nat := do
  let removed ← Attempt.ofTask (Task.act dropBreakpoints)
  Attempt.ofTask (Task.forEach (fun f => Sync.file f.1 f.2) (filesOf removed []))
  if removed.any (·.isException) then Attempt.ofTask (Sync.exceptions none)
  return removed.length

/-! ## Launch configurations -/

/-- A launch configuration as an editor creates it. -/
structure NewLaunch where
  name : String
  language : String
  project : String
  mode : Launch.Mode := .launch
  type : String := ""
  attributes : List (Launch.Attribute × String) := []
  /-- Saved right away. -/
  save : Bool := false
deriving DecidableEq, Repr

/-- Changes to a launch configuration; what is not there is left alone. -/
structure LaunchEdit where
  name : Option String := none
  type : Option String := none
  mode : Option Launch.Mode := none
  project : Option String := none
  /-- An empty text removes the attribute. -/
  attributes : List (Launch.Attribute × String) := []
deriving DecidableEq, Repr

/-- The configuration with the changes. -/
def LaunchEdit.apply (e : LaunchEdit) (l : Launch) : Launch :=
  let l := { l with
    name := e.name.getD l.name, type := e.type.getD l.type, mode := e.mode.getD l.mode
    project := e.project.getD l.project }
  e.attributes.foldl (fun l x => l.setAttribute x.1 x.2) l

/-- Store the saved configurations. -/
def saveLaunches (w : World) : World :=
  { w with disk := (w.debugger.store.saveLaunches w.disk w.debugger.launches.saved).2 }

/-- Change the configurations. -/
def setLaunches (w : World) (c : Launch.Catalog) : World := { w with debugger := { w.debugger with launches := c } }

/-- Tell of a configuration. -/
def noteLaunch (what : Change) (l : Launch) (w : World) : World := w.note [.launch what l]

/-- Work on configurations in one step: a fault changes what it says it changes, and nothing is told of it. -/
def onLaunches (f : Launch.Catalog → Except Fault (Launch × Launch.Catalog))
    (finish : Launch → World → World) : DebugWork Launch :=
  Attempt.act fun w =>
    match f w.debugger.launches with
    | .ok (l, c) => (pure l, finish l (setLaunches w c))
    | .error e => (throw e, w)

/-- Create a configuration in a catalog. -/
def createIn (n : NewLaunch) (c : Launch.Catalog) : Except Fault (Launch × Launch.Catalog) := do
  if Text.trim n.name = "" then throw .namelessLaunch
  let (id, c) := c.create n.name n.language n.project n.mode
  let (l, c) ← c.edit id fun l => { l with type := n.type, attributes := n.attributes }
  if n.save then
    let c ← c.save id
    return ((c.get? id).getD l, c)
  else return (l, c)

/-- Create a configuration. -/
def createLaunch (n : NewLaunch) : DebugWork Launch :=
  onLaunches (createIn n) fun l w => noteLaunch .add l (if n.save then saveLaunches w else w)

/-- Copy a configuration; the copy is saved. -/
def cloneLaunch (id : Nat) : DebugWork Launch :=
  onLaunches (fun c => do
    let (copy, c) ← c.clone id
    return ((c.get? copy).getD default, c)) fun l w => noteLaunch .add l (saveLaunches w)

/-- Edit the working copy of a configuration. Only one that is not saved changes with it. -/
def editLaunch (id : Nat) (e : LaunchEdit) : DebugWork Launch :=
  onLaunches (fun c => c.edit id e.apply) fun l w =>
    if ((w.debugger.launches.get? id).map (·.saved)).getD false then w else noteLaunch .change l w

/-- Fold the working copy into its configuration. -/
def commitLaunch (id : Nat) : DebugWork Launch :=
  Attempt.act fun w =>
    match w.debugger.launches.commit id with
    | .error e => (throw e, w)
    | .ok (committed, c) =>
      let l := (c.get? id).getD default
      let w := setLaunches w c
      (pure l, if committed then noteLaunch .change l (saveLaunches w) else w)

/-- Fold the working copy into its configuration and store it. -/
def saveLaunch (id : Nat) : DebugWork Launch :=
  onLaunches (fun c => do
    let c ← c.save id
    return ((c.get? id).getD default, c)) fun l w => noteLaunch .change l (saveLaunches w)

/-- Delete a configuration. -/
def deleteLaunch (id : Nat) : DebugWork Unit :=
  Attempt.act fun w =>
    match w.debugger.launches.delete id with
    | (.error e, c) => (throw e, setLaunches w c)
    | (.ok l, c) => (pure (), noteLaunch .remove l (saveLaunches (setLaunches w c)))

end Editing

end Switchboard.Debug
