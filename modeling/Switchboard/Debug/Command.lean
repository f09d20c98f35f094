import Switchboard.Debug.Editing
import Switchboard.Debug.Running

/-!
# Debug commands

* `Command`: what an editor can ask the debugger to do;
* `Command.ofJson`: a command from its name and arguments;
* `Command.perform`: carry it out; `Command.answer`: one answer for every name and arguments, `ok` over the
  result or `error` over the fault.
-/

namespace Switchboard.Debug

open Json (Shape Fields)
open Json.Fields (field fieldD fieldD?)

/-- What an editor can ask the debugger to do. -/
inductive Command where
  | addBreakpoint (project : String) (path : Path) (line : Nat) (column : Option Nat)
  | setException (caught uncaught : Bool) (project : Option String)
  | editBreakpoint (id : Nat) (edits : List (String × String))
  | clearBreakpoints
  | listBreakpoints
  | createLaunch (launch : Editing.NewLaunch)
  | cloneLaunch (id : Nat)
  | editLaunch (id : Nat) (edit : Editing.LaunchEdit)
  | commitLaunch (id : Nat)
  | saveLaunch (id : Nat)
  | deleteLaunch (id : Nat)
  | listLaunches
  | run (launch : Nat)
  | act (target : Nat) (action : Action) (thread : Option Int) (frame : Option Nat)
  | listTargets
  | threads (target : Nat)
  | stack (target : Nat) (thread : Int)
  | frameVariables (target : Nat) (thread : Int) (frame : Nat)
  | children (target : Nat) (reference : Int)
  | evaluate (project : Option String) (expression : String) (thread : Option Int) (frame : Option Nat)
deriving DecidableEq, Repr

namespace Command

/-! ## Reading -/

/-- A command from its arguments. -/
abbrev Reader := Json → Except Json.Fault (Except Fault Command)

/-- A command from a record of arguments. -/
def reader {α : Type} (record : String) (fields : Fields α) (make : α → Command) : Reader := fun v =>
  (fun a => pure (make a)) <$> fields.shape record v

/-- A command without arguments, whatever it is given. -/
def plain (c : Command) : Reader := fun _ => pure (pure c)

/-- A breakpoint to add. -/
def addFields : Fields Command :=
  (fun project path line column => addBreakpoint project ⟨path⟩ line column) <$> field "project" Shape.string
    <*> field "path" Shape.path <*> field "line" Shape.u32 <*> fieldD? "column" Shape.u32

/-- Which exceptions to stop at. -/
def exceptionFields : Fields Command :=
  setException <$> fieldD "caught" Shape.bool false <*> fieldD "uncaught" Shape.bool false
    <*> fieldD? "project" Shape.string

/-- One edit of a breakpoint. -/
def editFields : Fields (String × String) :=
  Prod.mk <$> field "property" Shape.string <*> fieldD "value" Shape.string ""

/-- Edits of a breakpoint. -/
def editsFields : Fields Command :=
  editBreakpoint <$> field "id" Shape.u64 <*> field "edits" (Shape.list (editFields.shape "PropertyEdit"))

/-- The launch configuration that is meant. -/
def launchFields : Fields Nat := field "id" Shape.u64

/-- A launch configuration to create. -/
def newLaunchFields : Fields Editing.NewLaunch :=
  Editing.NewLaunch.mk <$> field "name" Shape.string <*> field "language" Shape.string
    <*> field "project" Shape.string <*> fieldD "mode" Launch.Mode.shape .launch
    <*> fieldD "type" Shape.string "" <*> fieldD "attributes" Launch.attributesShape []
    <*> fieldD "save" Shape.bool false

/-- A mode among the changes to a configuration, where its name may also stand over an empty object. -/
def looseMode : Shape Launch.Mode
  | .obj [(name, .obj [])] => Shape.variantName Launch.Mode.byName name
  | v => Launch.Mode.shape v

/-- Changes to a launch configuration. -/
def launchEditFields : Fields Editing.LaunchEdit :=
  Editing.LaunchEdit.mk <$> fieldD? "name" Shape.string <*> fieldD? "type" Shape.string
    <*> fieldD? "mode" looseMode <*> fieldD? "project" Shape.string
    <*> fieldD "attributes" Launch.attributesShape []

/-- A configuration and, beside its id, changes to it. The id is looked at first. -/
def editLaunchReader : Reader
  | .obj members => do
    let id ← launchFields.ofMembers members
    let edit ← launchEditFields.ofMembers members
    return pure (editLaunch id edit)
  | v => throw (.wrongType v "struct EditLaunchArgs")

/-- An action, its name as it was given. -/
def actionFields : Fields (Except Fault Command) :=
  (fun target action thread frame => do return act target (← Action.ofName action) thread frame)
    <$> field "target" Shape.u64 <*> field "action" Shape.string <*> fieldD? "thread" Shape.i64
    <*> fieldD? "frame" Shape.usize

/-- A thread of a target. -/
def stackFields : Fields Command := stack <$> field "target" Shape.u64 <*> field "thread" Shape.i64

/-- A frame of a thread. -/
def variablesFields : Fields Command :=
  frameVariables <$> field "target" Shape.u64 <*> field "thread" Shape.i64 <*> fieldD "frame" Shape.usize 0

/-- Something that has children. -/
def childrenFields : Fields Command := children <$> field "target" Shape.u64 <*> field "reference" Shape.i64

/-- An expression and where to evaluate it. -/
def evaluateFields : Fields Command :=
  evaluate <$> fieldD? "project" Shape.string <*> field "expression" Shape.string
    <*> fieldD? "thread" Shape.i64 <*> fieldD? "frame" Shape.usize

/-- Every command by name. -/
def readers : List (String × Reader) :=
  [("debug.breakpoint.add", reader "AddBreakpointArgs" addFields id),
    ("debug.breakpoint.exception", reader "ExceptionArgs" exceptionFields id),
    ("debug.breakpoint.edit", reader "EditBreakpointArgs" editsFields id),
    ("debug.breakpoint.clearAll", plain clearBreakpoints),
    ("debug.breakpoint.list", plain listBreakpoints),
    ("debug.launch.create", reader "NewLaunch" newLaunchFields createLaunch),
    ("debug.launch.clone", reader "LaunchIdArgs" launchFields cloneLaunch),
    ("debug.launch.edit", editLaunchReader),
    ("debug.launch.commit", reader "LaunchIdArgs" launchFields commitLaunch),
    ("debug.launch.save", reader "LaunchIdArgs" launchFields saveLaunch),
    ("debug.launch.delete", reader "LaunchIdArgs" launchFields deleteLaunch),
    ("debug.launch.list", plain listLaunches),
    ("debug.run", reader "LaunchIdArgs" launchFields run),
    ("debug.action", actionFields.shape "ActionArgs"),
    ("debug.targets", plain listTargets),
    ("debug.threads", reader "TargetArgs" (field "target" Shape.u64) threads),
    ("debug.stack", reader "StackArgs" stackFields id),
    ("debug.variables", reader "VariablesArgs" variablesFields id),
    ("debug.children", reader "ChildrenArgs" childrenFields id),
    ("debug.evaluate", reader "EvaluateArgs" evaluateFields id)]

/-- Is there a command of this name? -/
def isName (name : String) : Bool := readers.any (·.1 = name)

/-- Arguments that are `null` stand for none. -/
def arguments (v : Json) : Json := if v.isNull then .obj [] else v

/-- The command of a name with its arguments. -/
def ofJson (name : String) (args : Json) : Except Fault Command :=
  match readers.lookup name with
  | none => throw (.unknownCommand name)
  | some read =>
    match read (arguments args) with
    | .ok c => c
    | .error e => throw (.badArguments name e)

/-! ## Carrying out -/

/-- The value of a list of results. -/
def listed {α : Type} (f : α → Json) (l : List α) : Json := .arr (l.map f)

/-- What the debugger knows. -/
def known {α : Type} (f : Debugger → α) : DebugWork α := Attempt.ofTask (Task.view fun w => f w.debugger)

/-- Carry out a command. -/
def perform : Command → DebugWork Json
  | addBreakpoint project path line column => do
    let id ← Editing.addBreakpoint project path line column
    return .obj [("id", (id.map Json.nat).getD .null)]
  | setException caught uncaught project => do
    return .obj [("id", .nat (← Editing.setException caught uncaught project))]
  | editBreakpoint id edits => do
    Editing.editBreakpoint id edits
    return .null
  | clearBreakpoints => do return .obj [("removed", .nat (← Editing.clearBreakpoints))]
  | listBreakpoints => do return listed Breakpoint.toJson (← known (·.breakpoints.entries))
  | createLaunch launch => Launch.toJson <$> Editing.createLaunch launch
  | cloneLaunch id => Launch.toJson <$> Editing.cloneLaunch id
  | editLaunch id edit => Launch.toJson <$> Editing.editLaunch id edit
  | commitLaunch id => Launch.toJson <$> Editing.commitLaunch id
  | saveLaunch id => Launch.toJson <$> Editing.saveLaunch id
  | deleteLaunch id => do
    Editing.deleteLaunch id
    return .null
  | listLaunches => do return listed Launch.toJson (← known (·.launches.entries))
  | run launch => do return .obj [("target", .nat (← Running.run launch))]
  | act target action thread frame => do
    return .obj [("performed", .bool (← Running.withTarget target (Target.perform target action thread frame)))]
  | listTargets => do return listed Target.toJson (← known (·.targets))
  | threads target => listed DebugThread.toJson <$> Running.threads target
  | stack target thread => listed Stack.Frame.toJson <$> Running.withTarget target (Target.stack target thread)
  | frameVariables target thread frame =>
    listed Stack.Variable.toJson <$> Running.withTarget target (Target.frameVariables target thread frame)
  | children target reference =>
    listed Stack.Variable.toJson <$> Running.withTarget target (Target.children target reference)
  | evaluate project expression thread frame =>
    EvaluateBody.toJson <$> Running.evaluateExpression project expression thread frame

/-- The answer to a command. -/
def answer (name : String) (args : Json) : Task Wait World Json := do
  let work : DebugWork Json := do perform (← Attempt.ofExcept (ofJson name args))
  match ← work.outcome with
  | .ok v => return .obj [("ok", v)]
  | .error e => return e.toJson

end Command

end Switchboard.Debug
