import Switchboard.Channel.Fault
import Switchboard.Disk

/-!
# Faults of debug commands

`Debug.Fault` lists every reason why a debug command fails; `kind` sorts the reasons into the categories an
editor sees, `message` words them, and `causes` tells what lies behind.
-/

namespace Switchboard.Debug

/-- Why a debug command fails. -/
inductive Fault where
  /-- The adapter sent something of an unexpected form. -/
  | protocol (reason : String)
  /-- The adapter refused a request. -/
  | refused (command message : String)
  /-- The adapter cannot be reached. -/
  | transport (fault : Channel.Fault)
  | disk (fault : Disk.Fault)
  /-- A state file does not hold what it should. -/
  | badStateFile (path : String)
  -- Names and ids that nothing has
  | unknownCommand (name : String)
  | unknownBreakpoint (id : Nat)
  | unknownProperty (name : String)
  | unknownLaunch (id : Nat)
  | noSuchLaunch (id : Nat)
  | unknownAttribute (name : String)
  | unknownMode (name : String)
  | unknownAction (name : String)
  | unknownTarget (id : Nat)
  | noAdapter (language : String)
  -- Values that are refused
  | badArguments (command : String) (fault : Json.Fault)
  | clearInPlace
  | notABoolean (property value : String)
  | exceptionOnly (property : String)
  | lineZero
  | namelessLaunch
  -- States that do not allow the action
  | alreadyStarted (target : Nat)
  | noThreads (target : Nat)
  | unknownThread (thread : Int)
  | notSuspended (thread : Int)
  | noFrame (thread : Int) (index : Nat)
  | alreadyRunning (language : String)
  | nothingToEvaluate
deriving BEq, Repr

namespace Fault

/-- The category of a fault. -/
def kind : Fault → String
  | protocol _ => "ProtocolError"
  | refused _ _ => "RequestFailure"
  | transport _ | disk _ => "TransportError"
  | badStateFile _ => "PersistenceError"
  | unknownCommand _ | unknownBreakpoint _ | unknownProperty _ | unknownLaunch _ | noSuchLaunch _
  | unknownAttribute _ | unknownMode _ | unknownAction _ | unknownTarget _ | noAdapter _
  | badArguments _ _ | clearInPlace | notABoolean _ _ | exceptionOnly _ | lineZero | namelessLaunch =>
    "ConfigurationError"
  | alreadyStarted _ | noThreads _ | unknownThread _ | notSuspended _ | noFrame _ _ | alreadyRunning _
  | nothingToEvaluate => "SessionStateError"

/-- The wording of a fault. -/
def message : Fault → String
  | protocol reason => "protocol error: " ++ reason
  | refused command message => command ++ " failed: " ++ message
  | transport fault => "transport error: " ++ fault.message
  | disk fault => "I/O error: " ++ fault.message
  | badStateFile path => "persistence error: " ++ path
  | unknownCommand name => "unknown command: " ++ name
  | unknownBreakpoint id => "unknown breakpoint: " ++ toString id
  | unknownProperty name => "unknown breakpoint property: " ++ name
  | unknownLaunch id => "unknown launch configuration " ++ toString id
  | noSuchLaunch id => "unknown launch configuration: " ++ toString id
  | unknownAttribute name => "unknown launch attribute: " ++ name
  | unknownMode name => "unknown launch mode: " ++ name
  | unknownAction name => "unknown debug action: " ++ name
  | unknownTarget id => "unknown target: " ++ toString id
  | noAdapter language => "no debug adapter configured for " ++ language
  | badArguments command fault => "invalid arguments for " ++ command ++ ": " ++ fault.message
  | clearInPlace => "CLEAR cannot be applied to a breakpoint in place"
  | notABoolean property value => property ++ " expects a boolean, got '" ++ value ++ "'"
  | exceptionOnly property => property ++ " only applies to the exception breakpoint"
  | lineZero => "line numbers start at 1"
  | namelessLaunch => "launch configuration needs a name"
  | alreadyStarted target => "target " ++ toString target ++ " was already started"
  | noThreads target => "target " ++ toString target ++ " has no threads"
  | unknownThread thread => "unknown thread " ++ toString thread
  | notSuspended thread => "thread " ++ toString thread ++ " is not suspended"
  | noFrame thread index => "thread " ++ toString thread ++ " has no frame " ++ toString index
  | alreadyRunning language => "a " ++ language ++ " debug target is already running"
  | nothingToEvaluate => "no evaluation to do"

/-- What lies behind a fault, nearest cause first. -/
def causes : Fault → List String
  | transport fault => fault.message :: fault.causes
  | disk fault => [fault.message]
  | _ => []

/-- A channel fault of a command. -/
def ofChannel (command : String) : Channel.Fault → Fault
  | .refused r => refused command r.message
  | .protocol reason => protocol reason
  | fault => transport fault

/-- The body of an answer is not what the command promises. -/
def badBody (command : String) (fault : Json.Fault) : Fault :=
  protocol ("unexpected '" ++ command ++ "' body: " ++ fault.message)

/-- The fault as an editor sees it. -/
def toJson (f : Fault) : Json :=
  .obj [("error", .obj [("detail", .arr (f.causes.map .str)), ("kind", f.kind), ("message", f.message)])]

end Fault

end Switchboard.Debug
