import Switchboard.Json.Shape

/-!
# Bodies and arguments of the debug protocol

One record per kind of `arguments` that is sent and per `body` that is looked at, each with its shape
(`shape`) and its JSON form (`toJson`). Optional members that are absent are left out when written.
-/

namespace Switchboard.Debug

open Json (Shape Fields)
open Json.Fields (field fieldD field?)

/-- What the client says of itself when it initializes an adapter. -/
structure InitializeArguments where
  clientId : Option String := none
  clientName : Option String := none
  adapterId : String
  linesStartAt1 : Bool
  columnsStartAt1 : Bool
  pathFormat : Option String := none
  supportsVariableType : Option Bool := none
  supportsRunInTerminalRequest : Option Bool := none
deriving DecidableEq, Repr, Inhabited

namespace InitializeArguments

/-- The fields of the record. -/
def fields : Fields InitializeArguments :=
  InitializeArguments.mk <$> field? "clientID" Shape.string
    <*> field? "clientName" Shape.string
    <*> field "adapterID" Shape.string
    <*> field "linesStartAt1" Shape.bool
    <*> field "columnsStartAt1" Shape.bool
    <*> field? "pathFormat" Shape.string
    <*> field? "supportsVariableType" Shape.bool
    <*> field? "supportsRunInTerminalRequest" Shape.bool

/-- The shape of the record. -/
def shape : Shape InitializeArguments := fields.shape "InitializeRequestArguments"

/-- The record as JSON. -/
def toJson (x : InitializeArguments) : Json :=
  .record [("clientID", x.clientId.map .str),
    ("clientName", x.clientName.map .str),
    ("adapterID", some (.str x.adapterId)),
    ("linesStartAt1", some (.bool x.linesStartAt1)),
    ("columnsStartAt1", some (.bool x.columnsStartAt1)),
    ("pathFormat", x.pathFormat.map .str),
    ("supportsVariableType", x.supportsVariableType.map .bool),
    ("supportsRunInTerminalRequest", x.supportsRunInTerminalRequest.map .bool)]

/-- What this client says of itself. -/
def ofAdapter (adapterId : String) : InitializeArguments where
  clientId := some "relay"
  clientName := some "relay"
  adapterId := adapterId
  linesStartAt1 := true
  columnsStartAt1 := true
  pathFormat := some "path"
  supportsVariableType := some true
  supportsRunInTerminalRequest := some false

end InitializeArguments

/-- An exception filter that an adapter offers. -/
structure ExceptionFilter where
  filter : String
  label : String
  enabledAtStart : Bool := false
deriving DecidableEq, Repr, Inhabited

namespace ExceptionFilter

/-- The fields of the record. -/
def fields : Fields ExceptionFilter :=
  ExceptionFilter.mk <$> field "filter" Shape.string
    <*> field "label" Shape.string
    <*> fieldD "default" Shape.bool false

/-- The shape of the record. -/
def shape : Shape ExceptionFilter := fields.shape "ExceptionBreakpointsFilter"

/-- The record as JSON. -/
def toJson (x : ExceptionFilter) : Json :=
  .record [("filter", some (.str x.filter)),
    ("label", some (.str x.label)),
    ("default", some (.bool x.enabledAtStart))]

end ExceptionFilter

/-- The features of an adapter that the client acts on. -/
structure AdapterFeatures where
  configurationDone : Bool := false
  conditionalBreakpoints : Bool := false
  hitConditionalBreakpoints : Bool := false
  logPoints : Bool := false
  terminateRequest : Bool := false
  restartFrame : Bool := false
  exceptionFilters : List ExceptionFilter := []
deriving DecidableEq, Repr, Inhabited

namespace AdapterFeatures

/-- The fields of the record. -/
def fields : Fields AdapterFeatures :=
  AdapterFeatures.mk <$> fieldD "supportsConfigurationDoneRequest" Shape.bool false
    <*> fieldD "supportsConditionalBreakpoints" Shape.bool false
    <*> fieldD "supportsHitConditionalBreakpoints" Shape.bool false
    <*> fieldD "supportsLogPoints" Shape.bool false
    <*> fieldD "supportsTerminateRequest" Shape.bool false
    <*> fieldD "supportsRestartFrame" Shape.bool false
    <*> fieldD "exceptionBreakpointFilters" (Shape.list ExceptionFilter.shape) []

/-- The shape of the record. -/
def shape : Shape AdapterFeatures := fields.shape "Capabilities"

/-- The record as JSON. -/
def toJson (x : AdapterFeatures) : Json :=
  .record [("supportsConfigurationDoneRequest", some (.bool x.configurationDone)),
    ("supportsConditionalBreakpoints", some (.bool x.conditionalBreakpoints)),
    ("supportsHitConditionalBreakpoints", some (.bool x.hitConditionalBreakpoints)),
    ("supportsLogPoints", some (.bool x.logPoints)),
    ("supportsTerminateRequest", some (.bool x.terminateRequest)),
    ("supportsRestartFrame", some (.bool x.restartFrame)),
    ("exceptionBreakpointFilters", some (.arr (x.exceptionFilters.map ExceptionFilter.toJson)))]

end AdapterFeatures

/-- A source file, by path or by a number of the adapter. -/
structure Source where
  name : Option String := none
  path : Option String := none
  sourceReference : Option Int := none
deriving DecidableEq, Repr, Inhabited

namespace Source

/-- The fields of the record. -/
def fields : Fields Source :=
  Source.mk <$> field? "name" Shape.string
    <*> field? "path" Shape.string
    <*> field? "sourceReference" Shape.i64

/-- The shape of the record. -/
def shape : Shape Source := fields.shape "Source"

/-- The record as JSON. -/
def toJson (x : Source) : Json :=
  .record [("name", x.name.map .str),
    ("path", x.path.map .str),
    ("sourceReference", x.sourceReference.map .int)]

end Source

/-- A breakpoint of one file as it is sent. -/
structure SourceBreakpoint where
  line : Nat
  column : Option Nat := none
  condition : Option String := none
  hitCondition : Option String := none
  logMessage : Option String := none
deriving DecidableEq, Repr, Inhabited

namespace SourceBreakpoint

/-- The fields of the record. -/
def fields : Fields SourceBreakpoint :=
  SourceBreakpoint.mk <$> field "line" Shape.u32
    <*> field? "column" Shape.u32
    <*> field? "condition" Shape.string
    <*> field? "hitCondition" Shape.string
    <*> field? "logMessage" Shape.string

/-- The shape of the record. -/
def shape : Shape SourceBreakpoint := fields.shape "SourceBreakpoint"

/-- The record as JSON. -/
def toJson (x : SourceBreakpoint) : Json :=
  .record [("line", some (.nat x.line)),
    ("column", x.column.map .nat),
    ("condition", x.condition.map .str),
    ("hitCondition", x.hitCondition.map .str),
    ("logMessage", x.logMessage.map .str)]

end SourceBreakpoint

/-- All breakpoints of one file; they replace those sent before. -/
structure SetBreakpointsArguments where
  source : Source
  breakpoints : List SourceBreakpoint
deriving DecidableEq, Repr, Inhabited

namespace SetBreakpointsArguments

/-- The fields of the record. -/
def fields : Fields SetBreakpointsArguments :=
  SetBreakpointsArguments.mk <$> field "source" Source.shape
    <*> field "breakpoints" (Shape.list SourceBreakpoint.shape)

/-- The shape of the record. -/
def shape : Shape SetBreakpointsArguments := fields.shape "SetBreakpointsArguments"

/-- The record as JSON. -/
def toJson (x : SetBreakpointsArguments) : Json :=
  .record [("source", some (x.source.toJson)),
    ("breakpoints", some (.arr (x.breakpoints.map SourceBreakpoint.toJson)))]

end SetBreakpointsArguments

/-- Whether and where the adapter placed a breakpoint. -/
structure BreakpointResponse where
  id : Option Int := none
  verified : Bool
  message : Option String := none
  line : Option Nat := none
  column : Option Nat := none
deriving DecidableEq, Repr, Inhabited

namespace BreakpointResponse

/-- The fields of the record. -/
def fields : Fields BreakpointResponse :=
  BreakpointResponse.mk <$> field? "id" Shape.i64
    <*> field "verified" Shape.bool
    <*> field? "message" Shape.string
    <*> field? "line" Shape.u32
    <*> field? "column" Shape.u32

/-- The shape of the record. -/
def shape : Shape BreakpointResponse := fields.shape "BreakpointResponse"

/-- The record as JSON. -/
def toJson (x : BreakpointResponse) : Json :=
  .record [("id", x.id.map .int),
    ("verified", some (.bool x.verified)),
    ("message", x.message.map .str),
    ("line", x.line.map .nat),
    ("column", x.column.map .nat)]

end BreakpointResponse

/-- One answer per breakpoint sent, in order. -/
structure SetBreakpointsBody where
  breakpoints : List BreakpointResponse
deriving DecidableEq, Repr, Inhabited

namespace SetBreakpointsBody

/-- The fields of the record. -/
def fields : Fields SetBreakpointsBody :=
  SetBreakpointsBody.mk <$> field "breakpoints" (Shape.list BreakpointResponse.shape)

/-- The shape of the record. -/
def shape : Shape SetBreakpointsBody := fields.shape "SetBreakpointsResponseBody"

/-- The record as JSON. -/
def toJson (x : SetBreakpointsBody) : Json :=
  .record [("breakpoints", some (.arr (x.breakpoints.map BreakpointResponse.toJson)))]

end SetBreakpointsBody

/-- The exception filters to enable. -/
structure SetExceptionBreakpointsArguments where
  filters : List String
deriving DecidableEq, Repr, Inhabited

namespace SetExceptionBreakpointsArguments

/-- The fields of the record. -/
def fields : Fields SetExceptionBreakpointsArguments :=
  SetExceptionBreakpointsArguments.mk <$> field "filters" (Shape.list Shape.string)

/-- The shape of the record. -/
def shape : Shape SetExceptionBreakpointsArguments := fields.shape "SetExceptionBreakpointsArguments"

/-- The record as JSON. -/
def toJson (x : SetExceptionBreakpointsArguments) : Json :=
  .record [("filters", some (.arr (x.filters.map Json.str)))]

end SetExceptionBreakpointsArguments

/-- The thread that a step, continue or pause is for. -/
structure ThreadArguments where
  threadId : Int
deriving DecidableEq, Repr, Inhabited

namespace ThreadArguments

/-- The fields of the record. -/
def fields : Fields ThreadArguments :=
  ThreadArguments.mk <$> field "threadId" Shape.i64

/-- The shape of the record. -/
def shape : Shape ThreadArguments := fields.shape "ThreadArguments"

/-- The record as JSON. -/
def toJson (x : ThreadArguments) : Json :=
  .record [("threadId", some (.int x.threadId))]

end ThreadArguments

/-- The frame to drop to. -/
structure RestartFrameArguments where
  frameId : Int
deriving DecidableEq, Repr, Inhabited

namespace RestartFrameArguments

/-- The fields of the record. -/
def fields : Fields RestartFrameArguments :=
  RestartFrameArguments.mk <$> field "frameId" Shape.i64

/-- The shape of the record. -/
def shape : Shape RestartFrameArguments := fields.shape "RestartFrameArguments"

/-- The record as JSON. -/
def toJson (x : RestartFrameArguments) : Json :=
  .record [("frameId", some (.int x.frameId))]

end RestartFrameArguments

/-- Whether every thread went on. -/
structure ContinueBody where
  allThreadsContinued : Option Bool := none
deriving DecidableEq, Repr, Inhabited

namespace ContinueBody

/-- The fields of the record. -/
def fields : Fields ContinueBody :=
  ContinueBody.mk <$> field? "allThreadsContinued" Shape.bool

/-- The shape of the record. -/
def shape : Shape ContinueBody := fields.shape "ContinueResponseBody"

/-- The record as JSON. -/
def toJson (x : ContinueBody) : Json :=
  .record [("allThreadsContinued", x.allThreadsContinued.map .bool)]

end ContinueBody

/-- How the debuggee is left. -/
structure DisconnectArguments where
  restart : Option Bool := none
  terminateDebuggee : Option Bool := none
deriving DecidableEq, Repr, Inhabited

namespace DisconnectArguments

/-- The fields of the record. -/
def fields : Fields DisconnectArguments :=
  DisconnectArguments.mk <$> field? "restart" Shape.bool
    <*> field? "terminateDebuggee" Shape.bool

/-- The shape of the record. -/
def shape : Shape DisconnectArguments := fields.shape "DisconnectArguments"

/-- The record as JSON. -/
def toJson (x : DisconnectArguments) : Json :=
  .record [("restart", x.restart.map .bool),
    ("terminateDebuggee", x.terminateDebuggee.map .bool)]

end DisconnectArguments

/-- A thread as the adapter lists it. -/
structure ThreadInfo where
  id : Int
  name : String
deriving DecidableEq, Repr, Inhabited

namespace ThreadInfo

/-- The fields of the record. -/
def fields : Fields ThreadInfo :=
  ThreadInfo.mk <$> field "id" Shape.i64
    <*> field "name" Shape.string

/-- The shape of the record. -/
def shape : Shape ThreadInfo := fields.shape "Thread"

/-- The record as JSON. -/
def toJson (x : ThreadInfo) : Json :=
  .record [("id", some (.int x.id)),
    ("name", some (.str x.name))]

end ThreadInfo

/-- All threads. -/
structure ThreadsBody where
  threads : List ThreadInfo
deriving DecidableEq, Repr, Inhabited

namespace ThreadsBody

/-- The fields of the record. -/
def fields : Fields ThreadsBody :=
  ThreadsBody.mk <$> field "threads" (Shape.list ThreadInfo.shape)

/-- The shape of the record. -/
def shape : Shape ThreadsBody := fields.shape "ThreadsResponseBody"

/-- The record as JSON. -/
def toJson (x : ThreadsBody) : Json :=
  .record [("threads", some (.arr (x.threads.map ThreadInfo.toJson)))]

end ThreadsBody

/-- Which frames of a thread are wanted. -/
structure StackTraceArguments where
  threadId : Int
  startFrame : Option Nat := none
  levels : Option Nat := none
deriving DecidableEq, Repr, Inhabited

namespace StackTraceArguments

/-- The fields of the record. -/
def fields : Fields StackTraceArguments :=
  StackTraceArguments.mk <$> field "threadId" Shape.i64
    <*> field? "startFrame" Shape.u32
    <*> field? "levels" Shape.u32

/-- The shape of the record. -/
def shape : Shape StackTraceArguments := fields.shape "StackTraceArguments"

/-- The record as JSON. -/
def toJson (x : StackTraceArguments) : Json :=
  .record [("threadId", some (.int x.threadId)),
    ("startFrame", x.startFrame.map .nat),
    ("levels", x.levels.map .nat)]

end StackTraceArguments

/-- A frame as the adapter sends it; line and column count from one, zero when unknown. -/
structure StackFrame where
  id : Int
  name : String
  source : Option Source := none
  line : Nat := 0
  column : Nat := 0
  presentationHint : Option String := none
deriving DecidableEq, Repr, Inhabited

namespace StackFrame

/-- The fields of the record. -/
def fields : Fields StackFrame :=
  StackFrame.mk <$> field "id" Shape.i64
    <*> field "name" Shape.string
    <*> field? "source" Source.shape
    <*> fieldD "line" Shape.u32 0
    <*> fieldD "column" Shape.u32 0
    <*> field? "presentationHint" Shape.string

/-- The shape of the record. -/
def shape : Shape StackFrame := fields.shape "StackFrame"

/-- The record as JSON. -/
def toJson (x : StackFrame) : Json :=
  .record [("id", some (.int x.id)),
    ("name", some (.str x.name)),
    ("source", x.source.map (·.toJson)),
    ("line", some (.nat x.line)),
    ("column", some (.nat x.column)),
    ("presentationHint", x.presentationHint.map .str)]

end StackFrame

/-- Frames, innermost first. -/
structure StackTraceBody where
  stackFrames : List StackFrame
  totalFrames : Option Nat := none
deriving DecidableEq, Repr, Inhabited

namespace StackTraceBody

/-- The fields of the record. -/
def fields : Fields StackTraceBody :=
  StackTraceBody.mk <$> field "stackFrames" (Shape.list StackFrame.shape)
    <*> field? "totalFrames" Shape.u32

/-- The shape of the record. -/
def shape : Shape StackTraceBody := fields.shape "StackTraceResponseBody"

/-- The record as JSON. -/
def toJson (x : StackTraceBody) : Json :=
  .record [("stackFrames", some (.arr (x.stackFrames.map StackFrame.toJson))),
    ("totalFrames", x.totalFrames.map .nat)]

end StackTraceBody

/-- The frame whose scopes are wanted. -/
structure ScopesArguments where
  frameId : Int
deriving DecidableEq, Repr, Inhabited

namespace ScopesArguments

/-- The fields of the record. -/
def fields : Fields ScopesArguments :=
  ScopesArguments.mk <$> field "frameId" Shape.i64

/-- The shape of the record. -/
def shape : Shape ScopesArguments := fields.shape "ScopesArguments"

/-- The record as JSON. -/
def toJson (x : ScopesArguments) : Json :=
  .record [("frameId", some (.int x.frameId))]

end ScopesArguments

/-- A named group of variables of a frame. -/
structure Scope where
  name : String
  variablesReference : Int
  expensive : Bool := false
deriving DecidableEq, Repr, Inhabited

namespace Scope

/-- The fields of the record. -/
def fields : Fields Scope :=
  Scope.mk <$> field "name" Shape.string
    <*> field "variablesReference" Shape.i64
    <*> fieldD "expensive" Shape.bool false

/-- The shape of the record. -/
def shape : Shape Scope := fields.shape "Scope"

/-- The record as JSON. -/
def toJson (x : Scope) : Json :=
  .record [("name", some (.str x.name)),
    ("variablesReference", some (.int x.variablesReference)),
    ("expensive", some (.bool x.expensive))]

end Scope

/-- The scopes of a frame. -/
structure ScopesBody where
  scopes : List Scope
deriving DecidableEq, Repr, Inhabited

namespace ScopesBody

/-- The fields of the record. -/
def fields : Fields ScopesBody :=
  ScopesBody.mk <$> field "scopes" (Shape.list Scope.shape)

/-- The shape of the record. -/
def shape : Shape ScopesBody := fields.shape "ScopesResponseBody"

/-- The record as JSON. -/
def toJson (x : ScopesBody) : Json :=
  .record [("scopes", some (.arr (x.scopes.map Scope.toJson)))]

end ScopesBody

/-- The group whose variables are wanted. -/
structure VariablesArguments where
  variablesReference : Int
deriving DecidableEq, Repr, Inhabited

namespace VariablesArguments

/-- The fields of the record. -/
def fields : Fields VariablesArguments :=
  VariablesArguments.mk <$> field "variablesReference" Shape.i64

/-- The shape of the record. -/
def shape : Shape VariablesArguments := fields.shape "VariablesArguments"

/-- The record as JSON. -/
def toJson (x : VariablesArguments) : Json :=
  .record [("variablesReference", some (.int x.variablesReference))]

end VariablesArguments

/-- A variable as the adapter sends it; its reference is zero for leaves. -/
structure Variable where
  name : String
  value : String := ""
  type : Option String := none
  evaluateName : Option String := none
  variablesReference : Int := 0
  namedVariables : Option Nat := none
  indexedVariables : Option Nat := none
deriving DecidableEq, Repr, Inhabited

namespace Variable

/-- The fields of the record. -/
def fields : Fields Variable :=
  Variable.mk <$> field "name" Shape.string
    <*> fieldD "value" Shape.string ""
    <*> field? "type" Shape.string
    <*> field? "evaluateName" Shape.string
    <*> fieldD "variablesReference" Shape.i64 0
    <*> field? "namedVariables" Shape.u32
    <*> field? "indexedVariables" Shape.u32

/-- The shape of the record. -/
def shape : Shape Variable := fields.shape "Variable"

/-- The record as JSON. -/
def toJson (x : Variable) : Json :=
  .record [("name", some (.str x.name)),
    ("value", some (.str x.value)),
    ("type", x.type.map .str),
    ("evaluateName", x.evaluateName.map .str),
    ("variablesReference", some (.int x.variablesReference)),
    ("namedVariables", x.namedVariables.map .nat),
    ("indexedVariables", x.indexedVariables.map .nat)]

end Variable

/-- The variables of a group. -/
structure VariablesBody where
  contents : List Variable
deriving DecidableEq, Repr, Inhabited

namespace VariablesBody

/-- The fields of the record. -/
def fields : Fields VariablesBody :=
  VariablesBody.mk <$> field "variables" (Shape.list Variable.shape)

/-- The shape of the record. -/
def shape : Shape VariablesBody := fields.shape "VariablesResponseBody"

/-- The record as JSON. -/
def toJson (x : VariablesBody) : Json :=
  .record [("variables", some (.arr (x.contents.map Variable.toJson)))]

end VariablesBody

/-- An expression and where to evaluate it. -/
structure EvaluateArguments where
  expression : String
  frameId : Option Int := none
  context : Option String := none
deriving DecidableEq, Repr, Inhabited

namespace EvaluateArguments

/-- The fields of the record. -/
def fields : Fields EvaluateArguments :=
  EvaluateArguments.mk <$> field "expression" Shape.string
    <*> field? "frameId" Shape.i64
    <*> field? "context" Shape.string

/-- The shape of the record. -/
def shape : Shape EvaluateArguments := fields.shape "EvaluateArguments"

/-- The record as JSON. -/
def toJson (x : EvaluateArguments) : Json :=
  .record [("expression", some (.str x.expression)),
    ("frameId", x.frameId.map .int),
    ("context", x.context.map .str)]

end EvaluateArguments

/-- The value of an expression. -/
structure EvaluateBody where
  result : String
  type : Option String := none
  variablesReference : Int := 0
deriving DecidableEq, Repr, Inhabited

namespace EvaluateBody

/-- The fields of the record. -/
def fields : Fields EvaluateBody :=
  EvaluateBody.mk <$> field "result" Shape.string
    <*> field? "type" Shape.string
    <*> fieldD "variablesReference" Shape.i64 0

/-- The shape of the record. -/
def shape : Shape EvaluateBody := fields.shape "EvaluateResponseBody"

/-- The record as JSON. -/
def toJson (x : EvaluateBody) : Json :=
  .record [("result", some (.str x.result)),
    ("type", x.type.map .str),
    ("variablesReference", some (.int x.variablesReference))]

end EvaluateBody

/-- Threads stopped. -/
structure StoppedBody where
  reason : String
  description : Option String := none
  threadId : Option Int := none
  allThreadsStopped : Bool := false
  text : Option String := none
deriving DecidableEq, Repr, Inhabited

namespace StoppedBody

/-- The fields of the record. -/
def fields : Fields StoppedBody :=
  StoppedBody.mk <$> field "reason" Shape.string
    <*> field? "description" Shape.string
    <*> field? "threadId" Shape.i64
    <*> fieldD "allThreadsStopped" Shape.bool false
    <*> field? "text" Shape.string

/-- The shape of the record. -/
def shape : Shape StoppedBody := fields.shape "StoppedEventBody"

/-- The record as JSON. -/
def toJson (x : StoppedBody) : Json :=
  .record [("reason", some (.str x.reason)),
    ("description", x.description.map .str),
    ("threadId", x.threadId.map .int),
    ("allThreadsStopped", some (.bool x.allThreadsStopped)),
    ("text", x.text.map .str)]

end StoppedBody

/-- Threads went on. -/
structure ContinuedBody where
  threadId : Int
  allThreadsContinued : Bool := false
deriving DecidableEq, Repr, Inhabited

namespace ContinuedBody

/-- The fields of the record. -/
def fields : Fields ContinuedBody :=
  ContinuedBody.mk <$> field "threadId" Shape.i64
    <*> fieldD "allThreadsContinued" Shape.bool false

/-- The shape of the record. -/
def shape : Shape ContinuedBody := fields.shape "ContinuedEventBody"

/-- The record as JSON. -/
def toJson (x : ContinuedBody) : Json :=
  .record [("threadId", some (.int x.threadId)),
    ("allThreadsContinued", some (.bool x.allThreadsContinued))]

end ContinuedBody

/-- A thread started, exited or changed. -/
structure ThreadBody where
  reason : String
  threadId : Int
deriving DecidableEq, Repr, Inhabited

namespace ThreadBody

/-- The fields of the record. -/
def fields : Fields ThreadBody :=
  ThreadBody.mk <$> field "reason" Shape.string
    <*> field "threadId" Shape.i64

/-- The shape of the record. -/
def shape : Shape ThreadBody := fields.shape "ThreadEventBody"

/-- The record as JSON. -/
def toJson (x : ThreadBody) : Json :=
  .record [("reason", some (.str x.reason)),
    ("threadId", some (.int x.threadId))]

end ThreadBody

/-- What the adapter knows of the process. -/
structure ProcessBody where
  name : String
  systemProcessId : Option Int := none
  startMethod : Option String := none
deriving DecidableEq, Repr, Inhabited

namespace ProcessBody

/-- The fields of the record. -/
def fields : Fields ProcessBody :=
  ProcessBody.mk <$> field "name" Shape.string
    <*> field? "systemProcessId" Shape.i64
    <*> field? "startMethod" Shape.string

/-- The shape of the record. -/
def shape : Shape ProcessBody := fields.shape "ProcessEventBody"

/-- The record as JSON. -/
def toJson (x : ProcessBody) : Json :=
  .record [("name", some (.str x.name)),
    ("systemProcessId", x.systemProcessId.map .int),
    ("startMethod", x.startMethod.map .str)]

end ProcessBody

/-- Output of the debuggee or the adapter. -/
structure OutputBody where
  category : Option String := none
  output : String
deriving DecidableEq, Repr, Inhabited

namespace OutputBody

/-- The fields of the record. -/
def fields : Fields OutputBody :=
  OutputBody.mk <$> field? "category" Shape.string
    <*> field "output" Shape.string

/-- The shape of the record. -/
def shape : Shape OutputBody := fields.shape "OutputEventBody"

/-- The record as JSON. -/
def toJson (x : OutputBody) : Json :=
  .record [("category", x.category.map .str),
    ("output", some (.str x.output))]

end OutputBody

/-- The process exited. -/
structure ExitedBody where
  exitCode : Int
deriving DecidableEq, Repr, Inhabited

namespace ExitedBody

/-- The fields of the record. -/
def fields : Fields ExitedBody :=
  ExitedBody.mk <$> field "exitCode" Shape.i64

/-- The shape of the record. -/
def shape : Shape ExitedBody := fields.shape "ExitedEventBody"

/-- The record as JSON. -/
def toJson (x : ExitedBody) : Json :=
  .record [("exitCode", some (.int x.exitCode))]

end ExitedBody

end Switchboard.Debug
