import Switchboard.Channel.Frame
import Switchboard.Json.Shape

/-!
# Faults of a channel

* `Refusal`: what a peer says when it does not carry out a request;
* `Channel.Fault`: why a call over a channel gave no result, with one wording per cause.
-/

namespace Switchboard

/-- The error a peer answers with. -/
structure Refusal where
  /-- Numeric code, if the peer gives one. -/
  code : Option Int := none
  message : String
  /-- Anything else that the peer attached. -/
  data : Option Json := none
deriving BEq, Repr, Inhabited

namespace Refusal

/-- The message, followed by the code if there is one. -/
def text (r : Refusal) : String :=
  match r.code with
  | some c => r.message ++ " (code " ++ toString c ++ ")"
  | none => r.message

/-- The refusal as a record; what is not there is left out. -/
def toJson (r : Refusal) : Json :=
  .record [("code", r.code.map .int), ("message", some (.str r.message)), ("data", r.data)]

/-- The shape of a refusal. -/
def fields : Json.Fields Refusal :=
  Refusal.mk <$> .field? "code" Json.Shape.i64 <*> .field "message" Json.Shape.string
    <*> .field? "data" Json.Shape.any

/-- Read a refusal. -/
def shape : Json.Shape Refusal := fields.shape "ErrorPayload"

end Refusal

/-- Why a call over a channel gave no result. -/
inductive Channel.Fault where
  /-- The command of the peer could not be started. -/
  | cannotStart (command : String) (reason : String)
  /-- Reading or writing failed. -/
  | transport (reason : String)
  /-- A frame or message of an unexpected form. -/
  | protocol (reason : String)
  /-- The peer answered with an error. -/
  | refused (refusal : Refusal)
  /-- No answer came in time. -/
  | timedOut (method : String) (milliseconds : Nat)
  /-- The channel is gone. -/
  | closed
deriving BEq, Repr, Inhabited

namespace Channel.Fault

/-- The wording of a fault. -/
def message : Fault → String
  | cannotStart command reason => "failed to start '" ++ command ++ "': " ++ reason
  | transport reason => "transport error: " ++ reason
  | protocol reason => "protocol error: " ++ reason
  | refused r => "request failed: " ++ r.text
  | timedOut method ms => "request '" ++ method ++ "' timed out after " ++ toString ms ++ " ms"
  | closed => "channel closed"

/-- The category of a fault. -/
def kind : Fault → String
  | cannotStart _ _ => "Spawn"
  | transport _ => "Transport"
  | protocol _ => "Protocol"
  | refused _ => "Remote"
  | timedOut _ _ => "Timeout"
  | closed => "ChannelClosed"

/-- What lies behind a fault, nearest cause first. -/
def causes : Fault → List String
  | cannotStart _ reason => [reason]
  | transport reason => [reason]
  | _ => []

/-- The message of the peer, if it refused. -/
def refusalMessage? : Fault → Option String
  | refused r => some r.message
  | _ => none

/-- The fault of a call that hits a frame that cannot be read. -/
def ofFrame : Frame.Fault → Fault
  | .malformedLine line => protocol ("malformed header line: " ++ Text.quoted line)
  | .badLength value => protocol ("invalid Content-Length: " ++ value)
  | .endedInHeader => protocol "stream ended inside header"
  | .noLength => protocol "missing Content-Length header"
  | .badBody => protocol "invalid JSON body"
  | .endedInBody => transport "early eof"
  | .notText f => transport f.message

end Channel.Fault

end Switchboard
