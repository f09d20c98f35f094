import Switchboard.Channel.Fault

/-!
# Envelopes

Two dialects put requests, answers and events into JSON messages: `jsonRpc` on analysis channels and
`sequenced` on debug channels, where every message carries a number.

* `Dialect.request`, `Dialect.notification`, `Dialect.refuse`: the messages a channel sends;
* `Inbound`: what a message from the peer means, the same for both dialects;
* `Dialect.decode`: the meaning of a message, or why it has none.
-/

namespace Switchboard

/-- The form of messages on a channel. -/
inductive Dialect where
  | jsonRpc
  | sequenced
deriving DecidableEq, Repr, Inhabited

/-- The answer to a request: its result or the peer's error. -/
abbrev Outcome := Except Refusal Json

/-- The meaning of a message from the peer. -/
inductive Inbound where
  /-- The answer to one of our requests. -/
  | response (id : Int) (outcome : Outcome)
  /-- An event or notification. -/
  | event (name : String) (body : Json)
  /-- A request of the peer. -/
  | request (id : Json) (method : String) (params : Json)
deriving Repr

/-- Why a message has no meaning. -/
inductive Envelope.Fault where
  | methodNotText
  | idNotInteger (id : Json)
  | neitherIdNorMethod
  | noType
  | noRequestNumber
  | noEventName
  | noCommand
  | unknownType (type : String)
deriving BEq, Repr

/-- The wording of a fault. -/
def Envelope.Fault.message : Envelope.Fault → String
  | methodNotText => "method must be a string"
  | idNotInteger id => "response id must be an integer, got " ++ id.text
  | neitherIdNorMethod => "message has neither id nor method"
  | noType => "message without type"
  | noRequestNumber => "response without request_seq"
  | noEventName => "event without name"
  | noCommand => "request without command"
  | unknownType type => "unknown message type '" ++ type ++ "'"

namespace Dialect

/-- The name of a dialect. -/
def label : Dialect → String
  | jsonRpc => "jsonrpc"
  | sequenced => "dap"

/-! ## Messages sent -/

/-- The error code for a method that is not there. -/
def methodNotFound : Int := -32601

/-- A request under a fresh number. Without parameters a sequenced request has no `arguments`. -/
def request (d : Dialect) (id : Int) (method : String) (params : Json) : Json :=
  match d with
  | jsonRpc => .obj [("id", .int id), ("jsonrpc", "2.0"), ("method", method), ("params", params)]
  | sequenced =>
    .record [("arguments", if params.isNull then none else some params), ("command", some method),
      ("seq", some (.int id)), ("type", some "request")]

/-- A notification; only the sequenced dialect shows its number. -/
def notification (d : Dialect) (seq : Int) (method : String) (params : Json) : Json :=
  match d with
  | jsonRpc => .obj [("jsonrpc", "2.0"), ("method", method), ("params", params)]
  | sequenced => .obj [("body", params), ("event", method), ("seq", .int seq), ("type", "event")]

/-- The refusal of a request of the peer. -/
def refuse (d : Dialect) (seq : Int) (requestId : Json) (method : String) (message : String) : Json :=
  match d with
  | jsonRpc =>
    .obj [("error", .obj [("code", .int methodNotFound), ("message", message)]), ("id", requestId),
      ("jsonrpc", "2.0")]
  | sequenced =>
    .obj [("command", method), ("message", message), ("request_seq", requestId), ("seq", .int seq),
      ("success", false), ("type", "response")]

/-! ## Messages received -/

/-- The error object of a JSON-RPC response. -/
def refusalOfError (error : Json) : Refusal where
  code := (error.get? "code").bind Json.asInt64?
  message := ((error.get? "message").bind Json.asStr?).getD "unknown error"
  data := error.get? "data"

/-- The meaning of a JSON-RPC message. An `id` that is there counts even when it is `null`. -/
def decodeJsonRpc (message : Json) : Except Envelope.Fault Inbound := do
  let method ← match message.get? "method" with
    | none => pure none
    | some (.str m) => pure (some m)
    | some _ => throw .methodNotText
  let params := (message.get? "params").getD .null
  match message.get? "id", method with
  | some id, some method => return .request id method params
  | some id, none =>
    match id.asInt64? with
    | none => throw (.idNotInteger id)
    | some n =>
      match message.get? "error" with
      | some error =>
        if error.isNull then return .response n (.ok ((message.get? "result").getD .null))
        else return .response n (.error (refusalOfError error))
      | none => return .response n (.ok ((message.get? "result").getD .null))
  | none, some method => return .event method params
  | none, none => throw .neitherIdNorMethod

/-- The error of an unsuccessful response: the text in `body.error.format`, else the short message. -/
def refusalOfBody (message body : Json) : Refusal :=
  let error := (body.get? "error").getD .null
  let detailed := (error.get? "format").bind Json.asStr?
  let short := (message.get? "message").bind Json.asStr?
  { code := (error.get? "id").bind Json.asInt64?
    message := (detailed <|> short).getD "request failed"
    data := if body.isNull then none else some body }

/-- The meaning of a sequenced message. -/
def decodeSequenced (message : Json) : Except Envelope.Fault Inbound := do
  let some type := (message.get? "type").bind Json.asStr? | throw .noType
  let body := (message.get? "body").getD .null
  match type with
  | "response" =>
    let some id := (message.get? "request_seq").bind Json.asInt64? | throw .noRequestNumber
    let success := ((message.get? "success").bind Json.asBool?).getD false
    return .response id (if success then .ok body else .error (refusalOfBody message body))
  | "event" =>
    let some name := (message.get? "event").bind Json.asStr? | throw .noEventName
    return .event name body
  | "request" =>
    let some method := (message.get? "command").bind Json.asStr? | throw .noCommand
    return .request ((message.get? "seq").getD .null) method ((message.get? "arguments").getD .null)
  | other => throw (.unknownType other)

/-- The meaning of a message. -/
def decode (d : Dialect) (message : Json) : Except Envelope.Fault Inbound :=
  match d with
  | jsonRpc => decodeJsonRpc message
  | sequenced => decodeSequenced message

end Dialect

end Switchboard
