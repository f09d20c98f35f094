import Switchboard.Channel.Network

/-!
# Peers that follow a script

* `Peer.Reply`: how a peer answers a request;
* `Peer`: the far end of a channel: the habits by which it answers at once, the requests that it left open,
  and everything that it received.

A habit is a list of replies that are used one after the other, the last one again and again.
-/

namespace Switchboard

/-- How a peer answers a request. -/
inductive Peer.Reply where
  | accept (result : Option Json)
  | refuse (reason : Json) (body : Option Json)
  /-- Not at all. -/
  | silent
deriving BEq, Repr, Inhabited

/-- The far end of a channel. -/
structure Peer where
  channel : ChannelId
  /-- Replies by name of the request; those under the star are for every other name. -/
  habits : List (String × List Peer.Reply) := []
  /-- Requests that were not answered, by name and number, oldest first. -/
  unanswered : List (String × Json) := []
  /-- Everything that was received. -/
  received : List Json := []
deriving Repr, Inhabited

namespace Peer

/-- The name of the habit for all other requests. -/
def anyName : String := "*"

/-- A reply as a frame, if there is one. -/
def Reply.toFrame? (dialect : Dialect) (name : String) (id : Json) : Reply → Option Json
  | silent => none
  | accept result =>
    match dialect with
    | .sequenced =>
      some (.record [("seq", some (.int 0)), ("type", some "response"), ("request_seq", some id),
        ("command", some name), ("success", some (.bool true)), ("body", result)])
    | .jsonRpc => some (.obj [("jsonrpc", "2.0"), ("id", id), ("result", result.getD .null)])
  | refuse reason body =>
    match dialect with
    | .sequenced =>
      some (.record [("seq", some (.int 0)), ("type", some "response"), ("request_seq", some id),
        ("command", some name), ("success", some (.bool false)), ("message", some reason), ("body", body)])
    | .jsonRpc => some (.obj [("jsonrpc", "2.0"), ("id", id), ("error", reason)])

/-- Answer requests of a name by a habit from now on. -/
def learn (p : Peer) (name : String) (replies : List Reply) : Peer :=
  { p with habits := (name, replies) :: p.habits.filter (·.1 ≠ name) }

/-- The habit after its first reply was used. -/
def used : List Reply → List Reply
  | _ :: second :: rest => second :: rest
  | replies => replies

/-- The next reply to a request of a name. -/
def nextReply (p : Peer) (name : String) : Reply × Peer :=
  let key := if (p.habits.lookup name).isSome then name else anyName
  match p.habits.lookup key with
  | some (reply :: rest) =>
    (reply, { p with habits := p.habits.map fun h => if h.1 = key then (key, used (reply :: rest)) else h })
  | _ => (.silent, p)

/-- Take in a message. Gives the answer, if there is one at once. -/
def take (p : Peer) (dialect : Dialect) (message : Json) : Option Json × Peer :=
  let p := { p with received := p.received ++ [message] }
  match dialect.decode message with
  | .ok (.request id name _) =>
    let (reply, p) := p.nextReply name
    match reply.toFrame? dialect name id with
    | some frame => (some frame, p)
    | none => (none, { p with unanswered := p.unanswered ++ [(name, id)] })
  | _ => (none, p)

/-- Answer the oldest open request of a name. Says whether there was one, and gives the answer. -/
def respond (p : Peer) (dialect : Dialect) (name : String) (reply : Reply) : Option (Option Json) × Peer :=
  match p.unanswered.find? (·.1 = name) with
  | some request =>
    (some (reply.toFrame? dialect name request.2), { p with unanswered := p.unanswered.erase request })
  | none => (none, p)

/-- What was received since it was last looked at. -/
def takeReceived (p : Peer) : List Json × Peer := (p.received, { p with received := [] })

end Peer

end Switchboard
