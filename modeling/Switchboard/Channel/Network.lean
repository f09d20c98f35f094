import Switchboard.Channel.Features
import Switchboard.Channel.Pending
import Switchboard.Concurrency.Task

/-!
# Channels and the network they form

* `Channel`: one connection to a peer, from our side: its phase, its outstanding requests, the bytes that
  arrived and the messages that left;
* `Channel.enroll`, `Channel.ask`, `Channel.announce`: the steps of sending a request or notification;
* `Channel.readOne`: taking one frame off the incoming bytes;
* `Network`: all channels and the clock;
* `Wait`: what work over a network can wait for.
-/

namespace Switchboard

/-- The phases of a channel. -/
inductive Phase where
  | notInitialized
  | initializing
  | ready
  /-- The channel is gone; it never leaves this phase. -/
  | closed
deriving DecidableEq, Repr, Inhabited

/-- The name of a phase. -/
def Phase.name : Phase → String
  | notInitialized => "not_initialized"
  | initializing => "initializing"
  | ready => "ready"
  | closed => "closed"

/-- A process at the other end of a channel. -/
inductive ChildState where
  /-- The other end is no process of ours. -/
  | none
  | running
  | exited
deriving DecidableEq, Repr, Inhabited

/-- An event as the peer sent it. -/
structure Channel.Event where
  name : String
  body : Json
deriving BEq, Repr, Inhabited

/-- An event that was passed to a handler. -/
structure Channel.Heard where
  handler : String
  event : Channel.Event
deriving BEq, Repr, Inhabited

/-- One connection to a peer. -/
structure Channel where
  dialect : Dialect := .jsonRpc
  /-- How long a request waits for its answer, in milliseconds. -/
  limit : Option Nat := none
  phase : Phase := .notInitialized
  /-- The number of the next message. -/
  nextId : Int := 1
  pending : Pending := {}
  /-- Who listens, by label. -/
  handlers : Handlers String := {}
  /-- Events that were passed on and not taken up yet, in order of arrival. -/
  heard : List Channel.Heard := []
  features : Features := {}
  /-- Handshakes take turns: the next turn to give out, and the one that is on. -/
  turnsGiven : Nat := 0
  turn : Nat := 0
  /-- Bytes that arrived and were not read. -/
  incoming : List UInt8 := []
  /-- No more bytes will arrive. -/
  inputEnded : Bool := false
  /-- How much memory there is for what arrives. -/
  room : Frame.Room := .most
  /-- The reader has stopped. -/
  readerDone : Bool := false
  /-- Messages that left and were not taken by the peer. -/
  outgoing : List Json := []
  /-- The peer takes no more messages. -/
  outputBroken : Bool := false
  child : ChildState := .none
  /-- The exit of the process was waited for. -/
  reaped : Bool := false
deriving Inhabited

namespace Channel

/-- Is the channel usable? -/
def isOpen (ch : Channel) : Bool := ch.phase ≠ .closed

/-- Move to another phase; a closed channel stays closed. -/
def setPhase (ch : Channel) (next : Phase) : Channel :=
  if ch.phase = .closed then ch else { ch with phase := next }

/-- From here on the channel is closed. -/
def markClosed (ch : Channel) : Channel := { ch with phase := .closed }

/-- Give up every outstanding request. -/
def drain (ch : Channel) : Channel := { ch with pending := ch.pending.close }

/-- Close the channel; a request that comes between the two steps sees that it is closed. -/
def close (ch : Channel) : Channel := ch.markClosed.drain

/-- The number after `id`; it wraps at 64 signed bits. -/
def following (id : Int) : Int := if id = 0x7FFFFFFFFFFFFFFF then -0x8000000000000000 else id + 1

/-- Hand a message to the peer. -/
def write (ch : Channel) (message : Json) : Except Fault Channel :=
  if ch.outputBroken then throw (.transport "broken pipe")
  else pure { ch with outgoing := ch.outgoing ++ [message] }

/-- Take the next number. -/
def takeId (ch : Channel) : Int × Channel := (ch.nextId, { ch with nextId := following ch.nextId })

/-- Take the next number and wait under it. Gives the number and the ticket. -/
def enroll (ch : Channel) : (Int × Nat) × Channel :=
  let (id, ch) := ch.takeId
  let (ticket, pending) := ch.pending.register id
  ((id, ticket), { ch with pending })

/-- Stop waiting under a number. -/
def withdraw (ch : Channel) (id : Int) (ticket : Nat) : Channel :=
  { ch with pending := (ch.pending.cancel id).forget ticket }

/-- Hand a message to the peer; a message that cannot be handed over changes nothing. -/
def post (ch : Channel) (message : Json) : Except Fault Unit × Channel :=
  match ch.write message with
  | .ok ch => (pure (), ch)
  | .error e => (throw e, ch)

/-- Send the request of a number. -/
def ask (ch : Channel) (id : Int) (method : String) (params : Json) : Except Fault Unit × Channel :=
  ch.post (ch.dialect.request id method params)

/-- Send a notification under the next number. -/
def announce (ch : Channel) (method : String) (params : Json) : Except Fault Unit × Channel :=
  let (seq, ch) := ch.takeId
  ch.post (ch.dialect.notification seq method params)

/-! ## Reading -/

/-- Pass an event to its handler, if it has one. -/
def hear (ch : Channel) (event : Event) : Channel :=
  match ch.handlers.handler? event.name with
  | some handler => { ch with heard := ch.heard ++ [⟨handler, event⟩] }
  | none => ch

/-- Take in one meaning: an answer goes to its caller, an event to its handler. A request of the peer is given
back, by its number and name. -/
def dispatch (ch : Channel) : Inbound → Option (Json × String) × Channel
  | .response id outcome => (none, { ch with pending := ch.pending.answer id outcome })
  | .event name body => (none, ch.hear ⟨name, body⟩)
  | .request id method _ => (some (id, method), ch)

/-- Refuse a request of the peer, if that can be sent. -/
def refuse (ch : Channel) (id : Json) (method : String) : Channel :=
  let (seq, ch) := ch.takeId
  (ch.post (ch.dialect.refuse seq id method ("unsupported request '" ++ method ++ "'"))).2

/-- Take in one meaning; no request of the peer is carried out. -/
def accept (ch : Channel) (inbound : Inbound) : Channel :=
  match ch.dispatch inbound with
  | (none, ch) => ch
  | (some (id, method), ch) => ch.refuse id method

/-- Take in one message; one without a meaning is dropped. -/
def receive (ch : Channel) (message : Json) : Channel :=
  match ch.dialect.decode message with
  | .ok inbound => ch.accept inbound
  | .error _ => ch

/-- Take one frame off the incoming bytes. At the end of the stream, and at bytes that are no frame, the channel
closes. A reader that breaks down leaves everything as it is: nobody reads on, and nobody closes the channel. Says
whether there may be more. -/
def readOne (ch : Channel) : Bool × Channel :=
  match Frame.next ch.room ch.inputEnded ch.incoming with
  | .frame message rest => (true, { ch with incoming := rest }.receive message)
  | .starved | .overwhelmed => (false, ch)
  | .finished => (false, { ch with readerDone := true }.close)
  | .failed _ => (false, { ch with readerDone := true }.close)

/-- Take up the oldest event that was passed on. -/
def takeHeard? (ch : Channel) : Option (Heard × Channel) :=
  match ch.heard with
  | h :: rest => some (h, { ch with heard := rest })
  | [] => none

/-- Would `readOne` do anything? -/
def canRead (ch : Channel) : Bool :=
  !ch.readerDone &&
    match Frame.next ch.room ch.inputEnded ch.incoming with
    | .starved | .overwhelmed => false
    | _ => true

end Channel

/-! ## Networks -/

/-- Channels are numbered in the order in which they were connected. -/
abbrev ChannelId := Nat

/-- All channels and the clock, in milliseconds. -/
structure Network where
  now : Nat := 0
  channels : List Channel := []
deriving Inhabited

namespace Network

/-- A channel. -/
def channel (n : Network) (c : ChannelId) : Channel := n.channels.getD c default

/-- Change a channel. -/
def update (n : Network) (c : ChannelId) (f : Channel → Channel) : Network :=
  { n with channels := n.channels.modify c f }

/-- Change a channel and give a result. -/
def updateWith {α : Type} (n : Network) (c : ChannelId) (f : Channel → α × Channel) : α × Network :=
  let (a, ch) := f (n.channel c)
  (a, n.update c fun _ => ch)

/-- Connect a channel. -/
def connect (n : Network) (ch : Channel) : ChannelId × Network :=
  (n.channels.length, { n with channels := n.channels ++ [ch] })

end Network

/-- What work can wait for. -/
inductive Wait where
  /-- The wait of a ticket is over, or the time is. -/
  | answer (c : ChannelId) (ticket : Nat) (deadline : Option Nat)
  /-- The turn to do the handshake. -/
  | turn (c : ChannelId) (ticket : Nat)
  /-- The channel is ready or closed. -/
  | readyOrClosed (c : ChannelId)
  | closed (c : ChannelId)
  /-- The process at the other end is gone, or the time is over. -/
  | exit (c : ChannelId) (deadline : Nat)
  | time (deadline : Nat)
  /-- The turn at a table that nobody keeps over a wait of his own. -/
  | table
deriving DecidableEq, Repr

/-- Is the time over? -/
def Network.isOver (n : Network) : Option Nat → Bool
  | some deadline => deadline ≤ n.now
  | none => false

/-- Is the wait over? -/
def Wait.holds (w : Wait) (n : Network) : Bool :=
  match w with
  | answer c ticket deadline => ((n.channel c).pending.settlement? ticket).isSome || n.isOver deadline
  | turn c ticket => (n.channel c).turn = ticket
  | readyOrClosed c => (n.channel c).phase = .ready || (n.channel c).phase = .closed
  | closed c => (n.channel c).phase = .closed
  | exit c deadline => (n.channel c).child ≠ .running || deadline ≤ n.now
  | time deadline => deadline ≤ n.now
  | table => true

/-- When the wait ends at the latest. -/
def Wait.deadline? : Wait → Option Nat
  | answer _ _ deadline => deadline
  | exit _ deadline => some deadline
  | time deadline => some deadline
  | _ => none

end Switchboard
