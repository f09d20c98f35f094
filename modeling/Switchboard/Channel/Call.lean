import Switchboard.Channel.Network

/-!
# Calls over a channel

* `Network.request`, `Network.notify`: send a message, and for a request wait for its answer;
* `Network.initializeWith`: run a handshake once, later callers waiting for it;
* `Network.awaitReady`, `Network.awaitClosed`, `Network.shutdown`.
-/

namespace Switchboard.Network

/-- Work over a network that may fail. -/
abbrev Call (α : Type) := Attempt Wait Network Channel.Fault α

/-- How long a process may take to exit by itself, in milliseconds. -/
def exitGrace : Nat := 2000

/-- The deadline of something that starts now and may take so long. -/
def deadlineAfter (n : Network) (limit : Option Nat) : Option Nat := limit.map (n.now + ·)

/-- Fetch how the wait of a ticket ended, if it has. -/
def fetch (c : ChannelId) (ticket : Nat) (n : Network) : Option Settlement × Network :=
  match (n.channel c).pending.settlement? ticket with
  | some s => (some s, n.update c fun ch => { ch with pending := ch.pending.forget ticket })
  | none => (none, n)

/-- What a caller makes of the end of its wait. -/
def outcomeOf : Settlement → Except Channel.Fault Json
  | .answered (.ok v) => pure v
  | .answered (.error r) => throw (.refused r)
  | .dropped => throw .closed

/-- Stop waiting under a number. -/
def withdraw (c : ChannelId) (id : Int) (ticket : Nat) : Call Unit :=
  Attempt.ofTask (Task.modify fun n => n.update c fun ch => ch.withdraw id ticket)

/-- Fails on a closed channel. -/
def checkOpen (c : ChannelId) : Call Unit := do
  let isOpen ← Attempt.ofTask (Task.view fun n => (n.channel c).isOpen)
  if isOpen then return () else throw .closed

/-- Take a number and wait under it. Gives the number and the ticket. -/
def enroll (c : ChannelId) : Call (Int × Nat) :=
  Attempt.ofTask (Task.act fun n => n.updateWith c Channel.enroll)

/-- If the step fails, stop waiting. -/
def orWithdraw (c : ChannelId) (id : Int) (ticket : Nat) (step : Call Unit) : Call Unit := do
  match ← Attempt.ofTask step.outcome with
  | .ok () => return ()
  | .error e => do
    withdraw c id ticket
    throw e

/-- The earlier one of two deadlines. -/
def earlier : Option Nat → Option Nat → Option Nat
  | some a, some b => some (min a b)
  | a, none => a
  | none, b => b

/-- Send a request and wait for its outcome, at most until `latest`. The channel has to be open before and
after the number is taken: a request that is enrolled while the channel closes is either dropped by
the close or sees it. If the time is over and there is no answer, the request is withdrawn. -/
def requestUntil (c : ChannelId) (method : String) (params : Json) (latest : Option Nat) : Call Json := do
  checkOpen c
  let (id, ticket) ← enroll c
  orWithdraw c id ticket (checkOpen c)
  orWithdraw c id ticket (Attempt.act fun n => n.updateWith c fun ch => ch.ask id method params)
  let n ← Attempt.ofTask Task.state
  let limit := (n.channel c).limit
  Attempt.ofTask (Task.await (.answer c ticket (earlier (n.deadlineAfter limit) latest)))
  match ← Attempt.ofTask (Task.act (fetch c ticket)) with
  | some s => Attempt.ofExcept (outcomeOf s)
  | none => do
    withdraw c id ticket
    throw (.timedOut method (limit.getD 0))

/-- Send a request and wait for its outcome. -/
def request (c : ChannelId) (method : String) (params : Json) : Call Json :=
  requestUntil c method params none

/-- Send a notification. -/
def notify (c : ChannelId) (method : String) (params : Json) : Call Unit := do
  checkOpen c
  Attempt.act fun n => n.updateWith c fun ch => ch.announce method params

/-- Move a channel to another phase. -/
def setPhase (c : ChannelId) (phase : Phase) : Call Unit :=
  Attempt.ofTask (Task.modify fun n => n.update c (·.setPhase phase))

/-- Store a feature of a channel. -/
def insertFeature (c : ChannelId) (path : String) (value : Json) : Call Unit :=
  Attempt.ofTask (Task.modify fun n =>
    n.update c fun ch => { ch with features := ch.features.insert path value })

/-- Take a turn for the handshake. -/
def takeTurn (c : ChannelId) (n : Network) : Nat × Network :=
  n.updateWith c fun ch => (ch.turnsGiven, { ch with turnsGiven := ch.turnsGiven + 1 })

/-- Pass the turn on. -/
def passTurn (c : ChannelId) : Call Unit :=
  Attempt.ofTask (Task.modify fun n => n.update c fun ch => { ch with turn := ch.turn + 1 })

/-- Run `handshake` unless it was run or is running. A failed handshake leaves the channel as before it. -/
def initializeWith (c : ChannelId) (handshake : Call Unit) : Call Unit := do
  let ticket ← Attempt.ofTask (Task.act (takeTurn c))
  Attempt.ofTask (Task.await (.turn c ticket))
  let n ← Attempt.ofTask Task.state
  match (n.channel c).phase with
  | .ready => passTurn c
  | .initializing => passTurn c
  | .closed => do
    passTurn c
    throw .closed
  | .notInitialized => do
    setPhase c .initializing
    match ← Attempt.ofTask handshake.outcome with
    | .ok () => passTurn c
    | .error e => do
      setPhase c .notInitialized
      passTurn c
      throw e

/-- Wait until the channel is ready; fails if it closes. -/
def awaitReady (c : ChannelId) : Call Unit := do
  Attempt.ofTask (Task.await (.readyOrClosed c))
  let n ← Attempt.ofTask Task.state
  if (n.channel c).phase = .ready then return () else throw .closed

/-- Wait until the channel is closed. -/
def awaitClosed (c : ChannelId) : Task Wait Network Unit := Task.await (.closed c)

/-- Take over the process, unless it is gone or somebody did. Gives the time at which it was taken over. -/
def takeChild (c : ChannelId) (n : Network) : Option Nat × Network :=
  let ch := n.channel c
  if ch.child = .running ∧ !ch.reaped then (some n.now, n.update c fun ch => { ch with reaped := true })
  else (none, n)

/-- Let the process that was taken over exit, for a while. -/
def reap (c : ChannelId) : Option Nat → Task Wait Network Unit
  | some start => do
    Task.await (.exit c (start + exitGrace))
    Task.modify fun n => n.update c fun ch => { ch with child := .exited }
  | none => return ()

/-- Let the process exit, for a while, then close the channel. -/
def shutdown (c : ChannelId) : Task Wait Network Unit := do
  let start ← Task.act (takeChild c)
  reap c start
  Task.modify fun n => n.update c (·.markClosed)
  Task.modify fun n => n.update c (·.drain)

end Switchboard.Network
