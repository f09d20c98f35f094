import Switchboard.Channel.Envelope

/-!
# Outstanding requests

* `Pending`: which request numbers wait for an answer, and the answers that were not fetched yet;
* a caller holds a *ticket*; numbers belong to the messages, tickets to the callers;
* `Handlers`: where events go, by name or else to one fallback.
-/

namespace Switchboard

/-- How waiting for an answer ends. -/
inductive Settlement where
  | answered (outcome : Outcome)
  /-- No answer will come. -/
  | dropped
deriving Repr

/-- Outstanding requests and answers not yet fetched. -/
structure Pending where
  /-- The next ticket. -/
  next : Nat := 0
  /-- Request numbers that wait, each with the ticket of its caller. -/
  waiting : List (Int × Nat) := []
  /-- Tickets whose wait is over. -/
  settled : List (Nat × Settlement) := []
deriving Repr, Inhabited

namespace Pending

/-- How many requests wait. -/
def count (p : Pending) : Nat := p.waiting.length

/-- The ticket that waits under a number. -/
def ticket? (p : Pending) (id : Int) : Option Nat := p.waiting.lookup id

/-- End the wait under a number, if there is one. -/
def settle (p : Pending) (id : Int) (s : Settlement) : Pending :=
  match p.ticket? id with
  | some t => { p with waiting := p.waiting.filter (·.1 ≠ id), settled := p.settled ++ [(t, s)] }
  | none => p

/-- Wait under a number; an older wait under it is dropped. Gives the ticket. -/
def register (p : Pending) (id : Int) : Nat × Pending :=
  let p := p.settle id .dropped
  (p.next, { p with next := p.next + 1, waiting := p.waiting ++ [(id, p.next)] })

/-- Hand the answer to whoever waits under a number. -/
def answer (p : Pending) (id : Int) (outcome : Outcome) : Pending := p.settle id (.answered outcome)

/-- Stop waiting under a number. -/
def cancel (p : Pending) (id : Int) : Pending := p.settle id .dropped

/-- Drop every wait. -/
def close (p : Pending) : Pending :=
  { p with waiting := [], settled := p.settled ++ p.waiting.map fun w => (w.2, .dropped) }

/-- How the wait of a ticket ended. -/
def settlement? (p : Pending) (ticket : Nat) : Option Settlement := p.settled.lookup ticket

/-- Forget a fetched answer. -/
def forget (p : Pending) (ticket : Nat) : Pending :=
  { p with settled := p.settled.filter (·.1 ≠ ticket) }

end Pending

/-- Where events go: by name, else to the fallback. -/
structure Handlers (η : Type) where
  named : List (String × η) := []
  fallback : Option η := none
deriving Repr, Inhabited

namespace Handlers

variable {η : Type}

/-- Handle events of a name, in place of an earlier handler. -/
def on (h : Handlers η) (name : String) (handler : η) : Handlers η :=
  { h with named := (name, handler) :: h.named.filter (·.1 ≠ name) }

/-- Handle every event without a handler of its own. -/
def onAny (h : Handlers η) (handler : η) : Handlers η := { h with fallback := some handler }

/-- The handler of an event. -/
def handler? (h : Handlers η) (name : String) : Option η := h.named.lookup name <|> h.fallback

end Handlers

end Switchboard
