import Switchboard.Activity
import Switchboard.Rehearsal.Peer

/-!
# Rehearsals: activities with scripted peers

* `Rehearsal`: an activity whose channels lead to scripted peers;
* `Rehearsal.settle`: everybody gets turns until nothing moves;
* `Rehearsal.advance`: the clock moves on, and everything that was due goes on in order of its deadline.

Time stands still while the activity settles.
-/

namespace Switchboard

/-- An activity whose channels lead to scripted peers. -/
structure Rehearsal where
  activity : Activity := {}
  peers : List Peer := []

instance : Inhabited Rehearsal := ⟨{}⟩

namespace Rehearsal

/-- The world of a rehearsal. -/
def world (r : Rehearsal) : World := r.activity.world

/-- Change the world. -/
def onWorld (r : Rehearsal) (f : World → World) : Rehearsal := { r with activity := r.activity.onWorld f }

/-- Change a channel. -/
def updateChannel (r : Rehearsal) (c : ChannelId) (f : Channel → Channel) : Rehearsal :=
  r.onWorld fun w => w.updateChannel c f

/-- A peer. -/
def peer (r : Rehearsal) (k : Nat) : Peer := r.peers.getD k default

/-- The channel of a peer. -/
def channel (r : Rehearsal) (k : Nat) : Channel := r.world.channel (r.peer k).channel

/-- Change a peer. -/
def updatePeer (r : Rehearsal) (k : Nat) (f : Peer → Peer) : Rehearsal := { r with peers := r.peers.modify k f }

/-- Connect a channel to a new peer with habits. Gives the number of the channel. -/
def connect (r : Rehearsal) (ch : Channel) (habits : List (String × List Peer.Reply)) : ChannelId × Rehearsal :=
  let (channel, w) := r.world.connect ch
  (channel, { activity := { r.activity with world := w }, peers := r.peers ++ [{ channel, habits }] })

/-! ## What a peer does -/

/-- Bytes come from a peer, unless it has closed its end. -/
def send (r : Rehearsal) (k : Nat) (bytes : List UInt8) : Rehearsal :=
  r.updateChannel (r.peer k).channel fun ch =>
    if ch.inputEnded then ch else { ch with incoming := ch.incoming ++ bytes }

/-- A message comes from a peer. -/
def sendMessage (r : Rehearsal) (k : Nat) (message : Json) : Rehearsal := r.send k (Frame.encode message)

/-- A peer closes its end. -/
def hangUp (r : Rehearsal) (k : Nat) : Rehearsal :=
  r.updateChannel (r.peer k).channel fun ch => { ch with inputEnded := true }

/-- A peer takes no more messages. -/
def turnAway (r : Rehearsal) (k : Nat) : Rehearsal :=
  r.updateChannel (r.peer k).channel fun ch => { ch with outputBroken := true }

/-- A peer answers the oldest open request of a name. Says whether there was one. -/
def respond (r : Rehearsal) (k : Nat) (name : String) (reply : Peer.Reply) : Bool × Rehearsal :=
  match (r.peer k).respond (r.channel k).dialect name reply with
  | (none, _) => (false, r)
  | (some none, p) => (true, r.updatePeer k fun _ => p)
  | (some (some frame), p) => (true, (r.updatePeer k fun _ => p).sendMessage k frame)

/-- A peer takes in one message. Says whether there may be more. -/
def peerTurn (k : Nat) (r : Rehearsal) : Rehearsal × Bool :=
  let ch := r.channel k
  match ch.outgoing with
  | [] => (r, false)
  | message :: rest =>
    let (answer, p) := (r.peer k).take ch.dialect message
    let r := (r.updatePeer k fun _ => p).updateChannel p.channel fun ch => { ch with outgoing := rest }
    let r := match answer with
      | some frame => r.sendMessage k frame
      | none => r
    (r, !rest.isEmpty)

/-! ## Turns -/

/-- Who takes turns in a rehearsal. -/
inductive Actor where
  | peer (k : Nat)
  | own (a : Activity.Actor)
deriving DecidableEq, Repr

/-- The rehearsal as a machine. -/
def machine : Machine Rehearsal Actor where
  actors r :=
    r.activity.readers.map .own ++ (List.range r.peers.length).map .peer ++ r.activity.others.map .own
  canRun r
    | .peer k => !(r.channel k).outgoing.isEmpty
    | .own a => r.activity.canRun a
  turn
    | .peer k, r => peerTurn k r
    | .own a, r =>
      let (activity, more) := Activity.turn a r.activity
      ({ r with activity }, more)

/-- Everybody gets turns until nothing moves, those in the queue first. -/
def settleFrom (queue : List Actor) (r : Rehearsal) : Rehearsal := machine.settle Activity.patience queue r

/-- Everybody gets turns until nothing moves. -/
def settle (r : Rehearsal) : Rehearsal := r.settleFrom []

/-- Those whose wait is over at a time, the earliest deadline first. -/
def due (r : Rehearsal) : List Actor :=
  let waiting := r.activity.actors.filterMap fun a =>
    match r.activity.deadline? a with
    | some t => if t ≤ r.world.net.now then some (a, t) else none
    | none => none
  (waiting.mergeSort fun x y => x.2 ≤ y.2).map fun x => .own x.1

/-- The clock moves on by some milliseconds at once; then everybody gets turns. -/
def advance (r : Rehearsal) (milliseconds : Nat) : Rehearsal :=
  let r := r.onWorld fun w => { w with net := { w.net with now := w.net.now + milliseconds } }
  r.settleFrom r.due

/-! ## What can be seen -/

/-- What the editor was told since it was last looked at. -/
def takeTold (r : Rehearsal) : List Message × Rehearsal :=
  (r.world.told, r.onWorld fun w => { w with told := [] })

/-- What a peer received since it was last looked at. -/
def takeReceived (r : Rehearsal) (k : Nat) : List Json × Rehearsal :=
  let (received, p) := (r.peer k).takeReceived
  (received, r.updatePeer k fun _ => p)

/-- Results of calls since they were last looked at, by number. -/
def takeResults (r : Rehearsal) : List (Nat × Json) × Rehearsal :=
  (r.activity.results.mergeSort fun x y => x.1 ≤ y.1, { r with activity := { r.activity with results := [] } })

/-- Begin a call under a number. -/
def begin (r : Rehearsal) (number : Nat) (work : Task Wait World Json) : Rehearsal :=
  { r with activity := r.activity.begin number work }

/-- The debugger is replaced; its event loops and deferred work end with it. -/
def restart (r : Rehearsal) (debugger : Debug.Debugger) : Rehearsal :=
  { r with activity := { r.activity with world := { r.world with debugger }, loops := [], jobs := [] } }

end Rehearsal

end Switchboard
