import Switchboard.Debug.Running

/-!
# Activities: everything that goes on in a world

* `Machine`: actors that share a state, which of them can go on, and what each does when it is its turn;
* `Machine.settle`: every actor gets its turn in the order in which it became able to go on, until none is;
* `Activity`: a world with the work under way in it;
* `Activity.Actor`: who takes turns: the readers of channels, processes, the event loops of debug sessions,
  the workers of deferred work, and calls;
* `Activity.turn`: what an actor does, from one wait to the next.

Turns in any order make a run; `Machine.settle` picks one of them.
-/

namespace Switchboard

/-! ## First come, first served -/

/-- Actors that share a state. -/
structure Machine (σ A : Type) where
  /-- The actors there are; those listed first are first to be noticed. -/
  actors : σ → List A
  /-- Can the actor go on? -/
  canRun : σ → A → Bool
  /-- What the actor does; it says whether its turn goes on. -/
  turn : A → σ → σ × Bool

namespace Machine

variable {σ A : Type} [DecidableEq A]

/-- A queue with those added at its end that can go on and are not in it. -/
def notice (m : Machine σ A) (s : σ) (queue : List A) : List A :=
  queue ++ (m.actors s).filter fun a => m.canRun s a && !queue.contains a

/-- Turns in queue order until no actor can go on. The fuel bounds the number of turns. -/
def settle (m : Machine σ A) : Nat → List A → σ → σ
  | 0, _, s => s
  | fuel + 1, queue, s =>
    match m.notice s queue with
    | [] => s
    | a :: rest =>
      if m.canRun s a then
        let (s', more) := m.turn a s
        if more then settle m fuel (a :: (m.notice s' rest).filter (· ≠ a)) s'
        else settle m fuel (m.notice s' rest) s'
      else settle m fuel rest s

end Machine

/-! ## Activities -/

/-- What the event loop of a debug session is at. -/
inductive Activity.Loop where
  /-- It waits for an event or for the end of its channel. -/
  | idle
  | busy (work : Task Wait World Unit)
  /-- Every event was taken up and the channel is closed. -/
  | ending (work : Task Wait World Unit)
  | ended

/-- A world with the work under way in it. -/
structure Activity where
  world : World := {}
  /-- Calls under way, by number. -/
  calls : List (Nat × Task Wait World Json) := []
  /-- Results of calls, in the order in which they came. -/
  results : List (Nat × Json) := []
  /-- Event loops that are not idle. -/
  loops : List (Debug.SessionId × Activity.Loop) := []
  /-- Deferred work that workers have taken, by number. -/
  jobs : List (Nat × Task Wait World Unit) := []

instance : Inhabited Activity := ⟨{}⟩

namespace Activity

/-- Who takes turns. -/
inductive Actor where
  | reader (c : ChannelId)
  | process (k : Nat)
  | loop (s : Debug.SessionId)
  | worker
  | job (number : Nat)
  | call (number : Nat)
deriving DecidableEq, Repr

/-- More turns than any activity needs before it rests. -/
def patience : Nat := 1000000

/-! ## Parts -/

/-- Change the world. -/
def onWorld (a : Activity) (f : World → World) : Activity := { a with world := f a.world }

/-- Begin a call. -/
def begin (a : Activity) (number : Nat) (work : Task Wait World Json) : Activity :=
  { a with calls := a.calls ++ [(number, work)] }

/-- Replace the work under a number; work that is done is dropped. -/
def putWork {κ α : Type} [DecidableEq κ] (key : κ) (work : Task Wait World α) (l : List (κ × Task Wait World α)) :
    List (κ × Task Wait World α) :=
  match work with
  | .done _ => l.filter (·.1 ≠ key)
  | t => l.map fun x => if x.1 = key then (key, t) else x

/-- What an event loop is at. -/
def loop (a : Activity) (s : Debug.SessionId) : Loop := (a.loops.lookup s).getD .idle

/-- Note what an event loop is at. -/
def putLoop (a : Activity) (s : Debug.SessionId) (l : Loop) : Activity :=
  { a with loops := (s, l) :: a.loops.filter (·.1 ≠ s) }

/-- The channel of a debug session. -/
def channelOf (a : Activity) (s : Debug.SessionId) : ChannelId := (a.world.debugger.session s).channel

/-! ## Who can take a turn -/

/-- Debug sessions whose events somebody takes up. -/
def served (a : Activity) : List Debug.SessionId :=
  (a.world.debugger.sessions.zipIdx.filter (·.1.served)).map (·.2)

/-- Readers of channels. -/
def readers (a : Activity) : List Actor := (List.range a.world.net.channels.length).map .reader

/-- Everybody but the readers. -/
def others (a : Activity) : List Actor :=
  (List.range a.world.processes.length).map .process ++ a.served.map .loop ++ [.worker]
    ++ a.jobs.map (fun x => .job x.1) ++ a.calls.map fun x => .call x.1

/-- Everybody. -/
def actors (a : Activity) : List Actor := a.readers ++ a.others

/-- Can work go on, or hand over its result? -/
def canGoOn {α : Type} (w : World) (work : Task Wait World α) : Bool :=
  work.canRun World.holds w || work.result?.isSome

/-- Can an event loop go on? -/
def canLoop (a : Activity) (s : Debug.SessionId) : Bool :=
  let ch := a.world.channel (a.channelOf s)
  match a.loop s with
  | .idle => !ch.heard.isEmpty || !ch.isOpen
  | .busy work | .ending work => canGoOn a.world work
  | .ended => false

/-- Can an actor go on? -/
def canRun (a : Activity) : Actor → Bool
  | .reader c => (a.world.channel c).canRead
  | .process k =>
    match a.world.processes[k]? with
    | some p => p.canRun (a.world.channel p.channel)
    | none => false
  | .loop s => a.canLoop s
  | .worker => a.world.debugger.pool.canTake
  | .job n => (a.jobs.lookup n).any (canGoOn a.world)
  | .call n => (a.calls.lookup n).any (canGoOn a.world)

/-- When the wait of an actor ends at the latest. -/
def deadline? (a : Activity) : Actor → Option Nat
  | .loop s =>
    match a.loop s with
    | .busy work | .ending work => work.waitsOn?.bind Wait.deadline?
    | _ => none
  | .job n => (a.jobs.lookup n).bind fun t => t.waitsOn?.bind Wait.deadline?
  | .call n => (a.calls.lookup n).bind fun t => t.waitsOn?.bind Wait.deadline?
  | _ => none

/-! ## Turns -/

/-- Go on with work. -/
def goOn {α : Type} (a : Activity) (work : Task Wait World α) : Task Wait World α × Activity :=
  let (work, world) := work.run World.holds a.world
  (work, { a with world })

/-- Take one frame off a channel. -/
def readTurn (c : ChannelId) (a : Activity) : Activity × Bool :=
  let (more, world) := a.world.read c
  ({ a with world }, more)

/-- One step of a process. -/
def processTurn (k : Nat) (a : Activity) : Activity × Bool :=
  match a.world.processes[k]? with
  | none => (a, false)
  | some p =>
    let (p, ch) := p.step (a.world.channel p.channel)
    let w := a.world.updateChannel p.channel fun _ => ch
    ({ a with world := { w with processes := w.processes.set k p } }, p.canRun ch)

/-- Go on with an event; afterwards the loop is idle and may go on. -/
def loopBusy (a : Activity) (s : Debug.SessionId) (work : Task Wait World Unit) : Activity × Bool :=
  match a.goOn work with
  | (.done _, a) => (a.putLoop s .idle, true)
  | (work, a) => (a.putLoop s (.busy work), false)

/-- Go on with the end of a session. -/
def loopEnding (a : Activity) (s : Debug.SessionId) (work : Task Wait World Unit) : Activity × Bool :=
  match a.goOn work with
  | (.done _, a) => (a.putLoop s .ended, false)
  | (work, a) => (a.putLoop s (.ending work), false)

/-- An event loop takes up the oldest event. Without one, it ends when its channel is closed. -/
def loopTurn (s : Debug.SessionId) (a : Activity) : Activity × Bool :=
  match a.loop s with
  | .idle =>
    let c := a.channelOf s
    let ch := a.world.channel c
    match ch.takeHeard? with
    | some (heard, ch) =>
      (a.onWorld fun w => w.updateChannel c fun _ => ch).loopBusy s (Debug.Running.handleEvent s heard.event)
    | none => if ch.isOpen then (a, false) else a.loopEnding s (Debug.Running.sessionClosed s)
  | .busy work => a.loopBusy s work
  | .ending work => a.loopEnding s work
  | .ended => (a, false)

/-- Go on with deferred work; a worker that is done can take other work. -/
def jobTurn (n : Nat) (a : Activity) : Activity × Bool :=
  match a.jobs.lookup n with
  | none => (a, false)
  | some work =>
    let (work, a) := a.goOn work
    let a := { a with jobs := putWork n work a.jobs }
    match work with
    | .done _ =>
      (a.onWorld fun w => { w with debugger := { w.debugger with pool := w.debugger.pool.release } }, false)
    | _ => (a, false)

/-- A worker takes the work that came first. -/
def workerTurn (a : Activity) : Activity × Bool :=
  match a.world.debugger.pool.take? with
  | none => (a, false)
  | some (job, pool) =>
    let a := a.onWorld fun w => { w with debugger := { w.debugger with pool } }
    let a := { a with jobs := a.jobs ++ [(job.number, Debug.Running.prefetch job)] }
    ((jobTurn job.number a).1, pool.canTake)

/-- Go on with a call. -/
def callTurn (n : Nat) (a : Activity) : Activity × Bool :=
  match a.calls.lookup n with
  | none => (a, false)
  | some work =>
    let (work, a) := a.goOn work
    let results := match work.result? with
      | some v => a.results ++ [(n, v)]
      | none => a.results
    ({ a with calls := putWork n work a.calls, results }, false)

/-- What an actor does; it says whether its turn goes on. -/
def turn : Actor → Activity → Activity × Bool
  | .reader c, a => readTurn c a
  | .process k, a => processTurn k a
  | .loop s, a => loopTurn s a
  | .worker, a => workerTurn a
  | .job n, a => jobTurn n a
  | .call n, a => callTurn n a

end Activity

end Switchboard
