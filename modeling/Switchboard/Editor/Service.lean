import Switchboard.Activity
import Switchboard.Editor.Order

/-!
# The service for one editor

* `Service`: an activity with the bytes that came from the editor and what the service is at;
* `Service.listen`: take up one line, or go on with stopping;
* `Service.settle`: everybody gets turns until nothing moves.

Orders are carried out side by side. The order to stop waits for those under way, ends every session and is
replied to last; at the end of the input every session is ended without waiting. A line that is not UTF-8
ends the service at once.
-/

namespace Switchboard.Editor

/-- What the service is at. -/
inductive Service.Phase where
  | reading
  /-- Told to stop: orders under way come first. -/
  | waiting (id : Json)
  /-- Ending every session; afterwards the order to stop is replied to, if there was one. -/
  | stopping (id : Option Json) (work : Task Wait World Unit)
  /-- Over, by a fault of the input if there is one. -/
  | ended (fault : Option String)

/-- The service for one editor. -/
structure Service where
  activity : Activity := {}
  commands : Commands := .all
  /-- Bytes that came from the editor and were not taken up. -/
  input : List UInt8 := []
  inputEnded : Bool := false
  phase : Service.Phase := .reading
  /-- The number of the next order. -/
  next : Nat := 0

instance : Inhabited Service := ⟨{}⟩

namespace Service

/-- The world of a service: what the settings and the files in the state directory say. -/
def worldOf (settings : Settings) (state current : Path) (processId : Nat) (disk : Disk) (programs : Programs) :
    World :=
  { disk, programs
    analysis := { limit := settings.rpc.limit?, current, processId }
    debugger := .ofDisk settings settings.sources state disk }

/-- A service in a world. -/
def ofWorld (world : World) : Service := { activity := { world } }

/-- The world of the service. -/
def world (s : Service) : World := s.activity.world

/-- Tell the editor. -/
def tell (s : Service) (m : Message) : Service :=
  { s with activity := s.activity.onWorld fun w => w.tell m }

/-! ## Input -/

/-- Bytes come from the editor. -/
def feed (s : Service) (bytes : List UInt8) : Service := { s with input := s.input ++ bytes }

/-- The input ends. -/
def endInput (s : Service) : Service := { s with inputEnded := true }

/-- The first line, with its line feed if it has one, and the rest. An unfinished line counts once the input
has ended. -/
def firstLine? (s : Service) : Option (List UInt8 × List UInt8) :=
  match s.input.span (· ≠ 0x0A) with
  | (line, feed :: rest) => some (line ++ [feed], rest)
  | (line, []) => if s.inputEnded && !line.isEmpty then some (line, []) else none

/-- A line without its line break. -/
def withoutBreak (line : String) : String :=
  match line.toList.reverse with
  | '\n' :: '\x0d' :: rest | '\n' :: rest => String.ofList rest.reverse
  | _ => line

/-- What is said of a line that is not UTF-8. -/
def notText : String := "stream did not contain valid UTF-8"

/-! ## Turns -/

/-- End every session. -/
def endSessions : Task Wait World Unit := do
  Analysis.Running.stopAll
  Debug.Running.shutdown

/-- Begin to carry out an order. -/
def begin (s : Service) (o : Order) : Service :=
  { s with activity := s.activity.begin s.next (o.work s.commands), next := s.next + 1 }

/-- Take up a line. -/
def take (s : Service) (line : String) : Service :=
  if Text.isBlankText line then s
  else
    match Order.ofLine line with
    | none => s.tell (.reply Order.unreadable)
    | some o => if o.command = Order.stop then { s with phase := .waiting o.id } else s.begin o

/-- Go on with ending the sessions. -/
def goOnStopping (s : Service) (id : Option Json) (work : Task Wait World Unit) : Service :=
  match s.activity.goOn work with
  | (.done _, activity) =>
    let s := { s with activity, phase := .ended none }
    match id with
    | some id => s.tell (.reply (Order.reply id (.obj [("ok", .null)])))
    | none => s
  | (work, activity) => { s with activity, phase := .stopping id work }

/-- Can `listen` do anything? -/
def canListen (s : Service) : Bool :=
  match s.phase with
  | .reading => s.firstLine?.isSome || s.inputEnded
  | .waiting _ => s.activity.calls.isEmpty
  | .stopping _ work => Activity.canGoOn s.world work
  | .ended _ => false

/-- Take up one line, or go on with stopping. Says whether the turn goes on. -/
def listen (s : Service) : Service × Bool :=
  match s.phase with
  | .reading =>
    match s.firstLine? with
    | some (bytes, rest) =>
      let s := { s with input := rest }
      match Utf8.decode bytes with
      | .ok line => (s.take (withoutBreak line), true)
      | .error _ => ({ s with phase := .ended (some notText) }, false)
    | none => if s.inputEnded then (s.goOnStopping none endSessions, false) else (s, false)
  | .waiting id => if s.activity.calls.isEmpty then (s.goOnStopping (some id) endSessions, false) else (s, false)
  | .stopping id work => (s.goOnStopping id work, false)
  | .ended _ => (s, false)

/-- Who takes turns in a service. -/
inductive Actor where
  | listener
  | other (a : Activity.Actor)
deriving DecidableEq, Repr

/-- The service as a machine. -/
def machine : Machine Service Actor where
  actors s := .listener :: s.activity.actors.map .other
  canRun s
    | .listener => s.canListen
    | .other a => s.activity.canRun a
  turn
    | .listener, s => s.listen
    | .other a, s =>
      let (activity, more) := Activity.turn a s.activity
      ({ s with activity }, more)

/-- Everybody gets turns until nothing moves. -/
def settle (s : Service) : Service := machine.settle Activity.patience [] s

/-- What the editor was told since it was last looked at. -/
def takeTold (s : Service) : List Message × Service :=
  (s.world.told, { s with activity := s.activity.onWorld fun w => { w with told := [] } })

/-- The deadlines of those who wait. -/
def deadlines (s : Service) : List Nat :=
  let stopping := match s.phase with
    | .stopping _ work => (work.waitsOn?.bind Wait.deadline?).toList
    | _ => []
  stopping ++ s.activity.actors.filterMap s.activity.deadline?

/-- Let the clock run to the next deadline, if somebody waits for one. -/
def passTime? (s : Service) : Option Service :=
  s.deadlines.min?.map fun t =>
    { s with activity := s.activity.onWorld fun w => { w with net := { w.net with now := max w.net.now t } } }

/-- Does anything that was asked for remain to be done? -/
def isBusy (s : Service) : Bool :=
  match s.phase with
  | .reading => !s.activity.calls.isEmpty
  | .waiting _ | .stopping _ _ => true
  | .ended _ => false

/-- Everybody gets turns, and the clock runs from deadline to deadline, until nothing that was asked for remains
to be done. The fuel bounds the deadlines. -/
def finish : Nat → Service → Service
  | 0, s => s.settle
  | fuel + 1, s =>
    let s := s.settle
    if s.isBusy then
      match s.passTime? with
      | some s => finish fuel s
      | none => s
    else s

/-- More deadlines than are passed while one line is carried out. -/
def deadlineBound : Nat := 10000

end Service

end Switchboard.Editor
