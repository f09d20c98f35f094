import Switchboard.Activity
import Switchboard.Proofs.Debug.Hush

/-!
# What becomes of the events of a session

* `Attached`: the events of the channel of a session come to its queue, from when the session listens;
  `attached_startAdapter`;
* `Spot`: where an event loop is between two accesses;
* `State`, `Turn`, `Step`: the event loop, the reader of the channel and everybody else take turns access by access;
* `loopTurn_followed`: the turn of an event loop that nobody interrupts is made of these;
* `Orderly`: events are handled in order, and the end of a session is behind them;
* `Invariant.step`: every step keeps it.
-/

namespace Switchboard

namespace Channel.Reader.Place

/-- Is the reader behind the last message that it reads? -/
def isOver : Place → Bool
  | closing | draining | stopped | broken => true
  | reading | refusing _ _ | replying _ _ _ => false

/-- A reader that is there stays there, and takes no message in. -/
lemma isOver_next? {ch ch' : Channel} {p p' : Place} (hover : p.isOver = true) (hnext : p.next? ch = some (p', ch')) :
    p'.isOver = true ∧ p.message? ch = none := by
  cases p with
  | reading | refusing id method | replying id method seq => cases hover
  | closing | draining =>
    obtain ⟨rfl, rfl⟩ := Prod.mk.inj (Option.some.inj hnext)
    exact ⟨rfl, rfl⟩
  | stopped | broken => cases hnext

end Channel.Reader.Place

namespace Debug.Running

open Channel (Event)
open Channel.Reader (Place events)

/-- The events of the channel of a session that is there come to its queue, and none has come yet. Runs begin here: what
the reader takes in before the session listens comes to no queue. -/
structure Attached (w : World) (x : SessionId) (c : ChannelId) : Prop where
  registered : x < w.debugger.sessions.length
  channel : (w.debugger.session x).channel = c
  handlers : (w.channel c).handlers = .onAny {} "events"
  heard : (w.channel c).heard = []

/-- The session of an adapter that was started is attached. -/
theorem attached_startAdapter {w w' : World} {language : String} {directory : Option Path} {x : SessionId}
    (h : w.startAdapter language directory = (.ok x, w')) : Attached w' x w.net.channels.length := by
  rw [World.startAdapter] at h
  dsimp only at h
  split at h
  · cases h
  · next adapter _ =>
    rw [World.spawn] at h
    split at h
    · cases h
    · next hspawn =>
      split at hspawn
      · cases hspawn
      · obtain ⟨hchannel, rfl⟩ := Prod.mk.inj hspawn
        obtain rfl := Except.ok.inj hchannel
        obtain ⟨hsession, rfl⟩ := Prod.mk.inj h
        obtain rfl := Except.ok.inj hsession
        -- the session is the last one, and so is its channel
        constructor <;>
          simp [Debugger.session, Debugger.setCurrent_sessions, Debugger.addSession, World.channel, Network.channel,
            World.adapterChannel]

namespace Hearing

/-! ## The loop, access by access -/

/-- Where an event loop is between two accesses. -/
inductive Spot where
  /-- It asks for an event. -/
  | polling
  /-- It was told of none, and looks whether the channel is closed. -/
  | checking
  /-- It saw that the channel is closed, and asks once more. -/
  | trying
  | handling (event : Event) (work : Task Wait World Unit)
  | ending (work : Task Wait World Unit)
  | ended

namespace Spot

/-- The work that the loop is at. -/
def work? : Spot → Option (Task Wait World Unit)
  | handling _ work | ending work => some work
  | _ => none

/-- The same with what is left of the work. -/
def goOn : Spot → Task Wait World Unit → Spot
  | handling event _, work => handling event work
  | ending _, work => ending work
  | p, _ => p

/-- The event that is being handled. -/
def inHand : Spot → List Event
  | handling event _ => [event]
  | _ => []

/-- Does the loop ask for no more events? -/
def IsOver : Spot → Prop
  | ending _ | ended => True
  | _ => False

lemma inHand_goOn (p : Spot) (work : Task Wait World Unit) : (p.goOn work).inHand = p.inHand := by cases p <;> rfl

lemma isOver_goOn (p : Spot) (work : Task Wait World Unit) : (p.goOn work).IsOver ↔ p.IsOver := by cases p <;> rfl

lemma work?_goOn {p : Spot} {work : Task Wait World Unit} (h : p.work? = some work) (left : Task Wait World Unit) :
    (p.goOn left).work? = some left := by
  cases p with
  | handling event work' | ending work' => rfl
  | polling | checking | trying | ended => cases h

lemma goOn_of_work? {p : Spot} {work : Task Wait World Unit} (h : p.work? = some work) : p.goOn work = p := by
  cases p with
  | handling event work' | ending work' =>
    obtain rfl := Option.some.inj h
    rfl
  | polling | checking | trying | ended => cases h

lemma goOn_goOn (p : Spot) (work left : Task Wait World Unit) : (p.goOn work).goOn left = p.goOn left := by
  cases p <;> rfl

/-- Where the loop goes when its work is done. -/
def next : Spot → Spot
  | handling _ _ => polling
  | ending _ => ended
  | p => p

lemma next_goOn (p : Spot) (work : Task Wait World Unit) : (p.goOn work).next = p.next := by cases p <;> rfl

/-- Where it is with what is left of its work. -/
def after (p : Spot) : Task Wait World Unit → Spot
  | .done _ => p.next
  | left => p.goOn left

/-- What the loop of an activity is at. -/
def loop? : Spot → Option Activity.Loop
  | polling => some .idle
  | handling _ work => some (.busy work)
  | ending work => some (.ending work)
  | ended => some .ended
  | checking | trying => none

end Spot

/-- What there was when the channel closed. -/
structure Mark where
  /-- The events that had been passed on. -/
  before : List Event
  /-- The reader had come to the end of the stream. -/
  atEnd : Bool

/-- The world, with the reader of a channel and the event loop of its session. -/
structure State where
  world : World
  reader : Place := .reading
  spot : Spot := .polling
  /-- The events among the messages that the reader took in. -/
  passed : List Event := []
  /-- The events that the loop is done with. -/
  handled : List Event := []
  mark : Option Mark := none

/-- What there is, if the channel has closed now. -/
def State.noting (c : ChannelId) (s : State) : State :=
  { s with mark := s.mark <|> if (s.world.channel c).phase = .closed then some ⟨s.passed, s.reader.isOver⟩ else none }

/-- The loop has not begun, and the reader is anywhere. -/
def State.start (c : ChannelId) (w : World) (reader : Place) : State := State.noting c { world := w, reader }

/-- An access of the event loop of a session. -/
inductive Turn (x : SessionId) (c : ChannelId) : State → State → Prop
  | takes {s : State} {heard : Channel.Heard} {ch : Channel} (asks : s.spot = .polling ∨ s.spot = .trying)
      (found : (s.world.channel c).takeHeard? = some (heard, ch)) :
    Turn x c s { s with
      world := s.world.updateChannel c fun _ => ch, spot := .handling heard.event (handleEvent x heard.event) }
  /-- A loop that has had its share of time is told of none even if there is one. -/
  | overlooks {s : State} (asks : s.spot = .polling) : Turn x c s { s with spot := .checking }
  | rests {s : State} (looks : s.spot = .checking) (isOpen : (s.world.channel c).isOpen = true) :
    Turn x c s { s with spot := .polling }
  | sees {s : State} (looks : s.spot = .checking) (closed : (s.world.channel c).isOpen = false) :
    Turn x c s { s with spot := .trying }
  | stops {s : State} (asks : s.spot = .trying) (none : (s.world.channel c).takeHeard? = none) :
    Turn x c s { s with spot := .ending (sessionClosed x) }
  | works {s : State} {work left : Task Wait World Unit} {w : World} (at_ : s.spot.work? = some work)
      (tick : work.tick? World.holds s.world = some (left, w)) :
    Turn x c s ({ s with world := w, spot := s.spot.goOn left }.noting c)
  /-- The event in hand is handled, or the session has ended. -/
  | finishes {s : State} (done : s.spot.work? = some (.done ())) :
    Turn x c s { s with spot := s.spot.next, handled := s.handled ++ s.spot.inHand }

/-- The events that the next access of the reader takes in. -/
def State.arriving (c : ChannelId) (s : State) : List Event :=
  events (s.world.channel c).dialect (s.reader.message? (s.world.channel c)).toList

/-- An access of anybody. -/
inductive Step (x : SessionId) (c : ChannelId) : State → State → Prop
  | turn {s s' : State} (turn : Turn x c s s') : Step x c s s'
  | read {s : State} {place : Place} {ch : Channel} (next : s.reader.next? (s.world.channel c) = some (place, ch)) :
    Step x c s ({ s with
      world := s.world.updateChannel c fun _ => ch
      reader := place
      passed := s.passed ++ s.arriving c }.noting c)
  /-- All else: bytes arrive, requests are sent, the channel is closed, other sessions go on. -/
  | aside {s : State} {w : World} (hushed : (s.world.channel c).Hushed (w.channel c)) :
    Step x c s ({ s with world := w }.noting c)

/-! ## The turns of an activity -/

section Activity

variable {x : SessionId} {c : ChannelId} {s : State} {a : Activity}

/-- Work that nobody interrupts goes on to its end, or to a wait that is not over. -/
lemma run_followed (work : Task Wait World Unit) (hat : s.spot.work? = some work) :
    ∃ s', Relation.ReflTransGen (Turn x c) s s' ∧ s'.world = (work.run World.holds s.world).2 ∧
      s'.spot = s.spot.goOn (work.run World.holds s.world).1 := by
  have hgoesOn : ∀ {s : State} {work left : Task Wait World Unit} {w : World}, s.spot.work? = some work →
      work.tick? World.holds s.world = some (left, w) →
      (∀ s : State, s.spot.work? = some left → ∃ s', Relation.ReflTransGen (Turn x c) s s' ∧
        s'.world = (left.run World.holds s.world).2 ∧ s'.spot = s.spot.goOn (left.run World.holds s.world).1) →
      ∃ s', Relation.ReflTransGen (Turn x c) s s' ∧ s'.world = (left.run World.holds w).2 ∧
        s'.spot = s.spot.goOn (left.run World.holds w).1 := by
    intro s work left w hat htick hleft
    obtain ⟨s', hrun, hworld, hspot⟩ := hleft ({ s with world := w, spot := s.spot.goOn left }.noting c)
      (Spot.work?_goOn hat left)
    refine ⟨s', .head (.works hat htick) hrun, hworld, hspot.trans ?_⟩
    exact Spot.goOn_goOn s.spot left _
  induction work generalizing s with
  | done u => exact ⟨s, .refl, rfl, (Spot.goOn_of_work? hat).symm⟩
  | access f next ih =>
    have htick : (Task.access f next).tick? World.holds s.world = some (next s.world, f s.world) := rfl
    rw [Task.run]
    exact hgoesOn hat htick fun s' hat' => ih s.world hat'
  | wait on next ih =>
    by_cases hholds : World.holds on s.world = true
    · have htick : (Task.wait on next).tick? World.holds s.world = some (next, s.world) := by
        rw [Task.tick?, if_pos hholds]
      rw [Task.run, if_pos hholds]
      exact hgoesOn hat htick fun s' hat' => ih hat'
    · rw [Task.run, if_neg hholds]
      exact ⟨s, .refl, rfl, (Spot.goOn_of_work? hat).symm⟩

/-- Work that comes to its end brings the loop on. -/
lemma work_followed (work : Task Wait World Unit) (hat : s.spot.work? = some work) :
    ∃ s', Relation.ReflTransGen (Turn x c) s s' ∧ s'.world = (work.run World.holds s.world).2 ∧
      s'.spot = s.spot.after (work.run World.holds s.world).1 := by
  obtain ⟨s', hrun, hworld, hspot⟩ := run_followed (x := x) (c := c) work hat
  have hat' := Spot.work?_goOn hat (work.run World.holds s.world).1
  rw [← hspot] at hat'
  generalize (work.run World.holds s.world).1 = left at hspot hat'
  cases left with
  | done u =>
    refine ⟨_, hrun.tail (.finishes hat'), hworld, ?_⟩
    show s'.spot.next = s.spot.next
    rw [hspot, Spot.next_goOn]
  | access f next | wait on next => exact ⟨s', hrun, hworld, hspot⟩

/-- What an activity makes of an event is what the loop makes of it. -/
lemma loopBusy_eq (a : Activity) (x : SessionId) (event : Event) (work : Task Wait World Unit) :
    (a.loopBusy x work).1.world = (work.run World.holds a.world).2 ∧
      ((Spot.handling event work).after (work.run World.holds a.world).1).loop?
        = some ((a.loopBusy x work).1.loop x) := by
  rw [Activity.loopBusy, Activity.goOn]
  generalize work.run World.holds a.world = r
  obtain ⟨left, w⟩ := r
  cases left <;> simp [Spot.after, Spot.next, Spot.goOn, Spot.loop?, Activity.putLoop, Activity.loop]

lemma loopEnding_eq (a : Activity) (x : SessionId) (work : Task Wait World Unit) :
    (a.loopEnding x work).1.world = (work.run World.holds a.world).2 ∧
      ((Spot.ending work).after (work.run World.holds a.world).1).loop? = some ((a.loopEnding x work).1.loop x) := by
  rw [Activity.loopEnding, Activity.goOn]
  generalize work.run World.holds a.world = r
  obtain ⟨left, w⟩ := r
  cases left <;> simp [Spot.after, Spot.next, Spot.goOn, Spot.loop?, Activity.putLoop, Activity.loop]

/-- An event loop goes on with an event. -/
lemma loopBusy_followed {event : Event} {work : Task Wait World Unit} (hworld : s.world = a.world)
    (hspot : s.spot = .handling event work) :
    ∃ s', Relation.ReflTransGen (Turn x c) s s' ∧ s'.world = (a.loopBusy x work).1.world ∧
      s'.spot.loop? = some ((a.loopBusy x work).1.loop x) := by
  obtain ⟨s', hrun, hafter, hspot'⟩ := work_followed (x := x) (c := c) work (by rw [hspot]; rfl)
  obtain ⟨hworld', hloop⟩ := loopBusy_eq a x event work
  rw [hworld] at hafter hspot'
  rw [hspot] at hspot'
  exact ⟨s', hrun, hafter.trans hworld'.symm, by rw [hspot', hloop]⟩

/-- An event loop goes on with the end of its session. -/
lemma loopEnding_followed {work : Task Wait World Unit} (hworld : s.world = a.world) (hspot : s.spot = .ending work) :
    ∃ s', Relation.ReflTransGen (Turn x c) s s' ∧ s'.world = (a.loopEnding x work).1.world ∧
      s'.spot.loop? = some ((a.loopEnding x work).1.loop x) := by
  obtain ⟨s', hrun, hafter, hspot'⟩ := work_followed (x := x) (c := c) work (by rw [hspot]; rfl)
  obtain ⟨hworld', hloop⟩ := loopEnding_eq a x work
  rw [hworld] at hafter hspot'
  rw [hspot] at hspot'
  exact ⟨s', hrun, hafter.trans hworld'.symm, by rw [hspot', hloop]⟩

/-- The turn of an event loop that nobody interrupts is made of these accesses. -/
theorem loopTurn_followed (hchannel : a.channelOf x = c) (hworld : s.world = a.world)
    (hspot : s.spot.loop? = some (a.loop x)) :
    ∃ s', Relation.ReflTransGen (Turn x c) s s' ∧ s'.world = (a.loopTurn x).1.world ∧
      s'.spot.loop? = some ((a.loopTurn x).1.loop x) := by
  subst hchannel
  rw [Activity.loopTurn]
  cases hat : s.spot with
  | checking | trying =>
    rw [hat] at hspot
    cases hspot
  | handling event work =>
    rw [hat] at hspot
    rw [← Option.some.inj hspot]
    exact loopBusy_followed hworld hat
  | ending work =>
    rw [hat] at hspot
    rw [← Option.some.inj hspot]
    exact loopEnding_followed hworld hat
  | ended =>
    have hloop := hspot
    rw [hat] at hloop
    rw [← Option.some.inj hloop]
    exact ⟨s, .refl, hworld, hspot⟩
  | polling =>
    have hloop := hspot
    rw [hat] at hloop
    rw [← Option.some.inj hloop]
    dsimp only
    cases hfound : (a.world.channel (a.channelOf x)).takeHeard? with
    | some found =>
      obtain ⟨heard, ch⟩ := found
      have hturn := Turn.takes (x := x) (.inl hat) (hworld ▸ hfound)
      obtain ⟨s', hrun, hafter⟩ := loopBusy_followed (x := x) (c := a.channelOf x)
        (a := a.onWorld fun w => w.updateChannel (a.channelOf x) fun _ => ch) (s := { s with
          world := s.world.updateChannel (a.channelOf x) fun _ => ch
          spot := .handling heard.event (handleEvent x heard.event) }) (by rw [hworld]; rfl) rfl
      exact ⟨s', .head hturn hrun, hafter⟩
    | none =>
      cases hopen : (a.world.channel (a.channelOf x)).isOpen with
      | true => exact ⟨s, .refl, hworld, hspot⟩
      | false =>
        -- it is told of no event, sees that the channel is closed, and is told of none again
        have hlooks : Relation.ReflTransGen (Turn x (a.channelOf x)) s { s with spot := .ending (sessionClosed x) } :=
          .head (.overlooks hat) (.head (.sees rfl (hworld ▸ hopen)) (.head (.stops rfl (hworld ▸ hfound)) .refl))
        obtain ⟨s', hrun, hafter⟩ := loopEnding_followed (x := x) (c := a.channelOf x) (a := a)
          (s := { s with spot := .ending (sessionClosed x) }) hworld rfl
        exact ⟨s', hlooks.trans hrun, hafter⟩

end Activity

/-! ## What holds at any time -/

/-- Events are handled in the order in which they were passed on, and none of those that were passed on before the
channel closed is left when the session ends. -/
structure Orderly (c : ChannelId) (s : State) : Prop where
  /-- Each event that was passed on is handled, in hand, or in the queue. -/
  order : s.passed = s.handled ++ s.spot.inHand ++ (s.world.channel c).heard.map (·.event)
  marked : (s.world.channel c).phase = .closed ↔ ∃ m, s.mark = some m
  /-- Behind the end of the stream nothing is passed on. -/
  atEnd : ∀ m, s.mark = some m → m.before <+: s.passed ∧ (m.atEnd = true → s.passed = m.before)
  ending : s.spot.IsOver → ∃ m, s.mark = some m ∧ m.before <+: s.handled ∧ (m.atEnd = true → s.handled = m.before)

structure Invariant (c : ChannelId) (s : State) : Prop extends Orderly c s where
  handlers : (s.world.channel c).handlers = .onAny {} "events"
  reader : ∀ m, s.mark = some m → m.atEnd = true → s.reader.isOver = true
  hushed : ∀ work, s.spot.work? = some work → work.Within World.Hushed
  trying : s.spot = .trying → (s.world.channel c).phase = .closed

namespace Invariant

variable {x : SessionId} {c : ChannelId} {s s' : State}

/-- A channel to which somebody listens is there. -/
lemma present (h : Invariant c s) : c < s.world.net.channels.length := by
  by_contra hge
  have hdefault : s.world.channel c = default := by simp [World.channel, Network.channel, List.getD, Nat.not_lt.mp hge]
  have hhandlers := h.handlers
  rw [hdefault] at hhandlers
  cases hhandlers

lemma channel_update (h : Invariant c s) (ch : Channel) : (s.world.updateChannel c fun _ => ch).channel c = ch :=
  Network.channel_update h.present _

/-- What is noted was noted before, or is noted now. -/
lemma mark_noting {m : Mark} : (s.noting c).mark = some m ↔
    s.mark = some m ∨ s.mark = none ∧ (s.world.channel c).phase = .closed ∧ m = ⟨s.passed, s.reader.isOver⟩ := by
  cases hmark : s.mark with
  | some m' => simp [State.noting, hmark]
  | none =>
    by_cases hclosed : (s.world.channel c).phase = .closed
    · simp [State.noting, hmark, hclosed, eq_comm]
    · simp [State.noting, hmark, hclosed]

/-- The world changes, and events may be passed on while the reader is not at the end. -/
lemma grow (h : Invariant c s) (w : World) (reader : Place) (new : List Event)
    (hhandlers : (w.channel c).handlers = (s.world.channel c).handlers)
    (hheard : (w.channel c).heard.map (·.event) = (s.world.channel c).heard.map (·.event) ++ new)
    (hclosed : (s.world.channel c).phase = .closed → (w.channel c).phase = .closed)
    (hover : s.reader.isOver = true → reader.isOver = true ∧ new = []) :
    Invariant c ({ s with world := w, reader := reader, passed := s.passed ++ new }.noting c) where
  order := by
    show s.passed ++ new = s.handled ++ s.spot.inHand ++ (w.channel c).heard.map (·.event)
    rw [hheard, h.order]
    simp
  marked := by
    show (w.channel c).phase = .closed ↔ _
    constructor
    · intro hnow
      by_cases hold : ∃ m, s.mark = some m
      · obtain ⟨m, hm⟩ := hold
        exact ⟨m, mark_noting.mpr (.inl hm)⟩
      · have hnone : s.mark = none := Option.eq_none_iff_forall_ne_some.mpr fun m hm => hold ⟨m, hm⟩
        exact ⟨_, mark_noting.mpr (.inr ⟨hnone, hnow, rfl⟩)⟩
    · rintro ⟨m, hm⟩
      rcases mark_noting.mp hm with hold | ⟨-, hnow, -⟩
      · exact hclosed (h.marked.mpr ⟨m, hold⟩)
      · exact hnow
  atEnd m hm := by
    rcases mark_noting.mp hm with hold | ⟨-, -, rfl⟩
    · obtain ⟨hbefore, hend⟩ := h.atEnd m hold
      refine ⟨hbefore.trans (List.prefix_append _ _), fun hat => ?_⟩
      show s.passed ++ new = m.before
      rw [(hover (h.reader m hold hat)).2, List.append_nil, hend hat]
    · exact ⟨List.prefix_refl _, fun _ => rfl⟩
  ending hspot := by
    obtain ⟨m, hm, hbefore⟩ := h.ending hspot
    exact ⟨m, mark_noting.mpr (.inl hm), hbefore⟩
  handlers := hhandlers.trans h.handlers
  reader m hm hat := by
    rcases mark_noting.mp hm with hold | ⟨-, -, rfl⟩
    · exact (hover (h.reader m hold hat)).1
    · exact hat
  hushed := h.hushed
  trying hspot := hclosed (h.trying hspot)

/-- What everybody else does. -/
lemma aside (h : Invariant c s) {w : World} (hw : (s.world.channel c).Hushed (w.channel c)) :
    Invariant c ({ s with world := w }.noting c) := by
  have hheard : (w.channel c).heard.map (·.event) = (s.world.channel c).heard.map (·.event) ++ [] := by
    rw [hw.heard, List.append_nil]
  have hgrows := h.grow w s.reader [] hw.handlers hheard hw.closed fun hover => ⟨hover, rfl⟩
  rwa [List.append_nil] at hgrows

/-- The loop moves on with the same event in hand. -/
lemma move (h : Invariant c s) {p : Spot} (hhand : p.inHand = s.spot.inHand) (hover : p.IsOver → s.spot.IsOver)
    (hhushed : ∀ work, p.work? = some work → work.Within World.Hushed)
    (htrying : p = .trying → (s.world.channel c).phase = .closed) : Invariant c { s with spot := p } where
  order := by
    show s.passed = s.handled ++ p.inHand ++ _
    rw [hhand]
    exact h.order
  marked := h.marked
  atEnd := h.atEnd
  ending hp := h.ending (hover hp)
  handlers := h.handlers
  reader := h.reader
  hushed := hhushed
  trying := htrying

/-- The loop looks around with nothing in hand. -/
lemma look (h : Invariant c s) {p : Spot} (hspot : s.spot = .polling ∨ s.spot = .checking)
    (hp : p = .polling ∨ p = .checking ∨ p = .trying) (htrying : p = .trying → (s.world.channel c).phase = .closed) :
    Invariant c { s with spot := p } := by
  have hidle : p.inHand = [] ∧ p.work? = none ∧ ¬ p.IsOver := by
    rcases hp with rfl | rfl | rfl <;> exact ⟨rfl, rfl, id⟩
  have hnone : s.spot.inHand = [] := by rcases hspot with hspot | hspot <;> rw [hspot] <;> rfl
  refine h.move (hidle.1.trans hnone.symm) (fun hover => absurd hover hidle.2.2) (fun work hwork => ?_) htrying
  rw [hidle.2.1] at hwork
  cases hwork

/-- The loop takes an event up. -/
lemma takes (h : Invariant c s) {heard : Channel.Heard} {ch : Channel} (hasks : s.spot = .polling ∨ s.spot = .trying)
    (hfound : (s.world.channel c).takeHeard? = some (heard, ch)) :
    Invariant c { s with
      world := s.world.updateChannel c fun _ => ch, spot := .handling heard.event (handleEvent x heard.event) } := by
  have hqueue : (s.world.channel c).heard = heard :: ch.heard ∧ ch.handlers = (s.world.channel c).handlers ∧
      ch.phase = (s.world.channel c).phase := by
    rw [Channel.takeHeard?] at hfound
    split at hfound
    · next first rest hheard =>
      obtain ⟨rfl, rfl⟩ := Prod.mk.inj (Option.some.inj hfound)
      exact ⟨hheard, rfl, rfl⟩
    · cases hfound
  obtain ⟨hheard, hhandlers, hphase⟩ := hqueue
  have hnone : s.spot.inHand = [] := by rcases hasks with hspot | hspot <;> rw [hspot] <;> rfl
  exact {
    order := by
      show s.passed
        = s.handled ++ [heard.event] ++ ((s.world.updateChannel c fun _ => ch).channel c).heard.map (·.event)
      rw [h.channel_update, h.order, hnone, hheard]
      simp
    marked := by
      show ((s.world.updateChannel c fun _ => ch).channel c).phase = .closed ↔ _
      rw [h.channel_update, hphase]
      exact h.marked
    atEnd := h.atEnd
    ending := fun hspot => hspot.elim
    handlers := by
      show ((s.world.updateChannel c fun _ => ch).channel c).handlers = _
      rw [h.channel_update, hhandlers]
      exact h.handlers
    reader := h.reader
    hushed := by
      intro work hwork
      obtain rfl := Option.some.inj hwork
      exact within_hushed_handleEvent x heard.event
    trying := fun hspot => by cases hspot }

/-- The loop finds the queue of a closed channel empty, so every event was handled. -/
lemma stops (h : Invariant c s) (hasks : s.spot = .trying) (hnone : (s.world.channel c).takeHeard? = none) :
    Invariant c { s with spot := .ending (sessionClosed x) } := by
  have hheard : (s.world.channel c).heard = [] := by
    rw [Channel.takeHeard?] at hnone
    split at hnone
    · cases hnone
    · assumption
  have hall : s.passed = s.handled := by
    rw [h.order, hasks, hheard]
    simp [Spot.inHand]
  obtain ⟨m, hm⟩ := h.marked.mp (h.trying hasks)
  obtain ⟨hbefore, hend⟩ := h.atEnd m hm
  rw [hall] at hbefore hend
  exact {
    order := by
      show s.passed = s.handled ++ [] ++ _
      rw [hall, hheard]
      simp
    marked := h.marked
    atEnd := h.atEnd
    ending := fun _ => ⟨m, hm, hbefore, hend⟩
    handlers := h.handlers
    reader := h.reader
    hushed := by
      intro work hwork
      obtain rfl := Option.some.inj hwork
      exact within_hushed_sessionClosed x
    trying := fun hspot => by cases hspot }

/-- The loop is done with its work. -/
lemma finishes (h : Invariant c s) (hdone : s.spot.work? = some (.done ())) :
    Invariant c { s with spot := s.spot.next, handled := s.handled ++ s.spot.inHand } := by
  have hnext : s.spot.next.inHand = [] ∧ s.spot.next.work? = none ∧ s.spot.next ≠ .trying ∧
      (s.spot.next.IsOver → s.spot.IsOver ∧ s.spot.inHand = []) := by
    cases hspot : s.spot with
    | handling event work => exact ⟨rfl, rfl, by simp [Spot.next], fun hover => hover.elim⟩
    | ending work => exact ⟨rfl, rfl, by simp [Spot.next], fun _ => ⟨trivial, rfl⟩⟩
    | polling | checking | trying | ended =>
      rw [hspot] at hdone
      cases hdone
  obtain ⟨hhand, hwork, htrying, hover⟩ := hnext
  exact {
    order := by
      show s.passed = s.handled ++ s.spot.inHand ++ s.spot.next.inHand ++ _
      rw [hhand, List.append_nil]
      exact h.order
    marked := h.marked
    atEnd := h.atEnd
    ending := by
      intro hnext
      obtain ⟨hbefore, hnone⟩ := hover hnext
      show ∃ m, s.mark = some m ∧ m.before <+: s.handled ++ s.spot.inHand ∧ _
      rw [hnone, List.append_nil]
      exact h.ending hbefore
    handlers := h.handlers
    reader := h.reader
    hushed := by
      intro work hsome
      exact absurd (hwork.symm.trans hsome) (by simp)
    trying := fun hspot => absurd hspot htrying }

/-- The loop goes on with its work. -/
lemma works (h : Invariant c s) {work left : Task Wait World Unit} {w : World} (hat : s.spot.work? = some work)
    (htick : work.tick? World.holds s.world = some (left, w)) :
    Invariant c ({ s with world := w, spot := s.spot.goOn left }.noting c) := by
  obtain ⟨hworld, hleft⟩ := (h.hushed work hat).tick htick
  have hhushed : (s.world.channel c).Hushed (w.channel c) := by
    rcases hworld with hw | rfl
    · exact hw c
    · exact .refl _
  have hwork := Spot.work?_goOn hat left
  refine (h.aside hhushed).move (s.spot.inHand_goOn left) (s.spot.isOver_goOn left).mp ?_ ?_
  · intro work' hwork'
    obtain rfl := Option.some.inj (hwork.symm.trans hwork')
    exact hleft
  · intro hspot
    have hleftOver : s.spot.goOn left = .trying := hspot
    rw [hleftOver] at hwork
    cases hwork

lemma turn (h : Invariant c s) (hturn : Turn x c s s') : Invariant c s' := by
  cases hturn with
  | takes hasks hfound => exact h.takes hasks hfound
  | overlooks hasks => exact h.look (.inl hasks) (.inr (.inl rfl)) fun hp => by cases hp
  | rests hlooks hopen => exact h.look (.inr hlooks) (.inl rfl) fun hp => by cases hp
  | sees hlooks hclosed => exact h.look (.inr hlooks) (.inr (.inr rfl)) fun _ => by simpa [Channel.isOpen] using hclosed
  | stops hasks hnone => exact h.stops hasks hnone
  | works hat htick => exact h.works hat htick
  | finishes hdone => exact h.finishes hdone

/-- The reader makes an access. -/
lemma read (h : Invariant c s) {place : Place} {ch : Channel}
    (hnext : s.reader.next? (s.world.channel c) = some (place, ch)) :
    Invariant c ({ s with
      world := s.world.updateChannel c fun _ => ch
      reader := place
      passed := s.passed ++ s.arriving c }.noting c) := by
  have hover := fun hover => Place.isOver_next? hover hnext
  cases hmessage : s.reader.message? (s.world.channel c) with
  | none =>
    have hhushed := Place.hushed_next? hmessage hnext
    have harriving : s.arriving c = [] := by
      rw [State.arriving, hmessage]
      rfl
    refine h.grow _ place _ ?_ ?_ ?_ fun hold => ⟨(hover hold).1, harriving⟩
    · rw [h.channel_update]
      exact hhushed.handlers
    · rw [h.channel_update, hhushed.heard, harriving, List.append_nil]
    · rw [h.channel_update]
      exact hhushed.closed
  | some message =>
    obtain ⟨hheard, hhandlers, hclosed⟩ := Place.heard_next? h.handlers hmessage hnext
    refine h.grow _ place _ ?_ ?_ ?_ fun hold => ?_
    · rw [h.channel_update]
      exact hhandlers
    · rw [h.channel_update, hheard, State.arriving, hmessage]
      simp [Function.comp_def]
    · rw [h.channel_update]
      exact hclosed
    · rw [hmessage] at hover
      cases (hover hold).2

lemma step (h : Invariant c s) (hstep : Step x c s s') : Invariant c s' := by
  cases hstep with
  | turn hturn => exact h.turn hturn
  | read hnext => exact h.read hnext
  | aside hhushed => exact h.aside hhushed

lemma run (h : Invariant c s) (hrun : Relation.ReflTransGen (Step x c) s s') : Invariant c s' := by
  induction hrun with
  | refl => exact h
  | tail _ hstep ih => exact ih.step hstep

/-- Where nothing is new nothing is noted. -/
lemma noting_eq (h : Invariant c s) : s.noting c = s := by
  have hmark : (s.noting c).mark = s.mark := by
    cases hm : s.mark with
    | some m => simp [State.noting, hm]
    | none =>
      have hopen : (s.world.channel c).phase ≠ .closed := by
        intro hclosed
        obtain ⟨m, hsome⟩ := h.marked.mp hclosed
        rw [hm] at hsome
        cases hsome
      simp [State.noting, hm, hopen]
  rw [show s.noting c = { s with mark := (s.noting c).mark } from rfl, hmark]

lemma start {w : World} (hattached : Attached w x c) (reader : Place) : Invariant c (.start c w reader) where
  order := by simp [State.start, State.noting, Spot.inHand, hattached.heard]
  marked := by
    constructor
    · intro hclosed
      exact ⟨_, mark_noting.mpr (.inr ⟨rfl, hclosed, rfl⟩)⟩
    · rintro ⟨m, hm⟩
      rcases mark_noting.mp hm with hold | ⟨-, hclosed, -⟩
      · cases hold
      · exact hclosed
  atEnd m hm := by
    rcases mark_noting.mp hm with hold | ⟨-, -, rfl⟩
    · cases hold
    · exact ⟨List.prefix_refl _, fun _ => rfl⟩
  ending hspot := hspot.elim
  handlers := hattached.handlers
  reader m hm hat := by
    rcases mark_noting.mp hm with hold | ⟨-, -, rfl⟩
    · cases hold
    · exact hat
  hushed _ hwork := by cases hwork
  trying hspot := by cases hspot

end Invariant

end Hearing

end Debug.Running

end Switchboard
