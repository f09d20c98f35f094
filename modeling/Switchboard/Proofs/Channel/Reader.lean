import Switchboard.Channel.Network
import Switchboard.Proofs.Channel.Framing
import Switchboard.Proofs.Channel.Table
import Switchboard.Proofs.Keyed

/-!
# The reader of a channel

* `Registration`, `listener`: who listens to events of a name; `Handlers.handler?_of`: that is who is called;
* `Place`, `Place.next?`: where the reader is between two accesses, and its next access; `readOne_eq`: taking one frame
  in is these accesses without a pause;
* `State`, `Step`: a channel with its reader, a stream that arrives in parts, and everybody else;
* `Folds`: what the reader did, as a fold over the messages of the stream; `Invariant.step`: every step keeps it;
* `reader_folds`: in every run.
-/

namespace Switchboard

/-! ## Listeners -/

/-- Somebody asks for events: those of a name, or all that nobody else asks for by name. -/
inductive Registration where
  | named (name : String) (label : String)
  | any (label : String)

namespace Registration

/-- The label for events of a name. -/
def label? (name : String) : Registration → Option String
  | named n label => if n = name then some label else none
  | any _ => none

/-- The label for all other events. -/
def fallback? : Registration → Option String
  | named _ _ => none
  | any label => some label

@[simp] lemma label?_named (n name label : String) :
    (named n label).label? name = if n = name then some label else none := rfl

@[simp] lemma label?_any (name label : String) : (any label).label? name = none := rfl

@[simp] lemma fallback?_named (n label : String) : (named n label).fallback? = none := rfl

@[simp] lemma fallback?_any (label : String) : (any label).fallback? = some label := rfl

end Registration

/-- Who listens to events of a name: who asked last for this name, or else who asked last for all others. -/
def listener (registrations : List Registration) (name : String) : Option String :=
  (registrations.filterMap (·.label? name)).getLast? <|> (registrations.filterMap (·.fallback?)).getLast?

namespace Handlers

def register (h : Handlers String) : Registration → Handlers String
  | .named name label => h.on name label
  | .any label => h.onAny label

/-- The handlers after some registrations. -/
def of (registrations : List Registration) : Handlers String := registrations.foldl register {}

lemma lookup_on (h : Handlers String) (name other label : String) :
    (h.on name label).named.lookup other = if name = other then some label else h.named.lookup other := by
  rw [on, List.lookup_cons]
  by_cases hname : name = other
  · subst hname
    simp
  · have hne : (other == name) = false := by simpa using Ne.symm hname
    rw [hne, if_neg hname]
    have hwithout := congrFun (Keyed.lookup_without h.named name) other
    rw [Function.update_of_ne (Ne.symm hname)] at hwithout
    exact hwithout

/-- Who is called is who asked last. -/
lemma handler?_of (registrations : List Registration) (name : String) :
    (of registrations).handler? name = listener registrations name := by
  have hboth : (of registrations).named.lookup name = (registrations.filterMap (·.label? name)).getLast? ∧
      (of registrations).fallback = (registrations.filterMap (·.fallback?)).getLast? := by
    induction registrations using List.reverseRecOn with
    | nil => exact ⟨rfl, rfl⟩
    | append_singleton registrations r ih =>
      rw [of, List.foldl_concat]
      obtain ⟨hnamed, hfallback⟩ := ih
      rw [of] at hnamed hfallback
      cases r with
      | named n label =>
        constructor
        · rw [register, lookup_on, List.filterMap_append, hnamed]
          by_cases hn : n = name
          · simp [hn]
          · simp [hn]
        · rw [register, on, hfallback, List.filterMap_append]
          simp [List.filterMap_cons]
      | any label =>
        constructor
        · rw [register, onAny, hnamed, List.filterMap_append]
          simp [List.filterMap_cons]
        · rw [register, onAny, List.filterMap_append]
          simp
  rw [handler?, hboth.1, hboth.2, listener]

end Handlers

/-! ## What is to be done -/

namespace Dialect

/-- The member of a response that says which request it answers. -/
def answerKey : Dialect → String
  | jsonRpc => "id"
  | sequenced => "request_seq"

/-- A message that refuses a request of the peer, given by its own number and its name. -/
structure Refuses (d : Dialect) (request : Json × String) (reply : Json) : Prop where
  worded : ∃ seq, reply = d.refuse seq request.1 request.2 ("unsupported request '" ++ request.2 ++ "'")
  answers : reply.get? d.answerKey = some request.1

lemma refuses_refuse (d : Dialect) (seq : Int) (id : Json) (method : String) :
    d.Refuses (id, method) (d.refuse seq id method ("unsupported request '" ++ method ++ "'")) := by
  refine ⟨⟨seq, rfl⟩, ?_⟩
  cases d <;> rfl

end Dialect

namespace Channel.Reader

/-- The call of a listener that a meaning comes to. -/
def delivery? (registrations : List Registration) : Inbound → Option Heard
  | .event name body => (listener registrations name).map fun label => ⟨label, ⟨name, body⟩⟩
  | _ => none

/-- The event that a meaning is. -/
def event? : Inbound → Option Event
  | .event name body => some ⟨name, body⟩
  | _ => none

/-- The request of the peer that a meaning is. -/
def request? : Inbound → Option (Json × String)
  | .request id method _ => some (id, method)
  | _ => none

/-- The meanings of messages, those without one left out. -/
def meanings (d : Dialect) (messages : List Json) : List Inbound :=
  messages.filterMap fun message => (d.decode message).toOption

/-- The calls of listeners that messages come to. -/
def deliveries (d : Dialect) (registrations : List Registration) (messages : List Json) : List Heard :=
  (meanings d messages).filterMap (delivery? registrations)

/-- The events among messages. -/
def events (d : Dialect) (messages : List Json) : List Event := (meanings d messages).filterMap event?

/-- The requests among messages of the peer. -/
def requests (d : Dialect) (messages : List Json) : List (Json × String) := (meanings d messages).filterMap request?

/-! ## The accesses of the reader -/

/-- Where the reader is between two accesses. -/
inductive Place where
  | reading
  /-- A request of the peer was taken in, and is to be refused. -/
  | refusing (id : Json) (method : String)
  /-- The refusal has its number and is to be written. -/
  | replying (id : Json) (method : String) (seq : Int)
  /-- The stream is over, and the channel is to be marked as closed. -/
  | closing
  /-- What is outstanding is to be given up. -/
  | draining
  | stopped
  /-- The reader broke down. -/
  | broken

namespace Place

/-- The request that is neither refused nor given up yet. -/
def inHand : Place → List (Json × String)
  | refusing id method | replying id method _ => [(id, method)]
  | _ => []

/-- Take one message in, up to the point where something else has to be done over it. -/
def takeIn (ch : Channel) (message : Json) : Place × Channel :=
  match ch.dialect.decode message with
  | .error _ => (reading, ch)
  | .ok inbound =>
    match ch.dispatch inbound with
    | (none, ch) => (reading, ch)
    | (some (id, method), ch) => (refusing id method, ch)

/-- The bytes that are left when a frame was read. -/
def leave (ch : Channel) (rest : List UInt8) : Channel := { ch with incoming := rest }

/-- The reader reads no more. -/
def atEnd (ch : Channel) : Channel := { ch with readerDone := true }

/-- The next access, if the reader can go on. -/
def next? (ch : Channel) : Place → Option (Place × Channel)
  | reading =>
    match Frame.next ch.room ch.inputEnded ch.incoming with
    | .frame message rest => some (takeIn (leave ch rest) message)
    | .starved => none
    | .overwhelmed => some (broken, ch)
    | .finished | .failed _ => some (closing, atEnd ch)
  | refusing id method => some (replying id method ch.takeId.1, ch.takeId.2)
  | replying id method seq =>
    some (reading, (ch.post (ch.dialect.refuse seq id method ("unsupported request '" ++ method ++ "'"))).2)
  | closing => some (draining, ch.markClosed)
  | draining => some (stopped, ch.drain)
  | stopped | broken => none

/-- The message that the next access takes off the incoming bytes. -/
def message? (ch : Channel) : Place → Option Json
  | reading =>
    match Frame.next ch.room ch.inputEnded ch.incoming with
    | .frame message _ => some message
    | _ => none
  | _ => none

/-- All accesses up to the next frame, without a pause. -/
def finish (ch : Channel) : Place → Channel
  | refusing id method => ch.refuse id method
  | replying id method seq =>
    (ch.post (ch.dialect.refuse seq id method ("unsupported request '" ++ method ++ "'"))).2
  | closing => ch.close
  | draining => ch.drain
  | _ => ch

/-- The accesses between two frames make up what is done without a pause. -/
lemma finish_next? {p p' : Place} {ch ch' : Channel} (hp : p ≠ reading) (h : p.next? ch = some (p', ch')) :
    p'.finish ch' = p.finish ch := by
  cases p with
  | reading => exact absurd rfl hp
  | stopped | broken => cases h
  | refusing id method | replying id method seq | closing | draining =>
    obtain ⟨rfl, rfl⟩ := Prod.mk.inj (Option.some.inj h)
    rfl

lemma finish_takeIn (ch : Channel) (message : Json) :
    (takeIn ch message).1.finish (takeIn ch message).2 = ch.receive message := by
  unfold receive takeIn
  cases ch.dialect.decode message with
  | error e => rfl
  | ok inbound => cases inbound <;> rfl

/-- Taking one frame in is the access that reads it, and those up to the next frame. -/
lemma readOne_eq (ch : Channel) : ch.readOne.2 = (reading.next? ch).elim ch fun r => r.1.finish r.2 := by
  unfold readOne next?
  cases Frame.next ch.room ch.inputEnded ch.incoming with
  | frame message rest => exact (finish_takeIn (leave ch rest) message).symm
  | _ => rfl

end Place

/-! ## Runs -/

/-- What everybody else may do to a channel: anything, but nobody takes bytes from the reader, opens a channel that is
closed or listens anew, and who waits for an answer waits under a new ticket. That the peer takes no more messages
is part of this. -/
structure Aside (ch ch' : Channel) : Prop where
  dialect : ch'.dialect = ch.dialect
  handlers : ch'.handlers = ch.handlers
  incoming : ch'.incoming = ch.incoming
  inputEnded : ch'.inputEnded = ch.inputEnded
  room : ch'.room = ch.room
  closed : ch.phase = .closed → ch'.phase = .closed
  broken : ch.outputBroken = true → ch'.outputBroken = true
  next : ch.pending.next ≤ ch'.pending.next
  waiting : ∀ w ∈ ch'.pending.waiting, w ∈ ch.pending.waiting ∨ ch.pending.next ≤ w.2 ∧ w.2 < ch'.pending.next

/-- A channel with its reader and the part of the stream that has not arrived yet. -/
structure State where
  ch : Channel
  unsent : List UInt8
  place : Place := .reading
  /-- The messages that the reader read. -/
  seen : List Json := []
  /-- What the reader added to the calls of listeners. -/
  called : List Heard := []
  /-- What the reader added to the messages that left. -/
  written : List Json := []
  /-- How many accesses the reader made. -/
  turns : Nat := 0
  /-- How many tickets had been given when the reader gave up what was outstanding. -/
  mark : Nat := 0

namespace State

/-- A fresh channel with its listeners, over which a stream will arrive. -/
def start (space : Frame.Room) (d : Dialect) (registrations : List Registration) (stream : List UInt8) : State where
  ch := { dialect := d, handlers := .of registrations, room := space }
  unsent := stream

/-- The message that the next access of the reader takes off the incoming bytes. -/
def message? (s : State) : Option Json := s.place.message? s.ch

/-- The state after an access of the reader, what it added being counted. -/
def turn (s : State) (place : Place) (ch : Channel) : State where
  ch := ch
  unsent := s.unsent
  place := place
  seen := s.seen ++ s.message?.toList
  called := s.called ++ ch.heard.drop s.ch.heard.length
  written := s.written ++ ch.outgoing.drop s.ch.outgoing.length
  turns := s.turns + 1
  mark := if s.place matches .draining then ch.pending.next else s.mark

end State

/-- One step of the reader or of anything around it. -/
inductive Step : State → State → Prop
  | read {s : State} {place : Place} {ch : Channel} : s.place.next? s.ch = some (place, ch) → Step s (s.turn place ch)
  /-- Some more of the stream arrives. -/
  | arrive (s : State) (k : Nat) :
    Step s { s with ch := { s.ch with incoming := s.ch.incoming ++ s.unsent.take k }, unsent := s.unsent.drop k }
  /-- All of the stream has arrived, and it ends. -/
  | hangUp {s : State} : s.unsent = [] → Step s { s with ch := { s.ch with inputEnded := true } }
  | aside {s : State} {ch : Channel} : Aside s.ch ch → Step s { s with ch := ch }

/-! ## The fold -/

/-- Turns of the reader that are left without another frame. -/
def Place.weight : Place → Nat
  | reading => 3
  | refusing _ _ => 5
  | replying _ _ _ => 4
  | closing => 2
  | draining => 1
  | stopped | broken => 0

/-- Does the reader still go on reading? -/
def Place.IsUnderWay : Place → Prop
  | reading | refusing _ _ | replying _ _ _ => True
  | _ => False

/-- What the reader did so far is a fold over the messages of the stream. -/
structure Folds (space : Frame.Room) (d : Dialect) (registrations : List Registration) (stream : List UInt8)
    (s : State) : Prop where
  /-- The messages were read in order. -/
  seen : s.seen <+: (Frame.readAll stream space).1
  /-- Each event among them was passed to its listener, once and in order, and nothing else was. -/
  called : s.called = deliveries d registrations s.seen
  /-- Each request among them but the one in hand was refused in order, as long as messages could be written. -/
  replied : ∃ refused lost, requests d s.seen = refused ++ lost ++ s.place.inHand ∧
    List.Forall₂ d.Refuses refused s.written ∧ (lost ≠ [] → s.ch.outputBroken = true)
  /-- The reader goes on for a while that the length of the stream bounds. -/
  turns : s.turns ≤ 3 * stream.length + 3
  /-- Behind the last message the channel is closed, unless the reader broke down, and everything outstanding is given
  up: who waits then came later. -/
  closed : s.place = .draining ∨ s.place = .stopped → s.ch.phase = .closed
  drained : s.place = .stopped → (∀ w ∈ s.ch.pending.waiting, s.mark ≤ w.2) ∧
    (s.ch.pending.next = s.mark → s.ch.pending.count = 0)

/-- What the reader has done when it can do no more. -/
structure Ends (space : Frame.Room) (d : Dialect) (registrations : List Registration) (stream : List UInt8)
    (s : State) : Prop where
  called : s.called = deliveries d registrations (Frame.readAll stream space).1
  replied : ∃ refused lost, requests d (Frame.readAll stream space).1 = refused ++ lost ∧
    List.Forall₂ d.Refuses refused s.written ∧ (lost ≠ [] → s.ch.outputBroken = true)
  stopped : s.place = .stopped ↔ (Frame.readAll stream space).2 ≠ .overwhelmed
  broken : s.place = .broken ↔ (Frame.readAll stream space).2 = .overwhelmed

/-- What holds of a run, said with what has not been read yet. -/
structure Invariant (space : Frame.Room) (d : Dialect) (registrations : List Registration) (stream : List UInt8)
    (s : State) : Prop where
  dialect : s.ch.dialect = d
  handlers : s.ch.handlers = .of registrations
  room : s.ch.room = space
  ended : s.ch.inputEnded = true → s.unsent = []
  rest : s.place.IsUnderWay → Frame.readAll stream space
    = (s.seen ++ (Frame.readAll (s.ch.incoming ++ s.unsent) space).1, (Frame.readAll (s.ch.incoming ++ s.unsent) space).2)
  finished : s.place = .closing ∨ s.place = .draining ∨ s.place = .stopped →
    s.seen = (Frame.readAll stream space).1 ∧ (Frame.readAll stream space).2 ≠ .overwhelmed
  broken : s.place = .broken → Frame.readAll stream space = (s.seen, .overwhelmed)
  called : s.called = deliveries d registrations s.seen
  replied : ∃ refused lost, requests d s.seen = refused ++ lost ++ s.place.inHand ∧
    List.Forall₂ d.Refuses refused s.written ∧ (lost ≠ [] → s.ch.outputBroken = true)
  turns : s.turns + 3 * (s.ch.incoming.length + s.unsent.length) + s.place.weight ≤ 3 * stream.length + 3
  closed : s.place = .draining ∨ s.place = .stopped → s.ch.phase = .closed
  waiting : ∀ w ∈ s.ch.pending.waiting, w.2 < s.ch.pending.next
  mark : s.mark ≤ s.ch.pending.next
  drained : s.place = .stopped → ∀ w ∈ s.ch.pending.waiting, s.mark ≤ w.2

section Facts

variable {d : Dialect} {registrations : List Registration}

/-- Who listens to everything is called for all events. -/
lemma deliveries_any (label : String) (messages : List Json) :
    deliveries d [.any label] messages = (events d messages).map fun event => ⟨label, event⟩ := by
  rw [deliveries, events, List.map_filterMap]
  congr 1
  funext inbound
  cases inbound <;> rfl

lemma meanings_append (messages more : List Json) :
    meanings d (messages ++ more) = meanings d messages ++ meanings d more := List.filterMap_append ..

lemma deliveries_append (messages more : List Json) :
    deliveries d registrations (messages ++ more)
      = deliveries d registrations messages ++ deliveries d registrations more := by
  rw [deliveries, meanings_append, List.filterMap_append]
  rfl

lemma requests_append (messages more : List Json) :
    requests d (messages ++ more) = requests d messages ++ requests d more := by
  rw [requests, meanings_append, List.filterMap_append]
  rfl

variable {message : Json}

lemma deliveries_error {e : Envelope.Fault} (h : d.decode message = .error e) :
    deliveries d registrations [message] = [] := by
  simp [deliveries, meanings, h, Except.toOption]

lemma requests_error {e : Envelope.Fault} (h : d.decode message = .error e) : requests d [message] = [] := by
  simp [requests, meanings, h, Except.toOption]

lemma deliveries_ok {inbound : Inbound} (h : d.decode message = .ok inbound) :
    deliveries d registrations [message] = (delivery? registrations inbound).toList := by
  cases hdelivery : delivery? registrations inbound <;> simp [deliveries, meanings, h, Except.toOption, hdelivery]

lemma requests_ok {inbound : Inbound} (h : d.decode message = .ok inbound) :
    requests d [message] = (request? inbound).toList := by
  cases hrequest : request? inbound <;> simp [requests, meanings, h, Except.toOption, hrequest]

end Facts

lemma post_of_broken {ch : Channel} (h : ch.outputBroken = true) (message : Json) : (ch.post message).2 = ch := by
  rw [Channel.post, Channel.write, if_pos h]
  rfl

lemma post_of_open {ch : Channel} (h : ch.outputBroken = false) (message : Json) :
    (ch.post message).2 = { ch with outgoing := ch.outgoing ++ [message] } := by
  rw [Channel.post, Channel.write, if_neg (by simp [h])]
  rfl

namespace Aside

variable {ch : Channel}

lemma refl (ch : Channel) : Aside ch ch := ⟨rfl, rfl, rfl, rfl, rfl, id, id, Nat.le_refl _, fun _ hw => .inl hw⟩

lemma takeId (ch : Channel) : Aside ch ch.takeId.2 := ⟨rfl, rfl, rfl, rfl, rfl, id, id, Nat.le_refl _, fun _ hw => .inl hw⟩

lemma post (ch : Channel) (message : Json) : Aside ch (ch.post message).2 := by
  cases hbroken : ch.outputBroken with
  | true =>
    rw [post_of_broken hbroken]
    exact refl ch
  | false =>
    rw [post_of_open hbroken]
    exact ⟨rfl, rfl, rfl, rfl, rfl, id, id, Nat.le_refl _, fun _ hw => .inl hw⟩

lemma markClosed (ch : Channel) : Aside ch ch.markClosed :=
  ⟨rfl, rfl, rfl, rfl, rfl, fun _ => rfl, id, Nat.le_refl _, fun _ hw => .inl hw⟩

lemma drain (ch : Channel) : Aside ch ch.drain where
  dialect := rfl
  handlers := rfl
  incoming := rfl
  inputEnded := rfl
  room := rfl
  closed h := h
  broken h := h
  next := Nat.le_refl _
  waiting w hw := by cases hw

lemma atEnd (ch : Channel) : Aside ch (Place.atEnd ch) :=
  ⟨rfl, rfl, rfl, rfl, rfl, id, id, Nat.le_refl _, fun _ hw => .inl hw⟩

lemma pending {p : Pending} (hnext : ch.pending.next ≤ p.next)
    (hwaiting : ∀ w ∈ p.waiting, w ∈ ch.pending.waiting ∨ ch.pending.next ≤ w.2 ∧ w.2 < p.next) :
    Aside ch { ch with pending := p } := ⟨rfl, rfl, rfl, rfl, rfl, id, id, hnext, hwaiting⟩

end Aside

/-- What taking a message in comes to. -/
structure Taken (registrations : List Registration) (ch : Channel) (message : Json) (place : Place)
    (ch' : Channel) : Prop where
  aside : Aside ch ch'
  heard : ch'.heard = ch.heard ++ deliveries ch.dialect registrations [message]
  outgoing : ch'.outgoing = ch.outgoing
  inHand : place.inHand = requests ch.dialect [message]
  goesOn : place.IsUnderWay
  weight : place.weight ≤ 5

section TakeIn

variable {registrations : List Registration} {ch : Channel} {message : Json}

lemma hear_eq (hhandlers : ch.handlers = .of registrations) (name : String) (body : Json) :
    ch.hear ⟨name, body⟩ = { ch with heard := ch.heard ++ (delivery? registrations (.event name body)).toList } := by
  have hlistener : ch.handlers.handler? name = listener registrations name := by rw [hhandlers, Handlers.handler?_of]
  rw [hear, hlistener, delivery?]
  cases listener registrations name with
  | none => simp
  | some label => rfl

lemma taken_takeIn (hhandlers : ch.handlers = .of registrations) (message : Json) :
    Taken registrations ch message (Place.takeIn ch message).1 (Place.takeIn ch message).2 := by
  cases hdecode : ch.dialect.decode message with
  | error e =>
    have htake : Place.takeIn ch message = (.reading, ch) := by rw [Place.takeIn, hdecode]
    rw [htake]
    exact {
      aside := .refl ch
      heard := by simp [deliveries_error hdecode]
      outgoing := rfl
      inHand := by rw [requests_error hdecode]; rfl
      goesOn := trivial
      weight := (by decide : 3 ≤ 5) }
  | ok inbound =>
    cases inbound with
    | response id outcome =>
      have htake : Place.takeIn ch message = (.reading, { ch with pending := ch.pending.answer id outcome }) := by
        rw [Place.takeIn, hdecode]
        rfl
      rw [htake]
      exact {
        aside := by
          refine .pending (by simp [Pending.answer]) fun w hw => ?_
          rw [Pending.answer, Pending.waiting_settle] at hw
          exact .inl (List.mem_of_mem_filter hw)
        heard := by simp [deliveries_ok hdecode, delivery?]
        outgoing := rfl
        inHand := by rw [requests_ok hdecode]; rfl
        goesOn := trivial
        weight := (by decide : 3 ≤ 5) }
    | event name body =>
      have htake : Place.takeIn ch message
          = (.reading, { ch with heard := ch.heard ++ (delivery? registrations (.event name body)).toList }) := by
        rw [Place.takeIn, hdecode, ← hear_eq hhandlers]
        rfl
      rw [htake]
      exact {
        aside := ⟨rfl, rfl, rfl, rfl, rfl, id, id, Nat.le_refl _, fun _ hw => .inl hw⟩
        heard := by rw [deliveries_ok hdecode]
        outgoing := rfl
        inHand := by rw [requests_ok hdecode]; rfl
        goesOn := trivial
        weight := (by decide : 3 ≤ 5) }
    | request id method params =>
      have htake : Place.takeIn ch message = (.refusing id method, ch) := by
        rw [Place.takeIn, hdecode]
        rfl
      rw [htake]
      exact {
        aside := .refl ch
        heard := by simp [deliveries_ok hdecode, delivery?]
        outgoing := rfl
        inHand := by rw [requests_ok hdecode]; rfl
        goesOn := trivial
        weight := Nat.le_refl 5 }

end TakeIn

/-! ## What keeps the fold -/

namespace Invariant

variable {space : Frame.Room} {d : Dialect} {registrations : List Registration} {stream : List UInt8} {s : State}

lemma start (space : Frame.Room) (d : Dialect) (registrations : List Registration) (stream : List UInt8) :
    Invariant space d registrations stream (.start space d registrations stream) where
  dialect := rfl
  handlers := rfl
  room := rfl
  ended h := by cases h
  rest _ := rfl
  finished h := by rcases h with h | h | h <;> cases h
  broken h := by cases h
  called := rfl
  replied := ⟨[], [], rfl, .nil, fun h => absurd rfl h⟩
  turns := by simp [State.start, Place.weight]
  closed h := by rcases h with h | h <;> cases h
  waiting w hw := by cases hw
  mark := Nat.le_refl 0
  drained h := by cases h

/-- What others do has no part in the fold. -/
lemma aside (h : Invariant space d registrations stream s) {ch : Channel} (ha : Aside s.ch ch) :
    Invariant space d registrations stream { s with ch := ch } where
  dialect := ha.dialect.trans h.dialect
  handlers := ha.handlers.trans h.handlers
  room := ha.room.trans h.room
  ended hended := h.ended (ha.inputEnded.symm.trans hended)
  rest hplace := by
    have hrest := h.rest hplace
    rwa [← ha.incoming] at hrest
  finished := h.finished
  broken := h.broken
  called := h.called
  replied := by
    obtain ⟨refused, lost, hsplit, hrefused, hlost⟩ := h.replied
    exact ⟨refused, lost, hsplit, hrefused, fun hne => ha.broken (hlost hne)⟩
  turns := by
    have hturns := h.turns
    rwa [← ha.incoming] at hturns
  closed hplace := ha.closed (h.closed hplace)
  waiting w hw := by
    rcases ha.waiting w hw with hold | hnew
    · exact Nat.lt_of_lt_of_le (h.waiting w hold) ha.next
    · exact hnew.2
  mark := Nat.le_trans h.mark ha.next
  drained hplace w hw := by
    rcases ha.waiting w hw with hold | hnew
    · exact h.drained hplace w hold
    · exact Nat.le_trans h.mark hnew.1

/-- Bytes that have arrived are still to be read. -/
lemma arrive (h : Invariant space d registrations stream s) (k : Nat) :
    Invariant space d registrations stream
      { s with ch := { s.ch with incoming := s.ch.incoming ++ s.unsent.take k }, unsent := s.unsent.drop k } where
  dialect := h.dialect
  handlers := h.handlers
  room := h.room
  ended hended := by rw [h.ended hended, List.drop_nil]
  rest hplace := by
    rw [List.append_assoc, List.take_append_drop]
    exact h.rest hplace
  finished := h.finished
  broken := h.broken
  called := h.called
  replied := h.replied
  turns := by
    rw [← List.length_append, List.append_assoc, List.take_append_drop, List.length_append]
    exact h.turns
  closed := h.closed
  waiting := h.waiting
  mark := h.mark
  drained := h.drained

lemma hangUp (h : Invariant space d registrations stream s) (hunsent : s.unsent = []) :
    Invariant space d registrations stream { s with ch := { s.ch with inputEnded := true } } :=
  { h with ended := fun _ => hunsent }

/-- What the reader finds among the bytes that have arrived is what stands in the whole stream. -/
lemma next_eq (h : Invariant space d registrations stream s)
    (hnext : Frame.next s.ch.room s.ch.inputEnded s.ch.incoming ≠ .starved) :
    Frame.next space true (s.ch.incoming ++ s.unsent) = (Frame.next s.ch.room s.ch.inputEnded s.ch.incoming).more s.unsent := by
  rw [h.room] at hnext ⊢
  cases hended : s.ch.inputEnded with
  | false =>
    rw [hended] at hnext
    exact Frame.next_more hnext _
  | true =>
    rw [h.ended hended, List.append_nil]
    cases Frame.next space true s.ch.incoming <;> simp [Frame.Reading.more]

/-- The reader takes a message in. -/
lemma read_frame (h : Invariant space d registrations stream s) (hplace : s.place = .reading) {message : Json}
    {rest : List UInt8}
    (hread : Frame.next s.ch.room s.ch.inputEnded s.ch.incoming = .frame message rest) {place : Place} {ch : Channel}
    (htaken : Taken registrations (Place.leave s.ch rest) message place ch) :
    Invariant space d registrations stream (s.turn place ch) := by
  have ha := htaken.aside
  have hincoming : ch.incoming = rest := ha.incoming
  have hheard : ch.heard = s.ch.heard ++ deliveries s.ch.dialect registrations [message] := htaken.heard
  have hout : ch.outgoing = s.ch.outgoing := htaken.outgoing
  have hhand : place.inHand = requests s.ch.dialect [message] := htaken.inHand
  have hmessage : s.message? = some message := by simp [State.message?, Place.message?, hplace, hread]
  have hseen : (s.turn place ch).seen = s.seen ++ [message] := by simp [State.turn, hmessage]
  have hmark : (s.turn place ch).mark = s.mark := by simp [State.turn, hplace]
  have hnext := h.next_eq (by simp [hread])
  rw [hread] at hnext
  -- the reader goes on, so it is at none of the places behind the last message
  have hgoesOn : ∀ p, p = place → p.IsUnderWay := by
    rintro p rfl
    exact htaken.goesOn
  exact {
    dialect := ha.dialect.trans h.dialect
    handlers := ha.handlers.trans h.handlers
    room := ha.room.trans h.room
    ended := fun hended => h.ended (ha.inputEnded.symm.trans hended)
    rest := by
      intro _
      have hrest := h.rest (by rw [hplace]; trivial)
      rw [Frame.readAll_of_frame hnext] at hrest
      rw [hseen, hrest, List.append_assoc]
      simp [State.turn, hincoming]
    finished := by
      rintro (hp | hp | hp)
      · exact (hgoesOn _ hp.symm).elim
      · exact (hgoesOn _ hp.symm).elim
      · exact (hgoesOn _ hp.symm).elim
    broken := fun hp => (hgoesOn _ hp.symm).elim
    called := by
      have hcalls : (s.turn place ch).called = s.called ++ deliveries s.ch.dialect registrations [message] := by
        simp [State.turn, hheard]
      rw [hcalls, hseen, deliveries_append, h.called, h.dialect]
    replied := by
      obtain ⟨refused, lost, hsplit, hrefused, hlost⟩ := h.replied
      have hwritten : (s.turn place ch).written = s.written := by simp [State.turn, hout]
      refine ⟨refused, lost, ?_, ?_, fun hne => ha.broken (hlost hne)⟩
      · rw [hplace] at hsplit
        rw [hseen, requests_append, hsplit, ← h.dialect, ← hhand]
        exact congrArg (· ++ place.inHand) (List.append_nil _)
      · rwa [hwritten]
    turns := by
      have hturns := h.turns
      have hshorter := Frame.next_length hread
      have hweight := htaken.weight
      rw [hplace, show Place.reading.weight = 3 from rfl] at hturns
      show s.turns + 1 + 3 * (ch.incoming.length + s.unsent.length) + place.weight ≤ 3 * stream.length + 3
      rw [hincoming]
      omega
    closed := by
      rintro (hp | hp)
      · exact (hgoesOn _ hp.symm).elim
      · exact (hgoesOn _ hp.symm).elim
    waiting := fun w hw => by
      rcases ha.waiting w hw with hold | hnew
      · exact Nat.lt_of_lt_of_le (h.waiting w hold) ha.next
      · exact hnew.2
    mark := by
      rw [hmark]
      exact Nat.le_trans h.mark ha.next
    drained := fun hp => (hgoesOn _ hp.symm).elim }

/-- An access by which nothing is read, called or written. -/
lemma turn_eq (hmessage : s.message? = none) (ch : Channel) (hheard : ch.heard = s.ch.heard)
    (hout : ch.outgoing = s.ch.outgoing) (hplace : s.place ≠ .draining) (place : Place) :
    s.turn place ch = { s with ch := ch, place := place, turns := s.turns + 1 } := by
  have hmark : (s.turn place ch).mark = s.mark := by
    cases hp : s.place <;> simp_all [State.turn]
  have hseen : (s.turn place ch).seen = s.seen := by simp [State.turn, hmessage]
  have hcalled : (s.turn place ch).called = s.called := by simp [State.turn, hheard]
  have hwritten : (s.turn place ch).written = s.written := by simp [State.turn, hout]
  rw [← hseen, ← hcalled, ← hwritten, ← hmark]
  rfl

/-- The reader breaks down over a header. -/
lemma read_overwhelmed (h : Invariant space d registrations stream s) (hplace : s.place = .reading)
    (hread : Frame.next s.ch.room s.ch.inputEnded s.ch.incoming = .overwhelmed) :
    Invariant space d registrations stream (s.turn .broken s.ch) := by
  have hnext := h.next_eq (by simp [hread])
  rw [hread] at hnext
  have hrest := h.rest (by rw [hplace]; trivial)
  rw [Frame.readAll_of_overwhelmed hnext, List.append_nil] at hrest
  rw [turn_eq (by simp [State.message?, Place.message?, hplace, hread]) s.ch rfl rfl (by simp [hplace])]
  exact { h with
    rest := fun hp => hp.elim
    finished := by rintro (hp | hp | hp) <;> cases hp
    broken := fun _ => hrest
    replied := by
      have hreplied := h.replied
      rwa [hplace] at hreplied
    turns := by
      have hturns := h.turns
      rw [hplace, show Place.reading.weight = 3 from rfl] at hturns
      show s.turns + 1 + 3 * (s.ch.incoming.length + s.unsent.length) + 0 ≤ 3 * stream.length + 3
      omega
    closed := by rintro (hp | hp) <;> cases hp
    drained := fun hp => by cases hp }

/-- The reader finds the end of the stream, or something that is no frame. -/
lemma read_over (h : Invariant space d registrations stream s) (hplace : s.place = .reading)
    (hread : Frame.next s.ch.room s.ch.inputEnded s.ch.incoming = .finished ∨
      ∃ fault, Frame.next s.ch.room s.ch.inputEnded s.ch.incoming = .failed fault) :
    Invariant space d registrations stream (s.turn .closing (Place.atEnd s.ch)) := by
  have hmessage : s.message? = none := by
    rcases hread with hread | ⟨fault, hread⟩ <;> simp [State.message?, Place.message?, hplace, hread]
  have hover : s.seen = (Frame.readAll stream space).1 ∧ (Frame.readAll stream space).2 ≠ .overwhelmed := by
    have hrest := h.rest (by rw [hplace]; trivial)
    rcases hread with hread | ⟨fault, hread⟩
    · have hnext := h.next_eq (by simp [hread])
      rw [hread] at hnext
      rw [hrest, Frame.readAll_of_finished hnext]
      simp
    · have hnext := h.next_eq (by simp [hread])
      rw [hread] at hnext
      rw [hrest, Frame.readAll_of_failed hnext]
      simp
  rw [turn_eq hmessage (Place.atEnd s.ch) rfl rfl (by simp [hplace])]
  exact { h.aside (.atEnd s.ch) with
    rest := fun hp => hp.elim
    finished := fun _ => hover
    broken := fun hp => by cases hp
    replied := by
      have hreplied := h.replied
      rwa [hplace] at hreplied
    turns := by
      have hturns := h.turns
      rw [hplace, show Place.reading.weight = 3 from rfl] at hturns
      show s.turns + 1 + 3 * (s.ch.incoming.length + s.unsent.length) + 2 ≤ 3 * stream.length + 3
      omega
    closed := by rintro (hp | hp) <;> cases hp
    drained := fun hp => by cases hp }

/-- The reader goes on with a request that is in hand. -/
lemma read_refusing (h : Invariant space d registrations stream s) {id : Json} {method : String}
    (hplace : s.place = .refusing id method) :
    Invariant space d registrations stream (s.turn (.replying id method s.ch.takeId.1) s.ch.takeId.2) := by
  rw [turn_eq (by simp [State.message?, Place.message?, hplace]) s.ch.takeId.2 rfl rfl (by simp [hplace])]
  exact { h.aside (.takeId s.ch) with
    rest := fun _ => h.rest (by rw [hplace]; trivial)
    finished := by rintro (hp | hp | hp) <;> cases hp
    broken := fun hp => by cases hp
    replied := by
      have hreplied := h.replied
      rwa [hplace] at hreplied
    turns := by
      have hturns := h.turns
      rw [hplace, show (Place.refusing id method).weight = 5 from rfl] at hturns
      show s.turns + 1 + 3 * (s.ch.incoming.length + s.unsent.length) + 4 ≤ 3 * stream.length + 3
      omega
    closed := by rintro (hp | hp) <;> cases hp
    drained := fun hp => by cases hp }

/-- The reader writes a refusal, or finds that it cannot. -/
lemma read_replying (h : Invariant space d registrations stream s) {id : Json} {method : String} {seq : Int}
    (hplace : s.place = .replying id method seq) :
    Invariant space d registrations stream (s.turn .reading
      (s.ch.post (s.ch.dialect.refuse seq id method ("unsupported request '" ++ method ++ "'"))).2) := by
  obtain ⟨refused, lost, hsplit, hrefused, hlost⟩ := h.replied
  rw [hplace] at hsplit
  have hmessage : s.message? = none := by simp [State.message?, Place.message?, hplace]
  have hturns : s.turns + 1 + 3 * (s.ch.incoming.length + s.unsent.length) + 3 ≤ 3 * stream.length + 3 := by
    have hturns := h.turns
    rw [hplace, show (Place.replying id method seq).weight = 4 from rfl] at hturns
    omega
  have hrest : Frame.readAll stream space = (s.seen ++ (Frame.readAll (s.ch.incoming ++ s.unsent) space).1,
      (Frame.readAll (s.ch.incoming ++ s.unsent) space).2) := h.rest (by rw [hplace]; trivial)
  cases hbroken : s.ch.outputBroken with
  | true =>
    -- the refusal is lost
    rw [post_of_broken hbroken, turn_eq hmessage s.ch rfl rfl (by simp [hplace])]
    exact { h with
      rest := fun _ => hrest
      finished := by rintro (hp | hp | hp) <;> cases hp
      broken := fun hp => by cases hp
      replied := ⟨refused, lost ++ [(id, method)], by simpa [Place.inHand] using hsplit, hrefused, fun _ => hbroken⟩
      turns := hturns
      closed := by rintro (hp | hp) <;> cases hp
      drained := fun hp => by cases hp }
  | false =>
    -- nothing was lost before, and the refusal is written
    have hnone : lost = [] := by
      by_contra hne
      exact absurd ((hlost hne).symm.trans hbroken) (by decide)
    subst hnone
    have ha := h.aside (.post s.ch (s.ch.dialect.refuse seq id method ("unsupported request '" ++ method ++ "'")))
    rw [post_of_open hbroken] at ha ⊢
    exact {
      dialect := ha.dialect
      handlers := ha.handlers
      room := ha.room
      ended := ha.ended
      rest := by
        intro _
        simpa [State.turn, hmessage] using hrest
      finished := by rintro (hp | hp | hp) <;> cases hp
      broken := fun hp => by cases hp
      called := by simpa [State.turn, hmessage] using h.called
      replied := by
        refine ⟨refused ++ [(id, method)], [], ?_, ?_, fun hne => absurd rfl hne⟩
        · simpa [State.turn, hmessage, Place.inHand] using hsplit
        · have hone : List.Forall₂ d.Refuses [(id, method)]
              [s.ch.dialect.refuse seq id method ("unsupported request '" ++ method ++ "'")] := by
            rw [h.dialect]
            exact .cons (d.refuses_refuse seq id method) .nil
          simpa [State.turn] using List.rel_append hrefused hone
      turns := hturns
      closed := by rintro (hp | hp) <;> cases hp
      waiting := ha.waiting
      mark := by simpa [State.turn, hplace] using h.mark
      drained := fun hp => by cases hp }

lemma read_closing (h : Invariant space d registrations stream s) (hplace : s.place = .closing) :
    Invariant space d registrations stream (s.turn .draining s.ch.markClosed) := by
  rw [turn_eq (by simp [State.message?, Place.message?, hplace]) s.ch.markClosed rfl rfl (by simp [hplace])]
  exact { h.aside (.markClosed s.ch) with
    rest := fun hp => hp.elim
    finished := fun _ => h.finished (.inl hplace)
    broken := fun hp => by cases hp
    replied := by
      have hreplied := h.replied
      rwa [hplace] at hreplied
    turns := by
      have hturns := h.turns
      rw [hplace, show Place.closing.weight = 2 from rfl] at hturns
      show s.turns + 1 + 3 * (s.ch.incoming.length + s.unsent.length) + 1 ≤ 3 * stream.length + 3
      omega
    closed := fun _ => rfl
    drained := fun hp => by cases hp }

lemma read_draining (h : Invariant space d registrations stream s) (hplace : s.place = .draining) :
    Invariant space d registrations stream (s.turn .stopped s.ch.drain) := by
  have ha := h.aside (.drain s.ch)
  have hmessage : s.message? = none := by simp [State.message?, Place.message?, hplace]
  have hseen : (s.turn .stopped s.ch.drain).seen = s.seen := by simp [State.turn, hmessage]
  have hcalled : (s.turn .stopped s.ch.drain).called = s.called := by simp [State.turn, Channel.drain]
  have hwritten : (s.turn .stopped s.ch.drain).written = s.written := by simp [State.turn, Channel.drain]
  have hmark : (s.turn .stopped s.ch.drain).mark = s.ch.pending.next := by
    simp [State.turn, hplace, Channel.drain, Pending.close]
  exact {
    dialect := ha.dialect
    handlers := ha.handlers
    room := ha.room
    ended := ha.ended
    rest := fun hp => hp.elim
    finished := by
      intro _
      rw [hseen]
      exact h.finished (.inr (.inl hplace))
    broken := fun hp => by cases hp
    called := by
      rw [hcalled, hseen]
      exact h.called
    replied := by
      have hreplied := h.replied
      rw [hplace] at hreplied
      rwa [hseen, hwritten]
    turns := by
      have hturns := h.turns
      rw [hplace, show Place.draining.weight = 1 from rfl] at hturns
      show s.turns + 1 + 3 * (s.ch.incoming.length + s.unsent.length) + 0 ≤ 3 * stream.length + 3
      omega
    closed := fun _ => h.closed (.inl hplace)
    waiting := ha.waiting
    mark := by
      rw [hmark]
      exact Nat.le_refl _
    drained := fun _ w hw => by cases hw }

/-- The reader makes an access. -/
lemma read (h : Invariant space d registrations stream s) {place : Place} {ch : Channel}
    (hnext : s.place.next? s.ch = some (place, ch)) : Invariant space d registrations stream (s.turn place ch) := by
  cases hplace : s.place with
  | reading =>
    rw [hplace, Place.next?] at hnext
    cases hread : Frame.next s.ch.room s.ch.inputEnded s.ch.incoming with
    | frame message rest =>
      rw [hread] at hnext
      have hhandlers : (Place.leave s.ch rest).handlers = .of registrations := h.handlers
      have htaken := taken_takeIn hhandlers message
      rw [Option.some.inj hnext] at htaken
      exact h.read_frame hplace hread htaken
    | starved =>
      rw [hread] at hnext
      cases hnext
    | overwhelmed =>
      rw [hread] at hnext
      obtain ⟨rfl, rfl⟩ := Prod.mk.inj (Option.some.inj hnext)
      exact h.read_overwhelmed hplace hread
    | finished =>
      rw [hread] at hnext
      obtain ⟨rfl, rfl⟩ := Prod.mk.inj (Option.some.inj hnext)
      exact h.read_over hplace (.inl hread)
    | failed fault =>
      rw [hread] at hnext
      obtain ⟨rfl, rfl⟩ := Prod.mk.inj (Option.some.inj hnext)
      exact h.read_over hplace (.inr ⟨fault, hread⟩)
  | refusing id method =>
    rw [hplace] at hnext
    obtain ⟨rfl, rfl⟩ := Prod.mk.inj (Option.some.inj hnext)
    exact h.read_refusing hplace
  | replying id method seq =>
    rw [hplace] at hnext
    obtain ⟨rfl, rfl⟩ := Prod.mk.inj (Option.some.inj hnext)
    exact h.read_replying hplace
  | closing =>
    rw [hplace] at hnext
    obtain ⟨rfl, rfl⟩ := Prod.mk.inj (Option.some.inj hnext)
    exact h.read_closing hplace
  | draining =>
    rw [hplace] at hnext
    obtain ⟨rfl, rfl⟩ := Prod.mk.inj (Option.some.inj hnext)
    exact h.read_draining hplace
  | stopped | broken =>
    rw [hplace] at hnext
    cases hnext

lemma step {s' : State} (h : Invariant space d registrations stream s) (hstep : Step s s') :
    Invariant space d registrations stream s' := by
  cases hstep with
  | read hnext => exact h.read hnext
  | arrive k => exact h.arrive k
  | hangUp hunsent => exact h.hangUp hunsent
  | aside ha => exact h.aside ha

lemma run {s' : State} (h : Invariant space d registrations stream s) (hrun : Relation.ReflTransGen Step s s') :
    Invariant space d registrations stream s' := by
  induction hrun with
  | refl => exact h
  | tail _ hstep ih => exact ih.step hstep

/-- Where the reader is, it has read as much as it should. -/
lemma seen (h : Invariant space d registrations stream s) : s.seen <+: (Frame.readAll stream space).1 := by
  cases hplace : s.place with
  | reading | refusing id method | replying id method seq =>
    rw [h.rest (by rw [hplace]; trivial)]
    exact List.prefix_append _ _
  | closing => rw [(h.finished (.inl hplace)).1]
  | draining => rw [(h.finished (.inr (.inl hplace))).1]
  | stopped => rw [(h.finished (.inr (.inr hplace))).1]
  | broken => rw [h.broken hplace]

lemma folds (h : Invariant space d registrations stream s) : Folds space d registrations stream s where
  seen := h.seen
  called := h.called
  replied := h.replied
  turns := by
    have hturns := h.turns
    omega
  closed := h.closed
  drained hplace := by
    refine ⟨h.drained hplace, fun hnext => ?_⟩
    rw [Pending.count, List.length_eq_zero_iff, List.eq_nil_iff_forall_not_mem]
    intro w hw
    have hlow := h.drained hplace w hw
    have hhigh := h.waiting w hw
    omega

/-- A reader that can do no more at the end of the stream has read all of it. -/
lemma ends (h : Invariant space d registrations stream s) (hstuck : s.place.next? s.ch = none)
    (hended : s.ch.inputEnded = true) :
    Ends space d registrations stream s := by
  have hplace : s.place = .stopped ∨ s.place = .broken := by
    cases hplace : s.place with
    | reading =>
      rw [hplace, Place.next?, hended] at hstuck
      cases hread : Frame.next s.ch.room true s.ch.incoming with
      | starved => exact absurd hread Frame.next_ne_starved
      | _ =>
        rw [hread] at hstuck
        cases hstuck
    | refusing | replying | closing | draining =>
      rw [hplace] at hstuck
      cases hstuck
    | stopped => exact .inl rfl
    | broken => exact .inr rfl
  obtain ⟨refused, lost, hsplit, hrefused, hlost⟩ := h.replied
  rcases hplace with hplace | hplace
  · obtain ⟨hseen, hending⟩ := h.finished (.inr (.inr hplace))
    have hnone : s.place.inHand = [] := by
      rw [hplace]
      rfl
    rw [hnone, List.append_nil, hseen] at hsplit
    exact {
      called := hseen ▸ h.called
      replied := ⟨refused, lost, hsplit, hrefused, hlost⟩
      stopped := ⟨fun _ => hending, fun _ => hplace⟩
      broken := ⟨fun hp => absurd (hplace.symm.trans hp) (by simp), fun hp => absurd hp hending⟩ }
  · have hall := h.broken hplace
    have hnone : s.place.inHand = [] := by
      rw [hplace]
      rfl
    rw [hnone, List.append_nil, show s.seen = (Frame.readAll stream space).1 by rw [hall]] at hsplit
    exact {
      called := by
        rw [hall]
        exact h.called
      replied := ⟨refused, lost, hsplit, hrefused, hlost⟩
      stopped := ⟨fun hp => absurd (hplace.symm.trans hp) (by simp), fun hp => absurd (by rw [hall]) hp⟩
      broken := ⟨fun _ => by rw [hall], fun _ => hplace⟩ }

end Invariant

/-! ## Every run -/

/-- However much room there is, in every run the reader folds over the messages before the end of the stream, or before
what is no frame: events go to their listeners and requests are refused, each once and in order, while a message
without a meaning takes nothing but its bytes. When it can do no more at the end, it has done so for all of them; then
the channel is closed and what was outstanding is given up, but for one thing: over a header that asks for more bytes
than there is room for, the reader breaks down, and does neither. -/
theorem reader_folds (space : Frame.Room) (d : Dialect) (registrations : List Registration) (stream : List UInt8) :
    (∀ s, Relation.ReflTransGen Step (.start space d registrations stream) s →
      Folds space d registrations stream s ∧
        (s.place.next? s.ch = none → s.ch.inputEnded = true → Ends space d registrations stream s)) ∧
      ∀ (ch : Channel) (message : Json) (rest : List UInt8) (e : Envelope.Fault),
        Frame.next ch.room ch.inputEnded ch.incoming = .frame message rest → ch.dialect.decode message = .error e →
          Place.reading.next? ch = some (.reading, Place.leave ch rest) := by
  constructor
  · intro s hrun
    have h := (Invariant.start space d registrations stream).run hrun
    exact ⟨h.folds, h.ends⟩
  · intro ch message rest e hread hdecode
    have htake : Place.takeIn (Place.leave ch rest) message = (.reading, Place.leave ch rest) := by
      unfold Place.takeIn
      rw [show (Place.leave ch rest).dialect.decode message = .error e from hdecode]
    rw [Place.next?, hread]
    exact congrArg some htake

/-- A channel with one request that waits, some bytes having arrived and the rest being on their way. -/
def waiting (incoming unsent : List UInt8) : State where
  ch := { dialect := .sequenced, handlers := .of [], pending := (Pending.register {} 1).2, incoming := incoming }
  unsent := unsent

/-- The peer has sent a header that asks for too much and hung up. -/
def misled : State :=
  { waiting Frame.boundless.bytes [] with ch := { (waiting Frame.boundless.bytes []).ch with inputEnded := true } }

/-- The reader took its turn over it. -/
def stranded : State := { misled with place := .broken, turns := 1 }

lemma run_stranded : Relation.ReflTransGen Step (.start .most .sequenced [] Frame.boundless.bytes) stranded := by
  have hasked : Step (.start .most .sequenced [] Frame.boundless.bytes) (waiting [] Frame.boundless.bytes) :=
    .aside (.pending (Nat.le_add_right _ _) fun w hw => .inr (by rw [List.mem_singleton.mp hw]; decide))
  have harrived : Step (waiting [] Frame.boundless.bytes) (waiting Frame.boundless.bytes []) := by
    have hall := Step.arrive (waiting [] Frame.boundless.bytes) Frame.boundless.bytes.length
    simpa [waiting] using hall
  have hended : Step (waiting Frame.boundless.bytes []) misled := .hangUp rfl
  have hread : Step misled stranded := by
    have hover : Frame.next misled.ch.room misled.ch.inputEnded misled.ch.incoming = .overwhelmed :=
      Frame.next_eq_overwhelmed.mpr (Frame.overwhelms_boundless _)
    have hnext : misled.place.next? misled.ch = some (.broken, misled.ch) := by
      rw [show misled.place = .reading from rfl, Place.next?, hover]
    have hmessage : misled.message? = none := by
      rw [State.message?, show misled.place = .reading from rfl, Place.message?, hover]
    have hturn : misled.turn .broken misled.ch = stranded :=
      Invariant.turn_eq hmessage misled.ch rfl rfl (by simp [misled, waiting]) .broken
    exact hturn ▸ .read hnext
  exact (((Relation.ReflTransGen.single hasked).tail harrived).tail hended).tail hread

/-- Nobody answers the request, and nothing says that the channel is gone. -/
theorem reader_folds_stranded :
    Relation.ReflTransGen Step (.start .most .sequenced [] Frame.boundless.bytes) stranded ∧
      (Frame.readAll Frame.boundless.bytes).2 = .overwhelmed ∧ stranded.place.next? stranded.ch = none ∧
      stranded.ch.phase = .notInitialized ∧ stranded.ch.pending.count = 1 := by
  have hends := (((reader_folds .most .sequenced [] Frame.boundless.bytes).1 stranded run_stranded).2 rfl rfl)
  exact ⟨run_stranded, hends.broken.mp rfl, rfl, rfl, rfl⟩

end Channel.Reader

end Switchboard
