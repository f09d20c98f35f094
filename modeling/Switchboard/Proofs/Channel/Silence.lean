import Switchboard.Proofs.Channel.Hush
import Switchboard.Proofs.Channel.Speech
import Switchboard.Proofs.Concurrency.Ensemble

/-!
# What still happens over a closed channel

* `Place.Heeds`, `Place.Refuses`: the accesses of the reader that call a listener or hand a message over;
* `Caller`, `Line`, `side`: callers that send over a channel or close it, next to its reader and to all else;
* `Mute`, `withinWhere_work`: what begins on a closed channel sends nothing, whatever it is;
* `Run.SilentFrom`: from a time on no listener is called, and nothing leaves but what had begun to be sent;
* `silent_iff`: from the close on this is so exactly if the reader comes across nothing to pass on or to refuse.

The reader never looks at the phase. If it closed the channel itself it reads no more. If somebody else did, it goes on
for as long as the peer does.
-/

namespace Switchboard.Channel

open Reader (Place)

/-! ## Accesses of the reader -/

namespace Reader.Place

variable {ch ch' : Channel} {p p' : Place} {h : Heard} {message : Json}

/-- The next access takes an event in and passes it on to this listener. -/
def Heeds (ch : Channel) (p : Place) (h : Heard) : Prop :=
  ∃ message, p.message? ch = some message ∧ ch.dialect.decode message = .ok (.event h.event.name h.event.body) ∧
    ch.handlers.handler? h.event.name = some h.handler

/-- The next access hands a refusal over. -/
def Refuses (ch : Channel) : Place → Prop
  | replying _ _ _ => ch.outputBroken = false
  | _ => False

/-- A frame that is there is read as its message. -/
lemma message?_of_frame {rest : List UInt8} (hread : Frame.next ch.room ch.inputEnded ch.incoming = .frame message rest) :
    reading.message? ch = some message := by
  simp only [message?, hread]

lemma next?_of_message (hmessage : p.message? ch = some message) :
    ∃ rest, p.next? ch = some (takeIn (leave ch rest) message) := by
  cases p with
  | reading =>
    simp only [message?, next?] at hmessage ⊢
    cases hread : Frame.next ch.room ch.inputEnded ch.incoming with
    | frame found rest =>
      rw [hread] at hmessage
      obtain rfl := Option.some.inj hmessage
      exact ⟨rest, rfl⟩
    | starved | overwhelmed | finished | failed fault =>
      rw [hread] at hmessage
      cases hmessage
  | refusing | replying | closing | draining | stopped | broken => cases hmessage

/-- Taking a message in passes its event on, if somebody listens to it, and nothing leaves. -/
lemma takeIn_cases (ch : Channel) (message : Json) :
    (takeIn ch message).2.phase = ch.phase ∧ (takeIn ch message).2.outgoing = ch.outgoing ∧
      ((∃ h : Heard, ch.dialect.decode message = .ok (.event h.event.name h.event.body) ∧
          ch.handlers.handler? h.event.name = some h.handler ∧ (takeIn ch message).2.heard = ch.heard ++ [h]) ∨
        (∀ h : Heard, ch.dialect.decode message = .ok (.event h.event.name h.event.body) →
          ch.handlers.handler? h.event.name ≠ some h.handler) ∧ (takeIn ch message).2.heard = ch.heard) := by
  unfold takeIn
  cases hdecode : ch.dialect.decode message with
  | error fault => exact ⟨rfl, rfl, .inr ⟨fun h heq => (by cases heq), rfl⟩⟩
  | ok inbound =>
    cases inbound with
    | response id outcome | request id method params =>
      exact ⟨rfl, rfl, .inr ⟨fun h heq => (by cases heq), rfl⟩⟩
    | event name body =>
      simp only [dispatch, hear]
      cases hhandler : ch.handlers.handler? name with
      | none =>
        refine ⟨rfl, rfl, .inr ⟨fun h heq => ?_, rfl⟩⟩
        obtain ⟨rfl, -⟩ := Inbound.event.inj (Except.ok.inj heq)
        rw [hhandler]
        exact Option.some_ne_none _ ∘ Eq.symm
      | some label => exact ⟨rfl, rfl, .inl ⟨⟨label, ⟨name, body⟩⟩, rfl, hhandler, rfl⟩⟩

/-- An access passes on the event that it takes in, if somebody listens to it, and no other. -/
lemma heard_cases (hnext : p.next? ch = some (p', ch')) :
    (∃ h, p.Heeds ch h ∧ ch'.heard = ch.heard ++ [h]) ∨ (∀ h, ¬ p.Heeds ch h) ∧ ch'.heard = ch.heard := by
  cases hmessage : p.message? ch with
  | none =>
    refine .inr ⟨?_, (hushed_next? hmessage hnext).heard⟩
    rintro h ⟨message, hsome, -⟩
    cases hmessage.symm.trans hsome
  | some message =>
    obtain ⟨rest, htaken⟩ := next?_of_message hmessage
    obtain ⟨rfl, rfl⟩ := Prod.ext_iff.mp (Option.some.inj (htaken.symm.trans hnext))
    rcases (takeIn_cases (leave ch rest) message).2.2 with ⟨h, hdecode, hhandler, hheard⟩ | ⟨hnone, hheard⟩
    · exact .inl ⟨h, ⟨message, hmessage, hdecode, hhandler⟩, hheard⟩
    · refine .inr ⟨?_, hheard⟩
      rintro h ⟨other, hother, hdecode, hhandler⟩
      obtain rfl := Option.some.inj (hmessage.symm.trans hother)
      exact hnone h hdecode hhandler

/-- An access hands over a refusal, or nothing. -/
lemma outgoing_cases (hnext : p.next? ch = some (p', ch')) :
    (p.Refuses ch ∧ ∃ message, ch'.outgoing = ch.outgoing ++ [message]) ∨
      ¬ p.Refuses ch ∧ ch'.outgoing = ch.outgoing := by
  cases p with
  | reading =>
    refine .inr ⟨id, ?_⟩
    cases hmessage : reading.message? ch with
    | some message =>
      obtain ⟨rest, htaken⟩ := next?_of_message hmessage
      obtain ⟨rfl, rfl⟩ := Prod.ext_iff.mp (Option.some.inj (htaken.symm.trans hnext))
      exact (takeIn_cases (leave ch rest) message).2.1
    | none =>
      simp only [message?, next?] at hmessage hnext
      cases hread : Frame.next ch.room ch.inputEnded ch.incoming with
      | frame found rest =>
        rw [hread] at hmessage
        cases hmessage
      | starved =>
        rw [hread] at hnext
        cases hnext
      | overwhelmed | finished | failed fault =>
        rw [hread] at hnext
        obtain ⟨rfl, rfl⟩ := Prod.mk.inj (Option.some.inj hnext)
        rfl
  | replying id method seq =>
    obtain ⟨rfl, rfl⟩ := Prod.mk.inj (Option.some.inj hnext)
    cases hbroken : ch.outputBroken with
    | false => exact .inl ⟨hbroken, _, congrArg Channel.outgoing (post_of_open hbroken _)⟩
    | true =>
      refine .inr ⟨fun hopen => ?_, congrArg Channel.outgoing (post_of_broken hbroken _)⟩
      cases hbroken.symm.trans hopen
  | refusing | closing | draining =>
    obtain ⟨rfl, rfl⟩ := Prod.mk.inj (Option.some.inj hnext)
    exact .inr ⟨id, rfl⟩
  | stopped | broken => cases hnext

/-- The reader never opens a channel. -/
lemma closed_next? (hnext : p.next? ch = some (p', ch')) (hclosed : ch.phase = .closed) : ch'.phase = .closed := by
  cases hmessage : p.message? ch with
  | none => exact (hushed_next? hmessage hnext).closed hclosed
  | some message =>
    obtain ⟨rest, htaken⟩ := next?_of_message hmessage
    obtain ⟨rfl, rfl⟩ := Prod.ext_iff.mp (Option.some.inj (htaken.symm.trans hnext))
    exact (takeIn_cases (leave ch rest) message).1.trans hclosed

lemma exists_next?_of_heeds (hheeds : p.Heeds ch h) : ∃ p' ch', p.next? ch = some (p', ch') := by
  obtain ⟨message, hmessage, -⟩ := hheeds
  obtain ⟨rest, hnext⟩ := next?_of_message hmessage
  exact ⟨_, _, hnext⟩

lemma exists_next?_of_refuses (hrefuses : p.Refuses ch) : ∃ p' ch', p.next? ch = some (p', ch') := by
  cases p with
  | replying id method seq => exact ⟨_, _, rfl⟩
  | reading | refusing | closing | draining | stopped | broken => exact hrefuses.elim

/-- The reader is behind the end of the stream, which it has told everybody. -/
def IsPast : Place → Prop
  | draining | stopped => True
  | _ => False

lemma IsPast.next? (hpast : p.IsPast) (hnext : p.next? ch = some (p', ch')) : p'.IsPast := by
  cases p with
  | draining =>
    obtain ⟨rfl, -⟩ := Prod.mk.inj (Option.some.inj hnext)
    trivial
  | stopped => cases hnext
  | reading | refusing | replying | closing | broken => exact hpast.elim

lemma IsPast.not_heeds (hpast : p.IsPast) (h : Heard) : ¬ p.Heeds ch h := by
  rintro ⟨message, hmessage, -⟩
  cases p with
  | draining | stopped => cases hmessage
  | reading | refusing | replying | closing | broken => exact hpast.elim

lemma IsPast.not_refuses (hpast : p.IsPast) : ¬ p.Refuses ch := by
  cases p with
  | draining | stopped => exact id
  | reading | refusing | replying | closing | broken => exact hpast.elim

end Reader.Place

namespace Silence

variable {c : ChannelId}

/-! ## Callers next to the reader -/

/-- Somebody who sends over a channel, or closes it. -/
inductive Caller where
  | requests (method : String) (params : Json) (latest : Option Nat)
  | notifies (method : String) (params : Json)
  | shutsDown

/-- What a caller does; what comes of it is left out. -/
def Caller.work (c : ChannelId) : Caller → Task Wait Network Unit
  | requests method params latest => (Network.requestUntil c method params latest).outcome.andThen fun _ => .done ()
  | notifies method params => (Network.notify c method params).outcome.andThen fun _ => .done ()
  | shutsDown => Network.shutdown c

/-- A network, and where the reader of a channel is. -/
structure Line where
  net : Network
  place : Place := .reading

/-- What others do between two accesses: anything, but they open no channel that is closed, send nothing and pass on no
event. Bytes arrive, listeners come, the phase is set, the peer takes messages and somebody takes up events. -/
structure Idle (c : ChannelId) (n n' : Network) : Prop where
  closed : (n.channel c).phase = .closed → (n'.channel c).phase = .closed
  outgoing : ∃ k, (n'.channel c).outgoing = (n.channel c).outgoing.drop k
  heard : ∃ k, (n'.channel c).heard = (n.channel c).heard.drop k

/-- A change of one channel, this or another one. -/
lemma Idle.update {n : Network} {d : ChannelId} {f : Channel → Channel}
    (hclosed : ∀ ch : Channel, ch.phase = .closed → (f ch).phase = .closed)
    (hout : ∀ ch : Channel, ∃ k, (f ch).outgoing = ch.outgoing.drop k)
    (hheard : ∀ ch : Channel, ∃ k, (f ch).heard = ch.heard.drop k) : Idle c n (n.update d f) := by
  rcases Network.channel_update_cases n d f c with h | ⟨-, h⟩
  · exact ⟨fun hc => h ▸ hc, ⟨0, congrArg Channel.outgoing h⟩, ⟨0, congrArg Channel.heard h⟩⟩
  · exact ⟨fun hc => h ▸ hclosed _ hc, h ▸ hout _, h ▸ hheard _⟩

/-- What happens about a channel besides its callers. -/
inductive Around (c : ChannelId) where
  /-- The reader makes an access, if it can. -/
  | reads
  | aside (change : Network → Network) (idle : ∀ n, Idle c n (change n))

/-- The reader makes its next access, if it can make one. -/
def Line.read (c : ChannelId) (l : Line) : Line :=
  match l.place.next? (l.net.channel c) with
  | some (place, ch) => { net := l.net.update c fun _ => ch, place }
  | none => l

/-- Callers of a channel, next to its reader and all else. -/
def side (c : ChannelId) : Ensemble Line Caller (Task Wait Network Unit) (Around c) where
  start := Caller.work c
  step _ t l := (t.tick? Wait.holds l.net).map fun (t, net) => (t, { l with net })
  around
    | .reads, l => l.read c
    | .aside change _, l => { l with net := change l.net }

/-! ## What callers do -/

def IsClosed (c : ChannelId) (n : Network) : Prop := (n.channel c).phase = .closed

/-- Nothing leaves over the channel. -/
def Mute (c : ChannelId) (n n' : Network) : Prop := (n'.channel c).outgoing = (n.channel c).outgoing

/-- What looks first whether the channel is open goes no further when it is closed. -/
lemma withinWhere_checkOpen_bind {α : Type} (k : Unit → Network.Call α) :
    Attempt.WithinWhere (IsClosed c) (Mute c) (Network.checkOpen c >>= k) := by
  rw [Network.checkOpen, bind_assoc]
  refine .view_bind (fun _ => rfl) ?_
  intro n hclosed
  have hshut : (n.channel c).isOpen = false := by simp [isOpen, show (n.channel c).phase = .closed from hclosed]
  rw [hshut]
  exact trivial

/-- A call that finds the channel closed all along sends nothing. -/
lemma withinWhere_work (call : Caller) : (call.work c).WithinWhere (IsClosed c) (Mute c) := by
  cases call with
  | requests method params latest => exact .andThen (withinWhere_checkOpen_bind _) fun _ => trivial
  | notifies method params => exact .andThen (withinWhere_checkOpen_bind _) fun _ => trivial
  | shutsDown =>
    refine .of_within (Network.within_shutdown (fun _ => rfl) ?_ fun n => ?_)
    · intro f hf n
      exact Network.outgoing_update (fun ch => (hf ch).2) c
    · exact Network.outgoing_update (f := (·.markClosed)) (fun _ => rfl) c

/-- No call passes an event on, and none opens the channel. -/
lemma within_hushed_work (call : Caller) : (call.work c).Within Network.Hushed := by
  cases call with
  | requests method params latest => exact .andThen (Network.within_hushed_requestUntil _ _ _) fun _ => trivial
  | notifies method params => exact .andThen (Network.within_hushed_notify _ _) fun _ => trivial
  | shutsDown => exact Network.within_hushed_shutdown

/-! ## Runs -/

/-- A run of callers next to the reader of a channel and all else. -/
structure Run (c : ChannelId) where
  start : Line
  schedule : Nat → Ensemble.Turn Caller (Around c)

namespace Run

variable (r : Run c) {k m n : Nat}

/-- The network, the reader and the callers after `n` turns. -/
def moment (n : Nat) : Ensemble.Moment Line Caller (Task Wait Network Unit) := (side c).play r.start r.schedule n

def place (n : Nat) : Place := (r.moment n).state.place

/-- The channel after `n` turns. -/
def channel (n : Nat) : Channel := (r.moment n).state.net.channel c

def Closed (n : Nat) : Prop := (r.channel n).phase = .closed

/-- In the turn at `n` a listener is called. -/
def Calls (n : Nat) (h : Heard) : Prop := (r.channel (n + 1)).heard = (r.channel n).heard ++ [h]

/-- In the turn at `n` a message leaves. -/
def Writes (n : Nat) (message : Json) : Prop := (r.channel (n + 1)).outgoing = (r.channel n).outgoing ++ [message]

/-- The turn at `n` belongs to a call that was there at `m`, or to a reader that was over a request of the peer at `m`
and has not read on since. -/
inductive HadBegun (m n : Nat) : Prop
  | call (i : Nat) (mine : r.schedule n = .step i) (there : i < (r.moment m).calls.length)
  | refusal (mine : r.schedule n = .around .reads) (since : ∀ k, m ≤ k → k ≤ n → r.place k ≠ .reading)

/-- From `m` on no listener is called, and nothing leaves whose sending had not begun by then. -/
structure SilentFrom (m : Nat) : Prop where
  uncalled : ∀ n, m ≤ n → ∀ h, ¬ r.Calls n h
  unsent : ∀ n, m ≤ n → ∀ message, r.Writes n message → r.HadBegun m n

/-- In the turn at `n` the reader takes in an event that somebody listens to. -/
def Heeds (n : Nat) : Prop := r.schedule n = .around .reads ∧ ∃ h, (r.place n).Heeds (r.channel n) h

/-- In the turn at `n` the reader hands over the refusal of a request that it took in since `m`. -/
def Refuses (m n : Nat) : Prop :=
  r.schedule n = .around .reads ∧ (r.place n).Refuses (r.channel n) ∧ ∃ k, m ≤ k ∧ k ≤ n ∧ r.place k = .reading

/-! ## One turn -/

lemma moment_succ (n : Nat) : r.moment (n + 1) = (side c).after (r.moment n) (r.schedule n) := rfl

lemma within_hushed_of_call {i : Nat} {call : Caller} {t : Task Wait Network Unit}
    (here : (r.moment n).calls[i]? = some (call, t)) : t.Within Network.Hushed := by
  refine (side c).of_place (Q := fun _ t => t.Within Network.Hushed) within_hushed_work ?_ here
  intro call t l t' l' ht hstep
  obtain ⟨⟨t'', net⟩, htick, heq⟩ := Option.map_eq_some_iff.mp hstep
  obtain ⟨rfl, -⟩ := Prod.mk.inj heq
  exact (ht.tick htick).2

/-- What the turn at `n` comes to on a channel that is there. -/
inductive TurnsTo (n : Nat) : Prop
  | still (turn : r.schedule n ≠ .around .reads) (channel : r.channel (n + 1) = r.channel n)
    (place : r.place (n + 1) = r.place n)
  | moves (i : Nat) (call : Caller) (t t' : Task Wait Network Unit) (turn : r.schedule n = .step i)
    (here : (r.moment n).calls[i]? = some (call, t))
    (tick : t.tick? Wait.holds (r.moment n).state.net = some (t', (r.moment (n + 1)).state.net))
    (place : r.place (n + 1) = r.place n)
  | reads (turn : r.schedule n = .around .reads)
    (next : (r.place n).next? (r.channel n) = some (r.place (n + 1), r.channel (n + 1)))
  | starves (turn : r.schedule n = .around .reads) (next : (r.place n).next? (r.channel n) = none)
    (channel : r.channel (n + 1) = r.channel n) (place : r.place (n + 1) = r.place n)
  | aside (turn : r.schedule n ≠ .around .reads) (idle : Idle c (r.moment n).state.net (r.moment (n + 1)).state.net)
    (place : r.place (n + 1) = r.place n)

variable {r}

lemma turnsTo (hpresent : c < (r.moment n).state.net.channels.length) : r.TurnsTo n := by
  have hsucc := r.moment_succ n
  cases hturn : r.schedule n with
  | begins call =>
    rw [hturn] at hsucc
    have hother : r.schedule n ≠ .around .reads := fun hreads => by cases hturn.symm.trans hreads
    exact .still hother (by rw [channel, hsucc]; rfl) (by rw [place, hsucc]; rfl)
  | step i =>
    rw [hturn, Ensemble.after] at hsucc
    have hother : r.schedule n ≠ .around .reads := fun hreads => by cases hturn.symm.trans hreads
    cases here : (r.moment n).calls[i]? with
    | none =>
      rw [here] at hsucc
      exact .still hother (by rw [channel, hsucc]; rfl) (by rw [place, hsucc]; rfl)
    | some x =>
      obtain ⟨call, t⟩ := x
      rw [here] at hsucc
      cases htick : t.tick? Wait.holds (r.moment n).state.net with
      | none =>
        simp only [side, htick, Option.map_none] at hsucc
        exact .still hother (by rw [channel, hsucc]; rfl) (by rw [place, hsucc]; rfl)
      | some x =>
        obtain ⟨t', net⟩ := x
        simp only [side, htick, Option.map_some] at hsucc
        exact .moves i call t t' hturn here (by rw [htick, hsucc]) (by rw [place, hsucc]; rfl)
  | around e =>
    rw [hturn, Ensemble.after] at hsucc
    cases e with
    | reads =>
      have hread : (r.moment (n + 1)).state = (r.moment n).state.read c := by rw [hsucc]; rfl
      cases hnext : (r.moment n).state.place.next? ((r.moment n).state.net.channel c) with
      | none =>
        have hsame : (r.moment n).state.read c = (r.moment n).state := by
          rw [Line.read, hnext]
        rw [hsame] at hread
        exact .starves hturn hnext (by rw [channel, hread]; rfl) (by rw [place, hread]; rfl)
      | some x =>
        obtain ⟨p', ch'⟩ := x
        have hmoved : (r.moment n).state.read c
            = { net := (r.moment n).state.net.update c fun _ => ch', place := p' } := by
          rw [Line.read, hnext]
        rw [hmoved] at hread
        refine .reads hturn (hnext.trans ?_)
        rw [place, channel, hread, Network.channel_update hpresent]
    | aside change idle =>
      have hother : r.schedule n ≠ .around .reads := fun hreads => by cases hturn.symm.trans hreads
      exact .aside hother (by rw [hsucc]; exact idle _) (by rw [place, hsucc]; rfl)

lemma present_of_closed (hclosed : r.Closed n) : c < (r.moment n).state.net.channels.length :=
  Network.present_of_phase (by rw [show ((r.moment n).state.net.channel c).phase = .closed from hclosed]; decide)

lemma closed_succ (hclosed : r.Closed n) : r.Closed (n + 1) := by
  cases turnsTo (present_of_closed hclosed) with
  | still turn channel place | starves turn next channel place => rwa [Closed, channel]
  | moves i call t t' turn here tick place =>
    rcases ((r.within_hushed_of_call here).tick tick).1 with hhushed | hsame
    · exact (hhushed c).closed hclosed
    · rwa [Closed, channel, hsame]
  | reads turn next => exact Reader.Place.closed_next? next hclosed
  | aside turn idle place => exact idle.closed hclosed

lemma closed_of_le (hclosed : r.Closed m) (hmn : m ≤ n) : r.Closed n := by
  induction n, hmn using Nat.le_induction with
  | base => exact hclosed
  | succ n hmn ih => exact closed_succ ih

/-! ## From the close on -/

/-- A call that began on the closed channel goes on sending nothing. -/
lemma withinWhere_of_later {i : Nat} {call : Caller} {t : Task Wait Network Unit} (hclosed : r.Closed m) (hmn : m ≤ n)
    (hlater : (r.moment m).calls[i]? = none) (here : (r.moment n).calls[i]? = some (call, t)) :
    t.WithinWhere (IsClosed c) (Mute c) := by
  induction n, hmn using Nat.le_induction generalizing t with
  | base => cases hlater.symm.trans here
  | succ n hmn ih =>
    rcases (side c).place_succ_cases here with hstay | ⟨rfl, -⟩ | ⟨before, -, there, hstep⟩
    · exact ih hstay
    · exact withinWhere_work call
    · obtain ⟨⟨t', net⟩, htick, heq⟩ := Option.map_eq_some_iff.mp hstep
      obtain ⟨rfl, -⟩ := Prod.mk.inj heq
      exact ((ih there).tick (closed_of_le hclosed hmn) htick).2

/-- A listener is called in the turn of a reader that heeds an event, and in no other. -/
lemma calls_iff (hclosed : r.Closed n) : (∃ h, r.Calls n h) ↔ r.Heeds n := by
  have hsame : (r.channel (n + 1)).heard = (r.channel n).heard → ¬ ∃ h, r.Calls n h := by
    rintro heq ⟨h, hcalls⟩
    exact absurd (congrArg List.length (heq.symm.trans hcalls)) (by simp)
  cases turnsTo (present_of_closed hclosed) with
  | still turn channel place =>
    exact iff_of_false (hsame (by rw [channel])) fun hheeds => turn hheeds.1
  | starves turn next channel place =>
    refine iff_of_false (hsame (by rw [channel])) ?_
    rintro ⟨-, h, hheeds⟩
    obtain ⟨p', ch', hnext⟩ := Reader.Place.exists_next?_of_heeds hheeds
    cases next.symm.trans hnext
  | moves i call t t' turn here tick place =>
    refine iff_of_false (hsame ?_) fun hheeds => ?_
    · rcases ((r.within_hushed_of_call here).tick tick).1 with hhushed | heq
      · exact (hhushed c).heard
      · rw [channel, heq]
        rfl
    · cases turn.symm.trans hheeds.1
  | reads turn next =>
    rcases Reader.Place.heard_cases next with ⟨h, hheeds, hheard⟩ | ⟨hnone, hheard⟩
    · exact iff_of_true ⟨h, hheard⟩ ⟨turn, h, hheeds⟩
    · exact iff_of_false (hsame hheard) fun ⟨_, h, hheeds⟩ => hnone h hheeds
  | aside turn idle place =>
    refine iff_of_false ?_ fun hheeds => turn hheeds.1
    rintro ⟨h, hcalls⟩
    obtain ⟨k, htaken⟩ := idle.heard
    have hlength := congrArg List.length (htaken.symm.trans hcalls)
    simp only [List.length_drop, List.length_append, List.length_singleton, channel] at hlength
    omega

/-- A message whose sending had not begun by the close leaves in the turn of a reader that refuses a request which it
took in since, and in no other. -/
lemma writes_later_iff (hclosed : r.Closed m) (hmn : m ≤ n) :
    (∃ message, r.Writes n message ∧ ¬ r.HadBegun m n) ↔ r.Refuses m n := by
  have hnow := closed_of_le hclosed hmn
  have hsame : (r.channel (n + 1)).outgoing = (r.channel n).outgoing →
      ¬ ∃ message, r.Writes n message ∧ ¬ r.HadBegun m n := by
    rintro heq ⟨message, hwrites, -⟩
    exact absurd (congrArg List.length (heq.symm.trans hwrites)) (by simp)
  cases turnsTo (present_of_closed hnow) with
  | still turn channel place =>
    exact iff_of_false (hsame (by rw [channel])) fun hrefuses => turn hrefuses.1
  | starves turn next channel place =>
    refine iff_of_false (hsame (by rw [channel])) ?_
    rintro ⟨-, hrefuses, -⟩
    obtain ⟨p', ch', hnext⟩ := Reader.Place.exists_next?_of_refuses hrefuses
    cases next.symm.trans hnext
  | moves i call t t' turn here tick place =>
    refine iff_of_false ?_ fun hrefuses => ?_
    · by_cases hthere : i < (r.moment m).calls.length
      · rintro ⟨message, -, hnot⟩
        exact hnot (.call i turn hthere)
      · have hlater := List.getElem?_eq_none (Nat.le_of_not_lt hthere)
        rcases ((withinWhere_of_later hclosed hmn hlater here).tick hnow tick).1 with hmute | heq
        · exact hsame hmute
        · exact hsame (by rw [channel, heq]; rfl)
    · cases turn.symm.trans hrefuses.1
  | reads turn next =>
    rcases Reader.Place.outgoing_cases next with ⟨hrefuses, message, hout⟩ | ⟨hnot, hout⟩
    · by_cases hsince : ∃ k, m ≤ k ∧ k ≤ n ∧ r.place k = .reading
      · refine iff_of_true ⟨message, hout, ?_⟩ ⟨turn, hrefuses, hsince⟩
        rintro (⟨i, mine, -⟩ | ⟨-, hnever⟩)
        · cases turn.symm.trans mine
        · obtain ⟨k, hmk, hkn, hreading⟩ := hsince
          exact hnever k hmk hkn hreading
      · refine iff_of_false ?_ fun hrefuses => hsince hrefuses.2.2
        rintro ⟨other, -, hnot⟩
        exact hnot (.refusal turn fun k hmk hkn hreading => hsince ⟨k, hmk, hkn, hreading⟩)
    · exact iff_of_false (hsame hout) fun hrefuses => hnot hrefuses.2.1
  | aside turn idle place =>
    refine iff_of_false ?_ fun hrefuses => turn hrefuses.1
    rintro ⟨message, hwrites, -⟩
    obtain ⟨k, htaken⟩ := idle.outgoing
    have hlength := congrArg List.length (htaken.symm.trans hwrites)
    simp only [List.length_drop, List.length_append, List.length_singleton, channel] at hlength
    omega

/-- A reader that is behind the end of the stream stays there. -/
lemma isPast_of_le (hclosed : r.Closed m) (hmn : m ≤ n) (hpast : (r.place m).IsPast) : (r.place n).IsPast := by
  induction n, hmn using Nat.le_induction with
  | base => exact hpast
  | succ n hmn ih =>
    cases turnsTo (present_of_closed (closed_of_le hclosed hmn)) with
    | still turn channel place | starves turn next channel place | moves i call t t' turn here tick place
    | aside turn idle place => rwa [place]
    | reads turn next => exact ih.next? next

/-- Once a channel is closed it is silent exactly if its reader comes across no event that somebody listens to and no
request of the peer that it can refuse: no call that begins then sends anything, whoever closed the channel and whatever
is under way. A reader that closed the channel itself, at the end of the stream, comes across nothing any more. -/
theorem silent_iff (r : Run c) {m : Nat} (hclosed : r.Closed m) :
    (r.SilentFrom m ↔ ∀ n, m ≤ n → ¬ r.Heeds n ∧ ¬ r.Refuses m n) ∧ ((r.place m).IsPast → r.SilentFrom m) := by
  have hiff : r.SilentFrom m ↔ ∀ n, m ≤ n → ¬ r.Heeds n ∧ ¬ r.Refuses m n := by
    constructor
    · intro hsilent n hmn
      refine ⟨fun hheeds => ?_, fun hrefuses => ?_⟩
      · obtain ⟨h, hcalls⟩ := (calls_iff (closed_of_le hclosed hmn)).mpr hheeds
        exact hsilent.uncalled n hmn h hcalls
      · obtain ⟨message, hwrites, hnot⟩ := (writes_later_iff hclosed hmn).mpr hrefuses
        exact hnot (hsilent.unsent n hmn message hwrites)
    · intro hreader
      refine ⟨fun n hmn h hcalls => ?_, fun n hmn message hwrites => ?_⟩
      · exact (hreader n hmn).1 ((calls_iff (closed_of_le hclosed hmn)).mp ⟨h, hcalls⟩)
      · by_contra hnot
        exact (hreader n hmn).2 ((writes_later_iff hclosed hmn).mp ⟨message, hwrites, hnot⟩)
  refine ⟨hiff, fun hpast => hiff.mpr fun n hmn => ?_⟩
  have hpastn := isPast_of_le hclosed hmn hpast
  exact ⟨fun ⟨_, h, hheeds⟩ => hpastn.not_heeds h hheeds, fun hrefuses => hpastn.not_refuses hrefuses.2.1⟩

/-! ## A peer that speaks on -/

def lateMessage : Json := Dialect.sequenced.notification 1 "output" .null

/-- The message as it arrives. -/
def lateFrame : List UInt8 := Frame.encodeBody (Utf8.encode lateMessage.text)

lemma next_lateFrame : Frame.next .most false lateFrame = .frame lateMessage [] := by
  have hkept : Json.Kept 1 lateMessage := by
    refine .obj _ fun m hm => ?_
    simp only [List.mem_cons, List.not_mem_nil, or_false] at hm
    rcases hm with rfl | rfl | rfl | rfl
    · exact .null
    · exact .str _
    · exact .int 1 (by decide) (by decide)
    · exact .str _
  have hreads : Json.readBytes? ⟨(Utf8.encode lateMessage.text).toArray⟩ = some lateMessage := by
    rw [Frame.readBytes?_encode, Json.read?, Json.readRaw?_text hkept (by decide)]
    rfl
  have hfits : (Utf8.encode lateMessage.text).length ≤ Frame.Room.most.bytes := by
    rw [Utf8.encode_eq]
    decide
  have hnext := Frame.next_encodeBody hreads hfits false [] []
  rwa [List.flatMap_nil, List.nil_append, List.append_nil] at hnext

/-- Its bytes arrive. -/
def arrival (n : Network) : Network := n.update 0 fun ch => { ch with incoming := ch.incoming ++ lateFrame }

lemma idle_arrival (n : Network) : Idle 0 n (arrival n) :=
  .update (fun _ => id) (fun _ => ⟨0, rfl⟩) fun _ => ⟨0, rfl⟩

/-- Somebody listens and shuts the channel down; then the peer sends an event. -/
def outlived : Run 0 where
  start := { net := { channels := [{ dialect := .sequenced, handlers := .of [.any "all"] }] } }
  schedule
    | 0 => .begins .shutsDown
    | 4 => .around (.aside arrival idle_arrival)
    | 5 => .around .reads
    | _ => .step 0

/-- The listener is called although the channel was shut down before the event came. -/
theorem silent_iff_outlived : outlived.Closed 3 ∧ outlived.Heeds 5 ∧ ¬ outlived.SilentFrom 3 := by
  have hclosed : outlived.Closed 3 := rfl
  have hheeds : outlived.Heeds 5 := by
    exact ⟨rfl, ⟨"all", ⟨"output", .null⟩⟩, lateMessage, Reader.Place.message?_of_frame next_lateFrame, rfl, rfl⟩
  exact ⟨hclosed, hheeds, fun hsilent => ((silent_iff outlived hclosed).1.mp hsilent 5 (by decide)).1 hheeds⟩

end Run

end Silence

end Switchboard.Channel
