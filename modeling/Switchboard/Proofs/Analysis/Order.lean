import Switchboard.Proofs.Analysis.Greeting
import Switchboard.Proofs.Channel.SingleFlight

/-!
# The order of the handshake with an analysis server

* `talks`: any number of calls on one session, and all that the server and everything else can do meanwhile;
* `Spot.Goes`: what a step of a call can be; `attends_talks`: calls take turns at the door of the channel;
* `Talk.Hears`, `Talk.Greets`, `Talk.Speaks`: what the server receives in a turn, and whether it is the handshake's or a
  call sends it on its own account;
* `handshake_comes_first`: what calls send on their own account comes after an answered `initialize` and the only
  `initialized`, the handshake asks for nothing after that, and after a handshake that failed the next caller shakes hands;
* `initialize_passed_on`: calls that are asked to pass on an `initialize` of their own do so, behind the handshake.
-/

namespace Switchboard.Analysis.Session

open Network (Place Ending Asking Exchange Around Attends InOrder Somebody Mild Utters Leaves standsAt)
open Ensemble (Turn Moment)

/-- Any number of calls on a session, and all that can happen meanwhile. -/
def talks (s : Session) : Ensemble Network Ask Spot (Around s.channel) where
  start := Spot.ofAsk
  step := fun ask spot n => spot.next s ask n
  around := fun e n => e.change n

/-! ## What a step of a call can be -/

section Within

variable (s : Session)

lemma Ask.within_own (ask : Ask) : (ask.own s).Within (Utters s.channel ask.names) := by
  have htelling : ∀ method params, (telling s method params).Within (Utters s.channel [method]) :=
    fun method params => Attempt.Within.mapError (Network.within_utters_notify method params) _
  cases ask with
  | introduce | shutDown => trivial
  | request method params =>
    exact .andThen (Attempt.Within.mapError (Network.within_utters_requestUntil method params none) _) fun _ => trivial
  | _ => exact htelling _ _

lemma within_partingTask : (partingTask s).Within (Utters s.channel Ask.shutDown.names) := by
  have hsub : ["shutdown"] ⊆ Ask.shutDown.names ∧ ["exit"] ⊆ Ask.shutDown.names := by decide
  refine .andThen (.mono (fun _ _ h => h.mono hsub.1) (Network.within_utters_requestUntil "shutdown" .null none))
    fun _ => ?_
  refine .andThen (.mono (fun _ _ h => h.mono hsub.2) (Network.within_utters_notify "exit" .null)) fun _ => ?_
  exact .andThen Network.within_utters_shutdown fun _ => trivial

end Within

namespace Spot

/-- Where a call stands. -/
def stand : Spot → Network.Stand
  | introducing place => place.stand
  | _ => .away

/-- The handshake of a call returned well. -/
def IsShaken : Spot → Prop
  | introducing place => place.IsShaken
  | following ending _ => ending = .shook (.ok ())
  | _ => False

/-- What is left of a call does as it should. -/
def Fine (s : Session) (ask : Ask) : Spot → Prop
  | introducing place => place.Within (greeting s) (Mild s.channel)
  | following ending left => ending.result = .ok () ∧ left.Within (Utters s.channel ask.names)
  | glancing => ask = .shutDown
  | parting left => left.Within (Utters s.channel ask.names)
  | closing left => left.Within (Utters s.channel [])

variable {s : Session} {ask : Ask} {n n' : Network} {spot spot' : Spot}

/-- What a step of a call can be. -/
inductive Goes (s : Session) (ask : Ask) (n : Network) : Spot → Spot → Network → Prop
  | turns (place place' : Place (Asking Greeting)) (n' : Network)
    (step : place.next s.channel (greeting s) n = some (place', n')) :
    Goes s ask n (introducing place) (introducing place') n'
  | follows (ending : Ending) (left : Task Wait Network (Except Fault Unit)) (n' : Network)
    (step : (ask.rest s ending.result).tick? Wait.holds n = some (left, n')) :
    Goes s ask n (introducing (.gone ending)) (following ending left) n'
  | carriesOn (ending : Ending) (left left' : Task Wait Network (Except Fault Unit)) (n' : Network)
    (step : left.tick? Wait.holds n = some (left', n')) : Goes s ask n (following ending left) (following ending left') n'
  | parts (found : (n.channel s.channel).phase = .ready) : Goes s ask n glancing (parting (partingTask s)) n
  | closes : Goes s ask n glancing (closing ((Network.shutdown s.channel).andThen fun _ => .done (.ok ()))) n
  | partsOn (left left' : Task Wait Network (Except Fault Unit)) (n' : Network)
    (step : left.tick? Wait.holds n = some (left', n')) : Goes s ask n (parting left) (parting left') n'
  | closesOn (left left' : Task Wait Network (Except Fault Unit)) (n' : Network)
    (step : left.tick? Wait.holds n = some (left', n')) : Goes s ask n (closing left) (closing left') n'

lemma goes (h : spot.next s ask n = some (spot', n')) : Goes s ask n spot spot' n' := by
  cases spot with
  | introducing place =>
    rcases place.eq_gone_or with ⟨ending, rfl⟩ | hgone
    · obtain ⟨r, hr, heq⟩ := Option.map_eq_some_iff.mp h
      obtain ⟨rfl, rfl⟩ := Prod.mk.inj heq
      exact .follows ending _ _ hr
    · rw [next_introducing hgone] at h
      obtain ⟨r, hr, heq⟩ := Option.map_eq_some_iff.mp h
      obtain ⟨rfl, rfl⟩ := Prod.mk.inj heq
      exact .turns place _ _ hr
  | glancing =>
    obtain ⟨hspot, rfl⟩ := Prod.mk.inj (Option.some.inj h)
    split at hspot
    · next hready =>
      subst hspot
      exact .parts hready
    · subst hspot
      exact .closes
  | following ending left =>
    obtain ⟨r, hr, heq⟩ := Option.map_eq_some_iff.mp h
    obtain ⟨rfl, rfl⟩ := Prod.mk.inj heq
    exact .carriesOn ending left _ _ hr
  | parting left =>
    obtain ⟨r, hr, heq⟩ := Option.map_eq_some_iff.mp h
    obtain ⟨rfl, rfl⟩ := Prod.mk.inj heq
    exact .partsOn left _ _ hr
  | closing left =>
    obtain ⟨r, hr, heq⟩ := Option.map_eq_some_iff.mp h
    obtain ⟨rfl, rfl⟩ := Prod.mk.inj heq
    exact .closesOn left _ _ hr

/-- What is left of a call utters what it may, in each of its steps. -/
lemma utters_of_tick {names : List String} {left left' : Task Wait Network (Except Fault Unit)}
    (h : left.Within (Utters s.channel names)) (step : left.tick? Wait.holds n = some (left', n')) :
    Utters s.channel names n n' ∧ left'.Within (Utters s.channel names) := by
  obtain ⟨hutters | rfl, hleft⟩ := Task.Within.tick h step
  · exact ⟨hutters, hleft⟩
  · exact ⟨.refl _ _ _, hleft⟩

/-- A call goes on after its handshake only if that let it. -/
lemma result_of_rest {result : Except Channel.Fault Unit} {left : Task Wait Network (Except Fault Unit)}
    (step : (ask.rest s result).tick? Wait.holds n = some (left, n')) :
    result = .ok () ∧ (ask.own s).tick? Wait.holds n = some (left, n') := by
  cases result with
  | ok u => exact ⟨rfl, step⟩
  | error fault => cases step

/-- Past the handshake a call utters nothing but its own names, and comes to no handshake. -/
lemma Goes.utters (h : Goes s ask n spot spot' n') (hfine : spot.Fine s ask) :
    (∃ place place', spot = introducing place ∧ spot' = introducing place' ∧
        place.next s.channel (greeting s) n = some (place', n')) ∨
      Utters s.channel ask.names n n' ∧ spot'.Fine s ask ∧ spot.stand = .away ∧ spot'.stand = .away ∧
        (spot'.IsShaken ↔ spot.IsShaken) := by
  cases h with
  | turns place place' _ step => exact .inl ⟨place, place', rfl, rfl, step⟩
  | follows ending left _ step =>
    obtain ⟨hok, hown⟩ := result_of_rest step
    obtain ⟨hutters, hleft⟩ := utters_of_tick (ask.within_own s) hown
    exact .inr ⟨hutters, ⟨hok, hleft⟩, rfl, rfl, (Place.isShaken_gone ending).symm⟩
  | carriesOn ending left _ _ step =>
    obtain ⟨hutters, hleft⟩ := utters_of_tick hfine.2 step
    exact .inr ⟨hutters, ⟨hfine.1, hleft⟩, rfl, rfl, Iff.rfl⟩
  | parts =>
    obtain rfl := hfine
    exact .inr ⟨.refl _ _ _, within_partingTask s, rfl, rfl, Iff.rfl⟩
  | closes => exact .inr ⟨.refl _ _ _, .andThen Network.within_utters_shutdown fun _ => trivial, rfl, rfl, Iff.rfl⟩
  | partsOn left _ _ step =>
    obtain ⟨hutters, hleft⟩ := utters_of_tick hfine step
    exact .inr ⟨hutters, hleft, rfl, rfl, Iff.rfl⟩
  | closesOn left _ _ step =>
    obtain ⟨hutters, hleft⟩ := utters_of_tick hfine step
    exact .inr ⟨hutters.mono (List.nil_subset _), hleft, rfl, rfl, Iff.rfl⟩

/-- A session becomes ready only where a handshake returns well. -/
lemma Goes.ready (h : Goes s ask n spot spot' n') (hc : s.channel < n.channels.length) (hfine : spot.Fine s ask)
    (hready : (n'.channel s.channel).phase = .ready) :
    (n.channel s.channel).phase = .ready ∨ spot'.IsShaken := by
  rcases h.utters hfine with ⟨place, place', rfl, rfl, step⟩ | ⟨hutters, -⟩
  · obtain ⟨-, ended, hmoves, hended⟩ := Place.moves hc hfine step
    rcases hmoves.ready_of_ready hready with hbefore | ⟨k, hk⟩
    · exact .inl hbefore
    · -- of the steps of a handshake only the last one makes the session ready
      cases Place.goes step with
      | works k stage stage' _ hnext =>
        rcases Greeting.next_door hc hnext with ⟨hdoor, -⟩ | ⟨-, rfl⟩
        · exact .inl ((congrArg Door.phase hdoor).symm.trans hready)
        · exact .inr rfl
      | _ => cases hk
  · rcases hutters.door with hdoor | hdoor
    · exact .inl ((congrArg Door.phase hdoor).symm.trans hready)
    · cases (congrArg Door.phase hdoor).symm.trans hready

/-- A handshake that returned well is known from then on. -/
lemma IsShaken.next (h : spot.IsShaken) (hnext : spot.next s ask n = some (spot', n')) : spot'.IsShaken := by
  cases goes hnext with
  | turns place place' _ step => exact Place.shook?_next h step
  | follows ending => exact (Place.isShaken_gone ending).mp h
  | carriesOn => exact h
  | parts | closes | partsOn | closesOn => exact h.elim

/-- The server was told that all is initialized. -/
def IsTold (spot : Spot) : Prop := spot.IsShaken ∨ ∃ k, spot = introducing (.shaking k (.answered .readying))

lemma IsTold.next (h : spot.IsTold) (hnext : spot.next s ask n = some (spot', n')) : spot'.IsTold := by
  rcases h with h | ⟨k, rfl⟩
  · exact .inl (h.next hnext)
  · obtain ⟨rfl, -⟩ := Prod.mk.inj (Option.some.inj hnext)
    exact .inl rfl

/-- What is known of the handshake of a call. -/
def Reached (v : Viewpoint Wait Network) (s : Session) (m : Nat) : Spot → Prop
  | introducing (.shaking _ stage) => stage.Reached v s.channel (Greeting.request s) m
  | _ => True

section Reached

variable {v : Viewpoint Wait Network} {m : Nat}

lemma Reached.later (h : spot.Reached v s m) : spot.Reached v s (m + 1) := by
  cases spot with
  | introducing place =>
    cases place with
    | shaking k stage => exact Asking.Reached.later h (Nat.le_succ m)
    | _ => trivial
  | _ => trivial

lemma Reached.next (h : spot.Reached v s m) (hturn : v.turn m) (hafter : v.state (m + 1) = n')
    (hnext : spot.next s ask (v.state m) = some (spot', n')) : spot'.Reached v s (m + 1) := by
  cases goes hnext with
  | turns place place' _ step =>
    cases Place.goes step with
    | enters k => exact Nat.zero_le (m + 1)
    | works k stage r _ hstep =>
      rcases r with g | fault | done
      · exact Asking.Reached.next h hturn (hafter ▸ hstep)
      · trivial
      · trivial
    | _ => trivial
  | _ => trivial

end Reached

lemma not_isTold_ofAsk (ask : Ask) : ¬ (ofAsk ask).IsTold := by
  cases ask <;> rintro (h | ⟨k, h⟩) <;> cases h

/-- The server is told in one step only. -/
lemma announcing_of_told (hc : s.channel < n.channels.length) (hnot : ¬ spot.IsTold)
    (hnext : spot.next s ask n = some (spot', n')) (htold : spot'.IsTold) :
    ∃ k, spot = introducing (.shaking k (.answered .announcing)) ∧
      (greeting s).next (.answered .announcing) n = some (.inl (.answered .readying), n') := by
  have hstay : ¬ spot.IsShaken := fun h => hnot (.inl h)
  cases goes hnext with
  | turns place place' _ step =>
    -- of the steps of a caller only those of its handshake lead there
    cases Place.goes step with
    | takes | called | begins | passes | reverts | enters => rcases htold with h | ⟨k, h⟩ <;> cases h
    | leaves k ending =>
      rcases htold with h | ⟨k, h⟩
      · exact absurd (by cases ending <;> exact h) hstay
      · cases h
    | works k stage r _ hstep =>
      have hstage : stage ≠ .answered .readying := by
        rintro rfl
        exact hnot (.inr ⟨k, rfl⟩)
      rcases r with g | fault | done
      · obtain rfl : g = .answered .readying := by
          rcases htold with h | ⟨k, h⟩ <;> cases h
          rfl
        obtain rfl := Greeting.announcing_of_readying hstep hstage
        exact ⟨k, rfl, hstep⟩
      · rcases htold with h | ⟨k, h⟩ <;> cases h
      · rcases Greeting.next_door hc hstep with ⟨-, hne⟩ | ⟨heq, -⟩
        · exact absurd rfl hne
        · exact absurd heq hstage
  | follows ending =>
    rcases htold with h | ⟨k, h⟩
    · exact absurd ((Place.isShaken_gone ending).mpr h) hstay
    · cases h
  | carriesOn ending =>
    rcases htold with h | ⟨k, h⟩
    · exact absurd h hstay
    · cases h
  | parts | closes | partsOn | closesOn => rcases htold with h | ⟨k, h⟩ <;> cases h

/-- A call found the session in this phase, and so left the handshake. -/
def HasFound (phase : Phase) : Spot → Prop
  | introducing place => place.looked? = some (some phase)
  | following ending _ => ending.found? = some phase
  | _ => False

/-- A call leaves the handshake only at its look at the phase. -/
lemma looking_of_found {phase : Phase} (hnot : ¬ spot.HasFound phase) (hnext : spot.next s ask n = some (spot', n'))
    (hfound : spot'.HasFound phase) : ∃ k, spot = introducing (.looking k) ∧ (n.channel s.channel).phase = phase ∧
      phase ≠ .notInitialized := by
  cases goes hnext with
  | turns place place' _ step =>
    obtain ⟨k, rfl, ⟨hphase, -⟩ | ⟨found, hphase, -, hsame, htried⟩⟩ := Place.looking_of_looked hnot step hfound
    · cases hphase
    · obtain rfl := Option.some.inj hphase
      exact ⟨k, rfl, hsame, htried⟩
  | follows ending => exact absurd (congrArg some hfound) hnot
  | carriesOn ending => exact absurd hfound hnot
  | parts | closes | partsOn | closesOn => exact hfound.elim

/-- A shutdown found the session ready. -/
def IsParting : Spot → Prop
  | parting _ => True
  | _ => False

lemma ready_of_parting (hnot : ¬ spot.IsParting) (hnext : spot.next s ask n = some (spot', n')) (hparting : spot'.IsParting) :
    (n.channel s.channel).phase = .ready := by
  cases goes hnext with
  | parts found => exact found
  | turns | follows | carriesOn | closes | closesOn => exact hparting.elim
  | partsOn => exact absurd hparting hnot

/-- A call that goes on after its handshake ran it well, or left it at the look at the phase. -/
lemma shook_or_found {ending : Ending} (hok : ending.result = .ok ()) :
    ending = .shook (.ok ()) ∨ ∃ phase, phase ≠ .closed ∧ ending = .found phase := by
  cases ending with
  | shook result => exact .inl (congrArg Ending.shook hok)
  | found phase =>
    refine .inr ⟨phase, ?_, rfl⟩
    rintro rfl
    cases hok

/-- What lets a call speak on its own account: its handshake returned well, or it found the session in a phase other
than closed in which it need not shake hands, or is a shutdown that found it ready. -/
def MaySpeak (spot : Spot) : Prop :=
  spot.IsShaken ∨ (∃ phase, phase ≠ .closed ∧ spot.HasFound phase) ∨ spot.IsParting

/-- What a call sends at a spot is of its handshake, or it speaks on its own account. -/
def MaySend (ask : Ask) (name : String) (spot : Spot) : Prop :=
  (∃ k stage, spot = introducing (.shaking k stage)) ∧ (name = "initialize" ∨ name = "initialized") ∨
    (∀ k stage, spot ≠ introducing (.shaking k stage)) ∧ name ∈ ask.names ∧ spot.MaySpeak

/-- A step of a call hands over nothing, or a message that it may send. -/
lemma Goes.speaks (h : Goes s ask n spot spot' n') (hc : s.channel < n.channels.length) (hfine : spot.Fine s ask) :
    (n'.channel s.channel).outgoing = (n.channel s.channel).outgoing ∨
      ∃ message name, Leaves s.channel n n' message ∧ (n.channel s.channel).dialect.Reads message name ∧
        spot.MaySend ask name := by
  have hown : Utters s.channel ask.names n n' → (∀ k stage, spot ≠ introducing (.shaking k stage)) → spot.MaySpeak →
      (n'.channel s.channel).outgoing = (n.channel s.channel).outgoing ∨ ∃ message name,
        Leaves s.channel n n' message ∧ (n.channel s.channel).dialect.Reads message name ∧ spot.MaySend ask name :=
    fun hutters hpast hmay => hutters.own.imp_right fun ⟨name, hname, message, hleaves, hreads⟩ =>
      ⟨message, name, hleaves, hreads, .inr ⟨hpast, hname, hmay⟩⟩
  cases h with
  | turns place place' _ step =>
    rcases Place.outgoing_next step with hsame | ⟨k, stage, r, rfl, -, hstep⟩
    · exact .inl (hsame _)
    · refine (Greeting.next_says hc hstep).imp_right ?_
      rintro ⟨message, name, hleaves, hreads, hname⟩
      exact ⟨message, name, hleaves, hreads, .inl ⟨⟨k, stage, rfl⟩, hname.imp And.left And.left⟩⟩
  | follows ending left _ step =>
    obtain ⟨hok, hstep⟩ := result_of_rest step
    refine hown (utters_of_tick (ask.within_own s) hstep).1 (fun _ _ hshaking => nomatch hshaking) ?_
    rcases shook_or_found hok with rfl | ⟨phase, hopen, rfl⟩
    · exact .inl rfl
    · exact .inr (.inl ⟨phase, hopen, rfl⟩)
  | carriesOn ending left _ _ step =>
    refine hown (utters_of_tick hfine.2 step).1 (fun _ _ hshaking => nomatch hshaking) ?_
    rcases shook_or_found hfine.1 with rfl | ⟨phase, hopen, rfl⟩
    · exact .inl rfl
    · exact .inr (.inl ⟨phase, hopen, rfl⟩)
  | parts | closes => exact .inl rfl
  | partsOn left _ _ step =>
    exact hown (utters_of_tick hfine step).1 (fun _ _ hshaking => nomatch hshaking) (.inr (.inr trivial))
  | closesOn left _ _ step =>
    rcases (utters_of_tick hfine step).1.own with hsame | ⟨said, hsaid, -⟩
    · exact .inl hsame
    · cases hsaid

end Spot

/-- Calls take turns at the door of the channel. -/
lemma attends_talks (s : Session) : Attends (talks s) id s.channel Spot.stand Spot.IsShaken (s.channel < ·.channels.length)
    fun _ => Spot.Fine s where
  start ask := by cases ask <;> exact ⟨rfl, by nofun⟩
  step ask spot n spot' n' hc hfine h := by
    rcases (Spot.goes h).utters hfine with ⟨place, place', rfl, rfl, step⟩ | ⟨hutters, hfine', haway, haway', hshaken⟩
    · obtain ⟨hc', hmoves⟩ := Place.moves hc hfine step
      have hfine' := Place.Within.next hfine ((within_greeting s).mono fun _ _ h => h.mild s.channel) step
      exact ⟨hc', hfine', fun _ _ => id, .inl hmoves⟩
    · exact ⟨hutters.present hc, hfine', fun _ _ => id, .inr ⟨haway'.trans haway.symm, hshaken, hutters.nudged⟩⟩
  around e n hc := ⟨(e.mild n).present hc, fun _ _ => id, (e.mild n).door⟩

/-! ## Talks -/

/-- Calls on a session and all that happens meanwhile, in turns. -/
structure Talk where
  session : Session
  start : Network
  schedule : Nat → Turn Ask (Around session.channel)

namespace Talk

variable (t : Talk)

/-- The network and the calls after `n` turns. -/
def after (n : Nat) : Moment Network Ask Spot := (talks t.session).play t.start t.schedule n

/-- The channel of the session after `n` turns. -/
def channel (n : Nat) : Channel := (t.after n).state.channel t.session.channel

/-- A message leaves in a turn. -/
def Sends (n : Nat) (message : Json) : Prop :=
  Leaves t.session.channel (t.after n).state (t.after (n + 1)).state message

/-- The server receives a request or notification of this name that leaves in a turn. -/
def Hears (n : Nat) (name : String) : Prop := ∃ message, t.Sends n message ∧ (t.channel n).dialect.Reads message name

/-- It is the turn of a call, which is at this spot. -/
def Steps (i n : Nat) (ask : Ask) (spot : Spot) : Prop :=
  t.schedule n = .step i ∧ (t.after n).calls[i]? = some (ask, spot)

/-- What the server receives is of a handshake. -/
def Greets (i n : Nat) (name : String) : Prop :=
  t.Hears n name ∧ ∃ ask k stage, t.Steps i n ask (.introducing (.shaking k stage))

/-- A call sends it on its own account. -/
def Speaks (i n : Nat) (name : String) : Prop :=
  t.Hears n name ∧ ∃ ask spot, t.Steps i n ask spot ∧ (∀ k stage, spot ≠ .introducing (.shaking k stage)) ∧
    name ∈ ask.names

/-- A call looks at the phase in its turn. -/
def Looks (i n : Nat) : Prop := ∃ ask k, t.Steps i n ask (.introducing (.looking k))

/-- It finds that nobody shook hands, and goes on with the handshake. -/
def Starts (i n : Nat) : Prop := t.Looks i n ∧ ∃ k, (t.after (n + 1)).place? i = some (.introducing (.entering k))

/-- The handshake of a call failed, and the call is about to take its mark back. -/
def Fails (i n : Nat) : Prop := ∃ k fault, (t.after n).place? i = some (.introducing (.reverting k fault))

/-- The run as a call sees it. -/
def viewpoint (i : Nat) : Viewpoint Wait Network where
  holds := Wait.holds
  state n := (t.after n).state
  turn n := t.schedule n = .step i

/-- A call asked the server to initialize, and had a good answer before a turn. -/
def Answered (i n : Nat) : Prop :=
  ∃ x : Exchange, x.channel = t.session.channel ∧ x.request = Greeting.request t.session ∧
    (∃ body, x.Took (t.viewpoint i) body) ∧ x.answered < n

/-- No call sends on its own account what it is for the handshake to send. -/
def Plain : Prop := ∀ n ask, t.schedule n = .begins ask → "initialize" ∉ ask.names ∧ "initialized" ∉ ask.names

/-- Nobody was at the door of the channel. -/
structure Fresh : Prop where
  present : t.session.channel < t.start.channels.length
  phase : (t.start.channel t.session.channel).phase = .notInitialized
  turns : (t.start.channel t.session.channel).turn = (t.start.channel t.session.channel).turnsGiven

variable {t} {i j m n : Nat} {name : String} {ask : Ask} {spot : Spot}

lemma place?_of_calls (h : (t.after n).calls[i]? = some (ask, spot)) : (t.after n).place? i = some spot := by
  rw [Moment.place?, h]
  rfl

lemma calls_of_place? (h : (t.after n).place? i = some spot) : ∃ ask, (t.after n).calls[i]? = some (ask, spot) := by
  obtain ⟨⟨ask, spot⟩, hcall, rfl⟩ := Option.map_eq_some_iff.mp h
  exact ⟨ask, hcall⟩

/-- Who shook hands is known from then on. -/
lemma shaken_of_le (hmn : m ≤ n) (h : Somebody Spot.IsShaken (t.after m)) : Somebody Spot.IsShaken (t.after n) := by
  obtain ⟨i, spot, hspot, hshaken⟩ := h
  obtain ⟨ask, hcall⟩ := calls_of_place? hspot
  obtain ⟨later, hlater, hshaken'⟩ := (talks t.session).place_of_le (Q := fun _ spot => spot.IsShaken)
    (fun _ _ _ _ _ hp hstep => hp.next hstep) hmn hcall hshaken
  exact ⟨i, later, place?_of_calls hlater, hshaken'⟩

lemma looking_of_stand {k : Nat} (h : standsAt Spot.stand (t.after n) i = .looking k) :
    ∃ ask, (t.after n).calls[i]? = some (ask, .introducing (.looking k)) := by
  unfold standsAt at h
  cases hplace : (t.after n).place? i with
  | none =>
    rw [hplace] at h
    cases h
  | some spot =>
    rw [hplace] at h
    obtain ⟨ask, hcall⟩ := calls_of_place? hplace
    cases spot with
    | introducing place =>
      cases place with
      | looking ticket =>
        cases h
        exact ⟨ask, hcall⟩
      | _ => cases h
    | _ => cases h

/-- What a call sends on its own account is of one of the names with which it began. -/
lemma Speaks.begun (h : t.Speaks i n name) : ∃ m < n, ∃ ask, t.schedule m = .begins ask ∧ name ∈ ask.names := by
  obtain ⟨-, ask, spot, hsteps, -, hname⟩ := h
  obtain ⟨m, hm, hbegins⟩ := (talks t.session).exists_begins_of_place hsteps.2
  exact ⟨m, hm, ask, hbegins, hname⟩

lemma Plain.not_speaks (hplain : t.Plain) (hname : name = "initialize" ∨ name = "initialized") : ¬ t.Speaks i n name := by
  intro h
  obtain ⟨m, -, ask, hbegins, hmem⟩ := h.begun
  rcases hname with rfl | rfl
  · exact (hplain m ask hbegins).1 hmem
  · exact (hplain m ask hbegins).2 hmem

/-- When the handshake is about to tell the server, that has answered well. -/
lemma answered_of_announcing {k : Nat} (h : (t.after n).calls[i]? = some (ask, .introducing (.shaking k (.answered .announcing)))) :
    t.Answered i n := by
  refine (talks t.session).of_place_at (I := fun n _ spot => spot.Reached (t.viewpoint i) t.session n) ?_ ?_ ?_ h
  · intro n ask
    cases ask <;> trivial
  · exact fun n _ spot hspot => hspot.later
  · exact fun n spot spot' hspot mine _ hstep => hspot.next mine rfl hstep

namespace Fresh

variable (ht : t.Fresh)

include ht

lemma inOrder (n : Nat) : InOrder id t.session.channel Spot.stand Spot.IsShaken
    (t.session.channel < ·.channels.length) (fun _ => Spot.Fine t.session) (t.after n) := by
  refine (attends_talks t.session).inOrder (s := t.start) ht.present (by rw [id, ht.phase]; nofun) ht.turns ?_ n
  intro n ask _
  cases ask <;> trivial

/-- In a turn messages are taken at most, or one leaves. -/
lemma taken_or_sends (n : Nat) :
    (∃ k, (t.channel (n + 1)).outgoing = (t.channel n).outgoing.drop k) ∨ ∃ message, t.Sends n message := by
  have hturn := (talks t.session).happens_play t.start t.schedule n
  unfold Sends channel after
  generalize (talks t.session).play t.start t.schedule (n + 1) = later at hturn
  cases hturn with
  | still => exact .inl ⟨0, rfl⟩
  | begins ask begun => exact .inl ⟨0, rfl⟩
  | moves i ask spot spot' n' mine here steps =>
    rcases (Spot.goes steps).speaks (ht.inOrder n).good ((ht.inOrder n).fine i ask spot here) with
      hsame | ⟨message, -, hleaves, -⟩
    · exact .inl ⟨0, hsame⟩
    · exact .inr ⟨message, hleaves⟩
  | around e other => exact (e.outgoing_change _).imp_right fun ⟨reply, hreply, _⟩ => ⟨reply, hreply⟩

/-- What there is more after a turn left in it. -/
lemma hears_of_name? (h : ((t.channel (n + 1)).outgoing.drop (t.channel n).outgoing.length).map (t.channel n).dialect.name?
    = [some name]) : t.Hears n name := by
  rcases ht.taken_or_sends n with ⟨k, hsame⟩ | ⟨message, hsends⟩
  · rw [hsame, List.drop_drop, List.drop_eq_nil_of_le (by omega)] at h
    cases h
  · have hmore : (t.channel (n + 1)).outgoing.drop (t.channel n).outgoing.length = [message] := by
      rw [show (t.channel (n + 1)).outgoing = (t.channel n).outgoing ++ [message] from hsends, List.drop_left]
    rw [hmore] at h
    exact ⟨message, hsends, .of_name? (List.singleton_inj.mp h)⟩

/-- A request or notification that the server receives is sent in a step of a call. -/
lemma step_of_hears (h : t.Hears n name) : ∃ i ask spot spot', t.Steps i n ask spot ∧
    spot.next t.session ask (t.after n).state = some (spot', (t.after (n + 1)).state) ∧
    (t.after (n + 1)).calls[i]? = some (ask, spot') ∧ spot.MaySend ask name := by
  obtain ⟨message, hsends, hreads⟩ := h
  have hturn := (talks t.session).happens_play t.start t.schedule n
  unfold Sends after at hsends
  unfold after
  generalize (talks t.session).play t.start t.schedule (n + 1) = later at hturn hsends
  cases hturn with
  | still => exact absurd hsends (Network.not_leaves_of_eq rfl)
  | begins ask begun => exact absurd hsends (Network.not_leaves_of_eq rfl)
  | moves i ask spot spot' n' mine here steps =>
    refine ⟨i, ask, spot, spot', ⟨mine, here⟩, steps, List.getElem?_set_self (List.getElem?_eq_some_iff.mp here).1, ?_⟩
    rcases (Spot.goes steps).speaks (ht.inOrder n).good ((ht.inOrder n).fine i ask spot here) with
      hsame | ⟨other, name', hleaves, hreads', hwhose⟩
    · exact absurd hsends (Network.not_leaves_of_eq hsame)
    · exact hsends.reads_unique hreads hleaves hreads' ▸ hwhose
  | around e other =>
    rcases e.outgoing_change (t.after n).state with ⟨k, hout⟩ | ⟨reply, hreply, hnot⟩
    · refine absurd hsends (Network.not_leaves_of_le ?_)
      show ((e.change (t.after n).state).channel t.session.channel).outgoing.length ≤ _
      rw [hout, List.length_drop]
      exact Nat.sub_le _ _
    · rw [hsends.unique hreply] at hreads
      exact absurd hreads (hnot name)

/-- What a handshake sends it sends in a step from one of its stages to the next. -/
lemma step_of_greets (h : t.Greets i n name) : ∃ ask k stage r, t.Steps i n ask (.introducing (.shaking k stage)) ∧
    (greeting t.session).next stage (t.after n).state = some (r, (t.after (n + 1)).state) ∧
    (t.after (n + 1)).calls[i]? = some (ask, .introducing (.resume k r)) ∧
    (name = "initialize" ∧ (∃ asking live, stage = .asking asking live) ∨
      name = "initialized" ∧ stage = .answered .announcing ∧ r = .inl (.answered .readying)) := by
  obtain ⟨hhears, ask, k, stage, hsteps⟩ := h
  obtain ⟨i', ask', spot, spot', hsteps', hnext, hcall, -⟩ := ht.step_of_hears hhears
  obtain rfl : i = i' := Turn.step.inj (hsteps.1.symm.trans hsteps'.1)
  obtain ⟨rfl, rfl⟩ := Prod.mk.inj (Option.some.inj (hsteps'.2.symm.trans hsteps.2))
  cases Spot.goes hnext with
  | turns place place' _ step =>
    cases Place.goes step with
    | works k stage r _ hstep =>
      obtain ⟨message, hsends, hreads⟩ := hhears
      refine ⟨ask', k, stage, r, hsteps, hstep, hcall, ?_⟩
      rcases Greeting.next_says (ht.inOrder n).good hstep with hsame | ⟨other, name', hleaves, hreads', hstage⟩
      · exact absurd hsends (Network.not_leaves_of_eq hsame)
      · exact hsends.reads_unique hreads hleaves hreads' ▸ hstage

/-- Once the server was told, that is known from then on. -/
lemma told_of_greets {k : Nat} (h : t.Greets i k "initialized") (hkn : k < n) :
    ∃ ask spot, (t.after n).calls[i]? = some (ask, spot) ∧ spot.IsTold := by
  obtain ⟨ask, ticket, stage, r, -, -, hcall, ⟨hname, -⟩ | ⟨-, -, rfl⟩⟩ := ht.step_of_greets h
  · exact absurd hname (by decide)
  · obtain ⟨spot, hspot, htold⟩ := (talks t.session).place_of_le (Q := fun _ spot => spot.IsTold)
      (fun _ _ _ _ _ hp hstep => hp.next hstep) hkn hcall (.inr ⟨ticket, rfl⟩)
    exact ⟨ask, spot, hspot, htold⟩

/-- Once the server was told nobody is at another handshake. -/
lemma readying_of_told (hi : (t.after n).calls[i]? = some (ask, spot)) (htold : spot.IsTold) {ask' : Ask} {k : Nat}
    {stage : Asking Greeting} (hj : (t.after n).calls[j]? = some (ask', .introducing (.shaking k stage))) :
    stage = .answered .readying := by
  have hstand : standsAt Spot.stand (t.after n) j = .shaking k := Network.standsAt_of_calls hj
  have hinside : (standsAt Spot.stand (t.after n) j).IsInside := by
    rw [hstand]
    trivial
  rcases htold with hshaken | ⟨l, rfl⟩
  · exact absurd hinside (((ht.inOrder n).orderly.once ⟨i, spot, place?_of_calls hi, hshaken⟩).2 j)
  · have hi' : standsAt Spot.stand (t.after n) i = .shaking l := Network.standsAt_of_calls hi
    obtain rfl : i = j := (ht.inOrder n).orderly.alone hinside (by rw [hi']; nofun)
    cases hi.symm.trans hj
    rfl

/-- The handshake asks before it tells. -/
lemma lt_of_greets {k : Nat} (hk : t.Greets i k "initialized") (hm : t.Greets j m "initialize") : m < k := by
  obtain ⟨ask, l, stage, r, hsteps, hnext, -, ⟨-, asking, live, rfl⟩ | ⟨hname, -⟩⟩ := ht.step_of_greets hm
  · by_contra hge
    rcases Nat.eq_or_lt_of_le (Nat.le_of_not_lt hge) with rfl | hlt
    · obtain ⟨message, hsends, hreads⟩ := hk.1
      obtain ⟨message', hsends', hreads'⟩ := hm.1
      exact absurd (hsends.reads_unique hreads hsends' hreads') (by decide)
    · obtain ⟨ask', spot, hspot, htold⟩ := ht.told_of_greets hk hlt
      cases ht.readying_of_told hspot htold hsteps.2
  · exact absurd hname (by decide)

/-- The server is told once. -/
lemma eq_of_greets {k : Nat} (hk : t.Greets i k "initialized") (hm : t.Greets j m "initialized") : k = m := by
  have hnot : ∀ {i j k m}, t.Greets i k "initialized" → t.Greets j m "initialized" → ¬ k < m := by
    intro i j k m hk hm hlt
    obtain ⟨ask', spot, hspot, htold⟩ := ht.told_of_greets hk hlt
    obtain ⟨ask, l, stage, r, hsteps, -, -, ⟨hname, -⟩ | ⟨-, rfl, -⟩⟩ := ht.step_of_greets hm
    · exact absurd hname (by decide)
    · cases ht.readying_of_told hspot htold hsteps.2
  exact Nat.le_antisymm (Nat.le_of_not_lt (hnot hm hk)) (Nat.le_of_not_lt (hnot hk hm))

/-- Where the server was told there was a turn in which it was. -/
lemma greets_of_told (hi : (t.after n).calls[i]? = some (ask, spot)) (htold : spot.IsTold) :
    ∃ k < n, t.Greets i k "initialized" := by
  obtain ⟨k, hk, before, after, hturn, hbefore, hnot, hstep, -, hafter⟩ :=
    (talks t.session).exists_step_of_place (Q := fun _ spot => spot.IsTold) Spot.not_isTold_ofAsk hi htold
  obtain ⟨l, rfl, hnext⟩ := Spot.announcing_of_told (ht.inOrder k).good hnot hstep hafter
  refine ⟨k, hk, ?_, ask, l, _, hturn, hbefore⟩
  rcases Greeting.next_announcing (ht.inOrder k).good hnext with ⟨-, message, hleaves, hreads⟩ | ⟨⟨fault, hr⟩, -⟩
  · exact ⟨message, hleaves, hreads⟩
  · cases hr

/-- A session is ready only after a handshake that returned well. -/
lemma shaken_of_ready (hready : (t.channel n).phase = .ready) : Somebody Spot.IsShaken (t.after n) := by
  induction n with
  | zero =>
    have hfirst : (t.channel 0).phase = .notInitialized := ht.phase
    cases hfirst.symm.trans hready
  | succ n ih =>
    have hstay : (t.channel n).phase = .ready → Somebody Spot.IsShaken (t.after (n + 1)) := fun h =>
      shaken_of_le (Nat.le_succ n) (ih h)
    have hturn := (talks t.session).happens_play t.start t.schedule n
    unfold channel at hready hstay
    unfold after at hready hstay ⊢
    generalize (talks t.session).play t.start t.schedule (n + 1) = later at hturn hready hstay ⊢
    cases hturn with
    | still => exact hstay hready
    | begins ask begun => exact hstay hready
    | moves i ask spot spot' n' mine here steps =>
      rcases (Spot.goes steps).ready (ht.inOrder n).good ((ht.inOrder n).fine i ask spot here) hready with h | h
      · exact hstay h
      · exact ⟨i, spot', by rw [Network.place?_set here, if_pos rfl], h⟩
    | around e other =>
      rcases e.door_change (t.after n).state with hdoor | hdoor
      · exact hstay ((congrArg Door.phase hdoor).symm.trans hready)
      · cases (congrArg Door.phase hdoor).symm.trans hready

/-- Who looks at the phase and finds it neither closed nor as it was at first comes after a handshake that returned
well. -/
lemma shaken_of_looking {k : Nat} (h : (t.after n).calls[i]? = some (ask, .introducing (.looking k)))
    (htried : (t.channel n).phase ≠ .notInitialized) (hopen : (t.channel n).phase ≠ .closed) :
    Somebody Spot.IsShaken (t.after n) := by
  cases hphase : (t.channel n).phase with
  | notInitialized => exact absurd hphase htried
  | initializing => exact (ht.inOrder n).orderly.shaken_of_looking (Network.standsAt_of_calls h) hphase
  | ready => exact ht.shaken_of_ready hphase
  | closed => exact absurd hphase hopen

/-- Before a call speaks on its own account the server was told that all is initialized. -/
lemma greets_of_speaks (h : t.Speaks i n name) : ∃ k < n, ∃ j, t.Greets j k "initialized" := by
  obtain ⟨hhears, ask, spot, hsteps, hpast, -⟩ := h
  obtain ⟨i', ask', spot', after, hsteps', hnext, -, hwhose⟩ := ht.step_of_hears hhears
  obtain rfl : i = i' := Turn.step.inj (hsteps.1.symm.trans hsteps'.1)
  obtain ⟨rfl, rfl⟩ := Prod.mk.inj (Option.some.inj (hsteps.2.symm.trans hsteps'.2))
  have hshaken : Somebody Spot.IsShaken (t.after n) := by
    rcases hwhose with ⟨⟨k, stage, rfl⟩, -⟩ | ⟨-, -, hshaken | ⟨phase, hopen, hfound⟩ | hparting⟩
    · exact absurd rfl (hpast k stage)
    · exact ⟨i, spot, place?_of_calls hsteps.2, hshaken⟩
    · obtain ⟨m, hm, before, after, -, hbefore, hnot, hstep, -, hafter⟩ :=
        (talks t.session).exists_step_of_place (Q := fun _ spot => spot.HasFound phase)
          (fun ask => by cases ask <;> nofun) hsteps.2 hfound
      obtain ⟨k, rfl, hphase, htried⟩ := Spot.looking_of_found hnot hstep hafter
      refine shaken_of_le (Nat.le_of_lt hm) (ht.shaken_of_looking hbefore ?_ ?_)
      · exact fun h => htried (hphase.symm.trans h)
      · exact fun h => hopen (hphase.symm.trans h)
    · obtain ⟨m, hm, before, after, -, -, hnot, hstep, -, hafter⟩ :=
        (talks t.session).exists_step_of_place (Q := fun _ spot => spot.IsParting)
          (fun ask => by cases ask <;> exact id) hsteps.2 hparting
      exact shaken_of_le (Nat.le_of_lt hm) (ht.shaken_of_ready (Spot.ready_of_parting hnot hstep hafter))
  obtain ⟨j, spot, hspot, hshaken⟩ := hshaken
  obtain ⟨ask, hcall⟩ := calls_of_place? hspot
  obtain ⟨k, hk, hgreets⟩ := ht.greets_of_told hcall (.inl hshaken)
  exact ⟨k, hk, j, hgreets⟩

/-- What the server receives is of a handshake, or a call sends it on its own account. -/
lemma greets_or_speaks (h : t.Hears n name) : ∃ i, t.Greets i n name ∧ (name = "initialize" ∨ name = "initialized") ∨
    t.Speaks i n name := by
  obtain ⟨i, ask, spot, spot', hsteps, -, -, ⟨⟨k, stage, rfl⟩, hname⟩ | ⟨hpast, hname, -⟩⟩ := ht.step_of_hears h
  · exact ⟨i, .inl ⟨⟨h, ask, k, stage, hsteps⟩, hname⟩⟩
  · exact ⟨i, .inr ⟨h, ask, spot, hsteps, hpast, hname⟩⟩

/-- A handshake told the server no later than it heard the first time that all is initialized. -/
lemma greets_of_hears {k : Nat} (h : t.Hears k "initialized") : ∃ l ≤ k, ∃ j, t.Greets j l "initialized" := by
  obtain ⟨i, ⟨hgreets, -⟩ | hspeaks⟩ := ht.greets_or_speaks h
  · exact ⟨k, le_rfl, i, hgreets⟩
  · obtain ⟨l, hl, j, hgreets⟩ := ht.greets_of_speaks hspeaks
    exact ⟨l, hl.le, j, hgreets⟩

/-- Once the server heard that all is initialized, only calls on their own account send what handshakes send. -/
lemma speaks_of_hears_after {k : Nat} (hk : t.Hears k "initialized") (hkm : k < m) (hm : t.Hears m name) :
    ∃ i, t.Speaks i m name := by
  obtain ⟨l, hl, j, htold⟩ := ht.greets_of_hears hk
  obtain ⟨i, ⟨hgreets, rfl | rfl⟩ | hspeaks⟩ := ht.greets_or_speaks hm
  · have hml : m < l := ht.lt_of_greets htold hgreets
    omega
  · have hml : l = m := ht.eq_of_greets htold hgreets
    omega
  · exact ⟨i, hspeaks⟩

/-- After a handshake that failed the next caller that looks at the phase shakes hands, unless the channel is closed. -/
lemma starts_of_fails (hfails : t.Fails i m) (hmn : m ≤ n) (hlooks : t.Looks j n)
    (hnobody : ∀ l, m ≤ l → l < n → ∀ i, ¬ t.Looks i l) : (t.channel n).phase = .closed ∨ t.Starts j n := by
  obtain ⟨k, fault, hplace⟩ := hfails
  have hdormant : Network.Dormant Spot.stand Spot.IsShaken (t.after n) := by
    refine (attends_talks t.session).dormant_of_le ht.inOrder hmn ?_
      ((ht.inOrder m).dormant (Network.standsAt_of_place? hplace))
    intro l hml hln i' k' mine hstand
    obtain ⟨ask, hcall⟩ := looking_of_stand hstand
    exact hnobody l hml hln i' ⟨ask, k', mine, hcall⟩
  obtain ⟨ask, ticket, hturn, hcall⟩ := id hlooks
  by_cases hclosed : (t.channel n).phase = .closed
  · exact .inl hclosed
  · have hphase : (t.channel n).phase = .notInitialized := by
      by_contra htried
      exact hdormant.unshaken (ht.shaken_of_looking hcall htried hclosed)
    have hstep : (Spot.introducing (.looking ticket)).next t.session ask (t.after n).state
        = some (.introducing (.entering ticket), (t.after n).state) := by
      have hplace : (Place.looking ticket).next t.session.channel (greeting t.session) (t.after n).state
          = some (.entering ticket, (t.after n).state) := if_pos hphase
      rw [Spot.next_introducing (by nofun), hplace]
      rfl
    refine .inr ⟨hlooks, ticket, ?_⟩
    have hafter := (talks t.session).play_succ_of_step hturn hcall hstep
    rw [after, hafter]
    exact (Network.place?_set hcall _ _ j).trans (if_pos rfl)

end Fresh

end Talk

/-- What the server receives, in which order, and what becomes of a handshake that failed. -/
structure Talk.HandshakeFirst (t : Talk) : Prop where
  /-- In each turn at most one message leaves. -/
  single : ∀ n, (∃ k, (t.channel (n + 1)).outgoing = (t.channel n).outgoing.drop k) ∨ ∃ message, t.Sends n message
  /-- Each request and notification is of a handshake, or a call sends it on its own account. -/
  whose : ∀ n name, t.Hears n name → ∃ i, t.Greets i n name ∧ (name = "initialize" ∨ name = "initialized") ∨
    t.Speaks i n name
  /-- What is neither `initialize` nor `initialized` comes after both, and the first one was answered well. -/
  first : ∀ n name, t.Hears n name → name ≠ "initialize" → name ≠ "initialized" →
    ∃ k < n, ∃ j, t.Greets j k "initialized" ∧ t.Answered j k
  /-- What calls send on their own account comes after a handshake told the server that all is initialized. -/
  after_told : ∀ i n name, t.Speaks i n name → ∃ k < n, ∃ j, t.Greets j k "initialized"
  /-- That comes after an `initialize` that was answered well, -/
  after_answered : ∀ i k, t.Greets i k "initialized" → t.Answered i k
  /-- and only once, -/
  once : ∀ i j k m, t.Greets i k "initialized" → t.Greets j m "initialized" → k = m
  /-- and no handshake asks for anything after it. -/
  last : ∀ i j k m, t.Greets i k "initialized" → t.Greets j m "initialize" → m < k
  /-- Whoever sends it, after an `initialized` all that the server receives is what calls send on their own account, -/
  onward : ∀ k m name, t.Hears k "initialized" → k < m → t.Hears m name → ∃ i, t.Speaks i m name
  /-- so that it receives one `initialized`, and no `initialize` after it, if no call sends these on its own account. -/
  plain : t.Plain → (∀ k m, t.Hears k "initialized" → t.Hears m "initialized" → k = m) ∧
    ∀ k m, t.Hears k "initialized" → t.Hears m "initialize" → m < k
  /-- After a handshake that failed the next caller that looks at the phase shakes hands, unless the session is closed. -/
  again : ∀ i j m n, t.Fails i m → m ≤ n → t.Looks j n → (∀ l, m ≤ l → l < n → ∀ i, ¬ t.Looks i l) →
    (t.channel n).phase = .closed ∨ t.Starts j n

/-- That is how it is in every talk on a fresh channel. -/
theorem Talk.Fresh.handshakeFirst {t : Talk} (ht : t.Fresh) : t.HandshakeFirst := by
  have hanswered : ∀ i k, t.Greets i k "initialized" → t.Answered i k := by
    intro i k h
    obtain ⟨ask, ticket, stage, r, hsteps, -, -, ⟨hname, -⟩ | ⟨-, rfl, -⟩⟩ := ht.step_of_greets h
    · exact absurd hname (by decide)
    · exact Talk.answered_of_announcing hsteps.2
  constructor
  case single => exact ht.taken_or_sends
  case whose => exact fun _ _ h => ht.greets_or_speaks h
  case first =>
    intro n name h hasks htells
    obtain ⟨i, ⟨-, hname⟩ | hspeaks⟩ := ht.greets_or_speaks h
    · exact absurd hname (not_or.mpr ⟨hasks, htells⟩)
    · obtain ⟨k, hk, j, hgreets⟩ := ht.greets_of_speaks hspeaks
      exact ⟨k, hk, j, hgreets, hanswered j k hgreets⟩
  case after_told => exact fun _ _ _ h => ht.greets_of_speaks h
  case after_answered => exact hanswered
  case once => exact fun _ _ _ _ hk hm => ht.eq_of_greets hk hm
  case last => exact fun _ _ _ _ hk hm => ht.lt_of_greets hk hm
  case onward => exact fun _ _ _ hk hkm hm => ht.speaks_of_hears_after hk hkm hm
  case plain =>
    intro hplain
    have hnot : ∀ {k m name}, t.Hears k "initialized" → t.Hears m name → (name = "initialize" ∨ name = "initialized") →
        ¬ k < m := by
      intro k m name hk hm hname hkm
      obtain ⟨i, hspeaks⟩ := ht.speaks_of_hears_after hk hkm hm
      exact hplain.not_speaks hname hspeaks
    refine ⟨fun k m hk hm => ?_, fun k m hk hm => ?_⟩
    · exact Nat.le_antisymm (Nat.le_of_not_lt (hnot hm hk (.inr rfl))) (Nat.le_of_not_lt (hnot hk hm (.inr rfl)))
    · refine Nat.lt_of_le_of_ne (Nat.le_of_not_lt (hnot hk hm (.inl rfl))) ?_
      rintro rfl
      obtain ⟨message, hsends, hreads⟩ := hk
      obtain ⟨message', hsends', hreads'⟩ := hm
      exact absurd (hsends.reads_unique hreads hsends' hreads') (by decide)
  case again => exact fun _ _ _ _ hfails hmn hlooks hnobody => ht.starts_of_fails hfails hmn hlooks hnobody

/-- On a channel on which nobody shook hands, whatever calls there are, in whichever order their single accesses come
and whatever else happens: the accesses are those of the program; what the server receives other than `initialize` and
`initialized` comes after a well answered `initialize` and the only `initialized` of the handshakes, which ask for
nothing after that; an `initialize` or `initialized` that comes later is one that a call was asked to pass on; and after
a handshake that failed the next caller shakes hands, unless the session is closed. -/
theorem handshake_comes_first (s : Session) (n : Network) (ch : Channel)
    (schedule : Nat → Turn Ask (Around n.channels.length)) :
    let t : Talk := { session := { s with channel := n.channels.length }, start := n.joined ch, schedule }
    (∀ k, (Ensemble.ofWork Wait.holds (Ask.work t.session) Around.change).play t.start t.schedule k
      = (t.after k).told fun ask spot => spot.work t.session ask) ∧
    t.HandshakeFirst := by
  intro t
  refine ⟨fun k => ?_, ?_⟩
  · have hstart : Ask.work t.session = fun ask => (Spot.ofAsk ask).work t.session ask :=
      funext fun ask => (Spot.work_ofAsk ask).symm
    rw [hstart]
    exact Ensemble.play_followed (x := talks t.session) _ (fun ask spot n => spot.tick_work ask n) t.start t.schedule k
  · refine Talk.Fresh.handshakeFirst ⟨?_, ?_, ?_⟩
    · exact Network.present_joined n ch
    · exact congrArg Channel.phase (Network.channel_joined n ch)
    · have hchannel := Network.channel_joined n ch
      exact (congrArg Channel.turn hchannel).trans (congrArg Channel.turnsGiven hchannel).symm

/-- A notification that is sent at once goes out after both messages of the handshake. -/
example :
    let answer : Json := .obj [("jsonrpc", "2.0"), ("id", .int 1), ("result", .obj [])]
    let schedule : List (Turn Ask (Around 0)) := .begins (.didSave "file:///a") :: .replicate 9 (.step 0) ++
      .around (.receives answer) :: .replicate 9 (.step 0)
    let t : Talk := ⟨{ (default : Session) with channel := 0 }, ({} : Network).joined {}, fun k => schedule.getD k (.step 0)⟩
    (t.channel 20).outgoing.map (fun message => (message.get? "method").bind Json.asStr?)
      = [some "initialize", some "initialized", some "textDocument/didSave"] := by
  rfl

/-- A call that is asked to pass on an `initialize` does so once the handshake is over, so the server receives another one
after `initialized`. -/
theorem initialize_passed_on :
    let answer : Json := .obj [("jsonrpc", "2.0"), ("id", .int 1), ("result", .obj [])]
    let schedule : List (Turn Ask (Around 0)) := .begins (.request "initialize" (.obj [])) :: .replicate 9 (.step 0) ++
      .around (.receives answer) :: .replicate 9 (.step 0)
    let t : Talk := ⟨{ (default : Session) with channel := 0 }, ({} : Network).joined {}, fun k => schedule.getD k (.step 0)⟩
    t.Hears 15 "initialized" ∧ t.Hears 21 "initialize" := by
  intro answer schedule t
  have ht : t.Fresh := ⟨by decide, rfl, rfl⟩
  exact ⟨ht.hears_of_name? (by decide +kernel), ht.hears_of_name? (by decide +kernel)⟩

end Switchboard.Analysis.Session
