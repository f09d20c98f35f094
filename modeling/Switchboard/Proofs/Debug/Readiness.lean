import Switchboard.Debug.Session
import Switchboard.Proofs.Channel.SingleFlight
import Switchboard.Proofs.Debug.Synchronizing

/-!
# How long a debug session is ready

* `Ask`, `Spot`, `asked`: any number of calls on one session, each at one of the places of its work;
* `Spot.tick_work`: a step of the work is a step from spot to spot;
* `TakesBack`: a turn in which somebody marks the channel for its handshake, or takes its mark back;
* `phase_succ`: what can become of a session that is ready, in one turn;
* `ready_until_closed_iff`: in a run a session that is ready stays so until it closes exactly if no such turn comes when
  it is ready.

The second half of the handshake makes a session ready whatever the first half is at. Marks are put and taken back by
the first half without another look at the phase.
-/

namespace Switchboard.Debug.Session.Readiness

open Network (Place Aside Handshake)
open Ensemble (Turn Moment)

/-! ## Calls -/

/-- What is asked of a session. -/
inductive Ask where
  | introduce
  | finish
  | request (command : String) (arguments : Json)
  | shutDown

/-- What the handshake of a session asks of the adapter and notes. -/
def shaking (s : Session) : Network.Call Unit := do
  let body ← Network.request s.channel "initialize" s.initializeArguments
  Network.insertFeature s.channel advertised body

/-- The handshake by what is left of it. -/
abbrev handshake (s : Session) : Handshake Network.Live := .ofCall (shaking s)

/-- What a session makes of the result of its handshake. -/
def introduced (result : Except Channel.Fault Unit) : Task Wait Network (Except Fault Unit) :=
  .done (result.mapError (Fault.ofChannel "initialize"))

/-- The work of a call; what a request returns does not matter here. -/
def Ask.work (s : Session) : Ask → Task Wait Network (Except Fault Unit)
  | introduce => s.introduce.outcome
  | finish => s.finishConfiguration.outcome
  | request command arguments => (s.request command arguments).outcome.andThen fun reply => .done (reply.map fun _ => ())
  | shutDown => s.shutdown.andThen fun _ => .done (.ok ())

/-- Where a call is. -/
inductive Spot where
  | introducing (place : Place Network.Live)
  /-- It does not shake hands. -/
  | other (left : Task Wait Network (Except Fault Unit))

namespace Spot

variable (s : Session)

/-- Where a call begins. -/
def ofAsk : Ask → Spot
  | .introduce => introducing .arriving
  | ask => other (ask.work s)

/-- What is left to do at a spot. -/
def work : Spot → Task Wait Network (Except Fault Unit)
  | introducing place => (place.work s.channel (handshake s)).andThen introduced
  | other left => left

/-- One step, if the spot allows one. -/
def next (n : Network) : Spot → Option (Spot × Network)
  | introducing place => (place.next s.channel (handshake s) n).map fun (place, n) => (introducing place, n)
  | other left => (left.tick? Wait.holds n).map fun (left, n) => (other left, n)

variable {s}

/-- Where a call begins all its work is left. -/
lemma work_ofAsk (ask : Ask) : (ofAsk s ask).work s = ask.work s := by
  cases ask with
  | introduce =>
    show (Network.initializeWith s.channel (handshake s).call).outcome.andThen introduced
      = (Network.initializeWith s.channel (shaking s)).outcome.andThen _
    rw [Handshake.call_ofCall]
    congr 1
    funext result
    cases result <;> rfl
  | _ => rfl

/-- A step of the work that is left at a spot leads to the work that is left at the next one. -/
theorem tick_work (spot : Spot) (n : Network) :
    (spot.work s).tick? Wait.holds n = (spot.next s n).map fun (spot, n) => (spot.work s, n) := by
  cases spot with
  | introducing place =>
    rcases place.eq_gone_or with ⟨ending, rfl⟩ | hgone
    · rfl
    · simp only [work, next, Option.map_map]
      rw [Place.tick_work_andThen introduced hgone]
      rfl
  | other left =>
    simp only [work, next, Option.map_map, Function.comp_def, Prod.mk.eta, Option.map_id']

/-- Whatever is left to do, marks are only put and taken back by who shakes hands. -/
def IsCivil (s : Session) : Spot → Prop
  | introducing place => place.Within (handshake s) (Network.Civil [])
  | other left => left.Within (Network.Civil [])

end Spot

/-- Any number of calls on a session, and anything else that makes the channel ready at most, or closes it. -/
def asked (s : Session) : Ensemble Network Ask Spot (Aside s.channel) where
  start := Spot.ofAsk s
  step := fun _ spot n => spot.next s n
  around := fun e n => e.change n

/-! ## What calls do to the phase -/

section Civil

variable (s : Session)

lemma within_handshake : (handshake s).Within (Network.Civil []) := by
  have hshaking : Attempt.Within (Network.Civil []) (shaking s) :=
    .bind (Network.within_civil_requestUntil List.not_mem_nil _ _) fun _ => Network.within_civil_insertFeature _ _ _
  rw [Handshake.Within, Handshake.rest]
  exact (Network.Live.elim_ofTask (shaking s).outcome).symm ▸ hshaking

lemma isCivil_ofAsk (ask : Ask) : (Spot.ofAsk s ask).IsCivil s := by
  cases ask with
  | introduce => trivial
  | finish => exact s.within_civil_finishConfiguration List.not_mem_nil
  | request command arguments => exact .andThen (s.within_civil_request List.not_mem_nil arguments) fun _ => trivial
  | shutDown => exact .andThen (s.within_civil_shutdown List.not_mem_nil) fun _ => trivial

variable {s} {spot spot' : Spot} {n n' : Network}

lemma Spot.IsCivil.next (h : spot.IsCivil s) (hnext : spot.next s n = some (spot', n')) : spot'.IsCivil s := by
  cases spot with
  | introducing place =>
    obtain ⟨r, hr, heq⟩ := Option.map_eq_some_iff.mp hnext
    obtain ⟨rfl, rfl⟩ := Prod.mk.inj heq
    exact Place.Within.next h (within_handshake s) hr
  | other left =>
    obtain ⟨r, hr, heq⟩ := Option.map_eq_some_iff.mp hnext
    obtain ⟨rfl, rfl⟩ := Prod.mk.inj heq
    exact (Task.Within.tick h hr).2

/-- A call is about to mark the channel for its handshake, or to take its mark back. -/
inductive Spot.IsMarking : Spot → Prop
  | puts (k : Nat) : IsMarking (introducing (.entering k))
  | takesBack (k : Nat) (fault : Channel.Fault) : IsMarking (introducing (.reverting k fault))

/-- What one step of a call does to a session that is closed or ready. -/
lemma Spot.phase_next (h : spot.IsCivil s) (hnext : spot.next s n = some (spot', n')) :
    ((n.channel s.channel).phase = .closed → (n'.channel s.channel).phase = .closed) ∧
    ((n.channel s.channel).phase = .ready → (n'.channel s.channel).phase = .ready ∨
      (n'.channel s.channel).phase = .closed ∨ spot.IsMarking) := by
  cases spot with
  | introducing place =>
    obtain ⟨r, hr, heq⟩ := Option.map_eq_some_iff.mp hnext
    obtain ⟨rfl, rfl⟩ := Prod.mk.inj heq
    have hmoves := fun hphase : (n.channel s.channel).phase ≠ .notInitialized =>
      Place.moves (Network.present_of_phase hphase) (Place.Within.mono (fun _ _ h => h.mild s.channel) h) hr
    constructor
    · intro hclosed
      obtain ⟨-, ended, hmove, -⟩ := hmoves (by rw [hclosed]; nofun)
      exact hmove.ages hclosed
    · intro hready
      obtain ⟨-, ended, hmove, -⟩ := hmoves (by rw [hready]; nofun)
      rcases hmove.of_ready hready with h | h | ⟨k, hk, -⟩ | ⟨k, hk, -⟩
      · exact .inl h
      · exact .inr (.inl h)
      · rw [Place.stand_eq_entering hk]
        exact .inr (.inr (.puts k))
      · obtain ⟨fault, rfl⟩ := Place.stand_eq_reverting hk
        exact .inr (.inr (.takesBack k fault))
  | other left =>
    obtain ⟨r, hr, heq⟩ := Option.map_eq_some_iff.mp hnext
    obtain ⟨rfl, rfl⟩ := Prod.mk.inj heq
    have hmild : Network.Mild s.channel n r.2 := by
      rcases (Task.Within.tick h hr).1 with hcivil | hsame
      · exact hcivil.mild s.channel
      · rw [hsame]
        exact .refl _ n
    exact ⟨hmild.door.ages, fun hready => (hmild.door.of_ready hready).imp_right .inl⟩

/-- Where the channel is marked, or a mark is taken back, the session is not ready any more. -/
lemma Spot.IsMarking.phase_next (h : spot.IsMarking) (hready : (n.channel s.channel).phase = .ready)
    (hnext : spot.next s n = some (spot', n')) :
    (n'.channel s.channel).phase ≠ .ready ∧ (n'.channel s.channel).phase ≠ .closed := by
  have hset : ∀ next, ((n.update s.channel (·.setPhase next)).channel s.channel).phase = next := by
    intro next
    rw [Network.channel_update (Network.present_of_phase (by simp [hready])), Channel.setPhase,
      if_neg (by simp [hready])]
  cases h with
  | puts k =>
    obtain ⟨-, rfl⟩ := Prod.mk.inj (Option.some.inj hnext)
    rw [hset]
    simp
  | takesBack k fault =>
    obtain ⟨-, rfl⟩ := Prod.mk.inj (Option.some.inj hnext)
    rw [hset]
    simp

end Civil

/-! ## Runs -/

/-- The phase of a session after `n` turns. -/
def phaseAt (s : Session) (start : Network) (schedule : Nat → Turn Ask (Aside s.channel)) (n : Nat) : Phase :=
  (((asked s).play start schedule n).state.channel s.channel).phase

/-- In this turn somebody marks the channel for its handshake, or takes its mark back. -/
def Marks (s : Session) (start : Network) (schedule : Nat → Turn Ask (Aside s.channel)) (n : Nat) : Prop :=
  ∃ i spot, schedule n = .step i ∧ ((asked s).play start schedule n).place? i = some spot ∧ spot.IsMarking

section Runs

variable {s : Session} {start : Network} {schedule : Nat → Turn Ask (Aside s.channel)}

lemma isCivil_of_play {n i : Nat} {ask : Ask} {spot : Spot}
    (h : ((asked s).play start schedule n).calls[i]? = some (ask, spot)) : spot.IsCivil s :=
  (asked s).of_place (Q := fun _ spot => spot.IsCivil s) (isCivil_ofAsk s) (fun _ _ _ _ _ h => h.next) h

/-- What one turn does to a session that is closed or ready. -/
lemma phase_succ (s : Session) (start : Network) (schedule : Nat → Turn Ask (Aside s.channel)) (n : Nat) :
    (phaseAt s start schedule n = .closed → phaseAt s start schedule (n + 1) = .closed) ∧
    (phaseAt s start schedule n = .ready → phaseAt s start schedule (n + 1) = .ready ∨
      phaseAt s start schedule (n + 1) = .closed ∨ Marks s start schedule n) := by
  have hturn := (asked s).happens_play start schedule n
  unfold phaseAt
  generalize (asked s).play start schedule (n + 1) = later at hturn
  cases hturn with
  | still => exact ⟨id, .inl⟩
  | begins ask begun => exact ⟨id, .inl⟩
  | moves i ask spot spot' n' mine here steps =>
    obtain ⟨hclosed, hready⟩ := Spot.phase_next (isCivil_of_play here) steps
    refine ⟨hclosed, fun h => ?_⟩
    rcases hready h with h | h | h
    · exact .inl h
    · exact .inr (.inl h)
    · exact .inr (.inr ⟨i, spot, mine, by rw [Moment.place?, here]; rfl, h⟩)
  | around e other =>
    have hdoor := (e.mild ((asked s).play start schedule n).state).door
    exact ⟨hdoor.ages, fun h => (hdoor.of_ready h).imp_right .inl⟩

/-- A session that is ready is not ready after a turn in which a mark is put or taken back. -/
lemma phase_succ_of_marks {n : Nat} (hready : phaseAt s start schedule n = .ready) (h : Marks s start schedule n) :
    phaseAt s start schedule (n + 1) ≠ .ready ∧ phaseAt s start schedule (n + 1) ≠ .closed := by
  obtain ⟨i, spot, hturn, hspot, hmarking⟩ := h
  obtain ⟨⟨ask, spot⟩, hcall, rfl⟩ := Option.map_eq_some_iff.mp hspot
  have hsteps : ∃ spot' n', spot.next s ((asked s).play start schedule n).state = some (spot', n') := by
    cases hmarking with
    | puts k => exact ⟨_, _, rfl⟩
    | takesBack k fault => exact ⟨_, _, rfl⟩
  obtain ⟨spot', n', hnext⟩ := hsteps
  rw [phaseAt, (asked s).play_succ_of_step hturn hcall hnext]
  exact hmarking.phase_next hready hnext

end Runs

/-- Single accesses of any number of calls on a session, in whichever order and whatever else happens, are those of the
program; and up to any time, a session that was ready stays ready until it closes exactly if, whenever it was ready, no
call marked the channel for its handshake or took its mark back. -/
theorem ready_until_closed_iff (s : Session) (start : Network) (schedule : Nat → Turn Ask (Aside s.channel)) :
    (∀ n, (Ensemble.ofWork Wait.holds (Ask.work s) fun (e : Aside s.channel) => e.change).play start schedule n
      = ((asked s).play start schedule n).told fun _ spot => spot.work s) ∧
    ∀ last, (∀ m n, m ≤ n → n ≤ last → phaseAt s start schedule m = .ready →
        phaseAt s start schedule n = .ready ∨ phaseAt s start schedule n = .closed) ↔
      ∀ n < last, phaseAt s start schedule n = .ready → ¬ Marks s start schedule n := by
  refine ⟨fun n => ?_, fun last => ⟨?_, ?_⟩⟩
  · have hstart : Ask.work s = fun ask => ((asked s).start ask).work s := funext fun ask => (Spot.work_ofAsk ask).symm
    rw [hstart]
    exact Ensemble.play_followed (x := asked s) (fun _ spot => spot.work s)
      (fun _ spot n => spot.tick_work n) start schedule n
  · intro hstays n hn hready hmarks
    obtain ⟨hnot, hopen⟩ := phase_succ_of_marks hready hmarks
    rcases hstays n (n + 1) (Nat.le_succ n) hn hready with h | h
    · exact hnot h
    · exact hopen h
  · intro hnever m n hmn hlast hready
    induction n, hmn using Nat.le_induction with
    | base => exact .inl hready
    | succ n hmn ih =>
      rcases ih (Nat.le_of_succ_le hlast) with h | h
      · rcases (phase_succ s start schedule n).2 h with h' | h' | h'
        · exact .inl h'
        · exact .inr h'
        · exact absurd h' (hnever n hlast h)
      · exact .inr ((phase_succ s start schedule n).1 h)

/-! ## A handshake that fails late -/

/-- The adapter refuses the first request. -/
def refuses : Aside 0 where
  change n := n.update 0 fun ch => { ch with pending := ch.pending.answer 1 (.error { message := "no" }) }
  mild _ := .update_quiet fun _ => rfl

/-- The session is made ready while the adapter is still asked to initialize, which it refuses then. -/
def failsLate : List (Turn Ask (Aside 0)) :=
  [.begins .introduce, .step 0, .step 0, .step 0, .step 0, .step 0, .step 0, .step 0, .step 0, .step 0,
    .begins .finish, .step 1, .step 1, .around refuses, .step 0, .step 0, .step 0]

/-- The turns of `failsLate`, and then no more. -/
def failsLateAt (n : Nat) : Turn Ask (Aside 0) := failsLate.getD n (.step 0)

/-- A session over one channel, and that channel. -/
def alone : Session × Network := ({ (default : Session) with channel := 0 }, { channels := [{}] })

/-- The handshake fails when the session is ready, and the session is as if nobody had shaken hands. -/
theorem ready_taken_back_failsLate :
    phaseAt alone.1 alone.2 failsLateAt 13 = .ready ∧ phaseAt alone.1 alone.2 failsLateAt 17 = .notInitialized ∧
    ¬ ∀ m n, m ≤ n → n ≤ 17 → phaseAt alone.1 alone.2 failsLateAt m = .ready →
      phaseAt alone.1 alone.2 failsLateAt n = .ready ∨ phaseAt alone.1 alone.2 failsLateAt n = .closed := by
  refine ⟨rfl, rfl, fun hstays => ?_⟩
  have hmarks : Marks alone.1 alone.2 failsLateAt 16 := ⟨0, _, rfl, rfl, .takesBack 0 _⟩
  exact ((ready_until_closed_iff alone.1 alone.2 failsLateAt).2 17).mp hstays 16 (by decide) rfl hmarks

end Switchboard.Debug.Session.Readiness
