import Switchboard.Proofs.Channel.Framing
import Switchboard.Proofs.Debug.Fairness
import Switchboard.Proofs.Debug.Occupancy

/-!
# No event is lost when an adapter goes

* `Turn.of_work`, `Turn.of_done`, `Turn.looks_lt`: what an access of the loop comes to;
* `Run.exists_settled`: what the loop has taken up it finishes;
* `Run.exists_prefix`, `Run.exists_end`: at a closed channel it handles what had been passed on, and behind the end of
  the stream the session ends;
* `events_handled_before_end`: what was passed on before the channel closed is handled, and then the session ends;
* `Run.Applies`, `applied_before_end`: when what an event says is done to the target; `last_word_before_end`: so the
  target has its exit code, or has ended, before the session ends;
* `Gentle`, `Run.fair_of_gentle`: steps that hinder nobody, of which a fair run is made.
-/

namespace Switchboard.Debug.Running.Hearing

open Channel (Event)
open Channel.Reader (Place events)

/-! ## What an access of the loop comes to -/

/-- How often the loop of a closed channel still looks around before it has something to do. -/
def Spot.looks : Spot → Nat
  | polling => 3
  | checking => 2
  | trying => 1
  | _ => 0

/-- At most one event is in hand. -/
lemma Spot.length_inHand_le (p : Spot) : p.inHand.length ≤ 1 := by cases p <;> simp [inHand]

namespace Turn

variable {x : SessionId} {c : ChannelId} {s s' : State}

/-- A loop that is at work goes on with it. -/
lemma of_work (h : Turn x c s s') {work : Task Wait World Unit} (hat : s.spot.work? = some work)
    (hlive : work ≠ .done ()) :
    ∃ left w, work.tick? World.holds s.world = some (left, w) ∧ s'.spot = s.spot.goOn left ∧
      s'.handled = s.handled := by
  cases h with
  | takes hasks => rcases hasks with hspot | hspot <;> rw [hspot] at hat <;> cases hat
  | overlooks hspot | rests hspot | sees hspot | stops hspot =>
    rw [hspot] at hat
    cases hat
  | works hsame htick =>
    obtain rfl := Option.some.inj (hsame.symm.trans hat)
    exact ⟨_, _, htick, rfl, rfl⟩
  | finishes hdone => exact absurd (Option.some.inj (hat.symm.trans hdone)) hlive

/-- A loop that is done with its work goes on from there. -/
lemma of_done (h : Turn x c s s') (hdone : s.spot.work? = some (.done ())) :
    s'.spot = s.spot.next ∧ s'.handled = s.handled ++ s.spot.inHand := by
  cases h with
  | takes hasks => rcases hasks with hspot | hspot <;> rw [hspot] at hdone <;> cases hdone
  | overlooks hspot | rests hspot | sees hspot | stops hspot =>
    rw [hspot] at hdone
    cases hdone
  | works hsame htick =>
    obtain rfl := Option.some.inj (hsame.symm.trans hdone)
    cases htick
  | finishes _ => exact ⟨rfl, rfl⟩

/-- A loop that looks around at a closed channel does so for a while only. -/
lemma looks_lt (h : Turn x c s s') (hclosed : (s.world.channel c).phase = .closed) (hlooks : 0 < s.spot.looks) :
    s'.spot.looks < s.spot.looks ∧ s'.handled = s.handled := by
  have hidle : s.spot.work? = none := by
    cases hspot : s.spot with
    | polling | checking | trying | ended => rfl
    | handling event work | ending work =>
      rw [hspot] at hlooks
      cases hlooks
  cases h with
  | takes _ _ => exact ⟨hlooks, rfl⟩
  | overlooks hspot | sees hspot _ | stops hspot _ =>
    rw [hspot]
    exact ⟨Nat.lt_succ_self _, rfl⟩
  | rests _ hopen => simp [Channel.isOpen, hclosed] at hopen
  | works hat _ | finishes hat => cases hidle.symm.trans hat

/-- An event that is in hand after an access has just been taken up, or the loop has gone on with it. -/
lemma handling_cases (h : Turn x c s s') {event : Event} {left : Task Wait World Unit}
    (hat : s'.spot = .handling event left) :
    s'.handled = s.handled ∧ (left = handleEvent x event ∨
      ∃ work, s.spot = .handling event work ∧ work.tick? World.holds s.world = some (left, s'.world)) := by
  cases h with
  | takes hasks hfound =>
    obtain ⟨rfl, rfl⟩ := Spot.handling.inj hat
    exact ⟨rfl, .inl rfl⟩
  | overlooks _ | rests _ _ | sees _ _ | stops _ _ => cases hat
  | @works work left' w hwork htick =>
    have hgone : s.spot.goOn left' = .handling event left := hat
    cases hspot : s.spot with
    | handling event' work' =>
      rw [hspot] at hwork hgone
      obtain rfl := Option.some.inj hwork
      obtain ⟨rfl, rfl⟩ := Spot.handling.inj hgone
      exact ⟨rfl, .inr ⟨work', rfl, htick⟩⟩
    | polling | checking | trying | ending _ | ended =>
      rw [hspot] at hgone
      cases hgone
  | finishes hdone =>
    have hgone : s.spot.next = .handling event left := hat
    cases hspot : s.spot with
    | polling | checking | trying | handling _ _ | ending _ | ended =>
      rw [hspot] at hgone
      cases hgone

/-- An event that is handled now was in hand, and nothing was left to do for it. -/
lemma handled_cases (h : Turn x c s s') :
    s'.handled = s.handled ∨ s.spot.work? = some (.done ()) ∧ s'.handled = s.handled ++ s.spot.inHand := by
  cases h with
  | takes _ _ | overlooks _ | rests _ _ | sees _ _ | stops _ _ | works _ _ => exact .inl rfl
  | finishes hdone => exact .inr ⟨hdone, rfl⟩

lemma ne_ended (h : Turn x c s s') : s.spot ≠ .ended := by
  intro hended
  cases h with
  | takes hasks => rcases hasks with hspot | hspot <;> cases hended.symm.trans hspot
  | overlooks hspot | rests hspot | sees hspot | stops hspot => cases hended.symm.trans hspot
  | works hat | finishes hat =>
    rw [hended] at hat
    cases hat

end Turn

/-! ## The loop of a closed channel -/

namespace Run

variable {x : SessionId} {c : ChannelId} {start : State} {r : Run x c start}

/-- A loop that has not ended makes its next access from where it is. -/
lemma exists_turn (hgets : r.GetsOn) (n : Nat) (hspot : (r.state n).spot ≠ .ended) :
    ∃ k, n ≤ k ∧ (r.state k).spot = (r.state n).spot ∧ (r.state k).handled = (r.state n).handled ∧
      Turn x c (r.state k) (r.state (k + 1)) := by
  classical
  have hsome := (hgets n).resolve_left hspot
  obtain ⟨hle, hmoves⟩ := Nat.find_spec hsome
  have hrests : r.viewpoint.Rests n (Nat.find hsome) :=
    ⟨hle, fun k hk hlt hbefore => Nat.find_min hsome hlt ⟨hk, hbefore⟩⟩
  obtain ⟨hsame, hhandled⟩ := still_of_rests hrests
  exact ⟨_, hle, hsame, hhandled, hmoves⟩

/-- A loop that is at work goes on with it. -/
lemma exists_left (hgets : r.GetsOn) {work : Task Wait World Unit} (n : Nat) (hat : (r.state n).spot.work? = some work)
    (hlive : work ≠ .done ()) :
    ∃ k left w, n ≤ k ∧ work.tick? World.holds (r.state k).world = some (left, w) ∧
      (r.state (k + 1)).spot = (r.state n).spot.goOn left ∧ (r.state (k + 1)).handled = (r.state n).handled := by
  have hspot : (r.state n).spot ≠ .ended := by
    intro hended
    rw [hended] at hat
    cases hat
  obtain ⟨k, hk, hsame, hhandled, hturn⟩ := exists_turn hgets n hspot
  obtain ⟨left, w, htick, hnext, hhandled'⟩ := hturn.of_work (hsame.symm ▸ hat) hlive
  exact ⟨k, left, w, hk, htick, by rw [hnext, hsame], hhandled'.trans hhandled⟩

/-- Work comes to its end: each of its accesses leaves less of it. -/
lemma exists_done (hgets : r.GetsOn) {work : Task Wait World Unit} (n : Nat)
    (hat : (r.state n).spot.work? = some work) :
    ∃ k, n ≤ k ∧ (r.state k).spot = (r.state n).spot.goOn (.done ()) ∧
      (r.state k).handled = (r.state n).handled := by
  induction work generalizing n with
  | done u => exact ⟨n, Nat.le_refl n, (Spot.goOn_of_work? hat).symm, rfl⟩
  | access f next ih =>
    obtain ⟨k, left, w, hk, htick, hspot, hhandled⟩ := exists_left hgets n hat (by simp)
    obtain ⟨rfl, -⟩ := Prod.mk.inj (Option.some.inj htick)
    obtain ⟨j, hj, hdone, hhandled'⟩ := ih _ (k + 1) (by rw [hspot, Spot.work?_goOn hat])
    exact ⟨j, by omega, by rw [hdone, hspot, Spot.goOn_goOn], hhandled'.trans hhandled⟩
  | wait on next ih =>
    obtain ⟨k, left, w, hk, htick, hspot, hhandled⟩ := exists_left hgets n hat (by simp)
    rw [Task.tick?] at htick
    split at htick
    · obtain ⟨rfl, -⟩ := Prod.mk.inj (Option.some.inj htick)
      obtain ⟨j, hj, hdone, hhandled'⟩ := ih (k + 1) (by rw [hspot, Spot.work?_goOn hat])
      exact ⟨j, by omega, by rw [hdone, hspot, Spot.goOn_goOn], hhandled'.trans hhandled⟩
    · cases htick

/-- What the loop has taken up it finishes. -/
lemma exists_settled (hgets : r.GetsOn) {work : Task Wait World Unit} (n : Nat)
    (hat : (r.state n).spot.work? = some work) :
    ∃ k, n ≤ k ∧ (r.state k).spot = (r.state n).spot.next ∧
      (r.state k).handled = (r.state n).handled ++ (r.state n).spot.inHand := by
  obtain ⟨k, hk, hdone, hhandled⟩ := exists_done hgets n hat
  have hat' := Spot.work?_goOn hat (.done ())
  rw [← hdone] at hat'
  obtain ⟨j, hj, hsame, hhandled', hturn⟩ := exists_turn hgets k (by rintro hended; rw [hended] at hat'; cases hat')
  obtain ⟨hspot, hall⟩ := hturn.of_done (hsame.symm ▸ hat')
  refine ⟨j + 1, by omega, ?_, ?_⟩
  · rw [hspot, hsame, hdone, Spot.next_goOn]
  · rw [hall, hhandled', hhandled, hsame, hdone, Spot.inHand_goOn]

/-- At a closed channel the loop finds something to do. -/
lemma exists_busy (h : Invariant c start) (hgets : r.GetsOn) {m : Mark} (n : Nat) (hm : (r.state n).mark = some m) :
    ∃ k, n ≤ k ∧ (r.state k).spot.looks = 0 ∧ (r.state k).handled = (r.state n).handled := by
  generalize hlooks : (r.state n).spot.looks = l
  induction l using Nat.strong_induction_on generalizing n with
  | _ l ih =>
    by_cases hzero : l = 0
    · exact ⟨n, Nat.le_refl n, hlooks.trans hzero, rfl⟩
    · have hspot : (r.state n).spot ≠ .ended := by
        intro hended
        rw [hended] at hlooks
        exact hzero hlooks.symm
      obtain ⟨k, hk, hsame, hhandled, hturn⟩ := exists_turn hgets n hspot
      have hclosed := (r.invariant h k).marked.mpr ⟨m, mark_of_le hm hk⟩
      obtain ⟨hless, hhandled'⟩ := hturn.looks_lt hclosed (by rw [hsame, hlooks]; exact Nat.pos_of_ne_zero hzero)
      obtain ⟨j, hj, hbusy, hhandled''⟩ := ih _ (by rwa [hsame, hlooks] at hless) (k + 1) (mark_of_le hm (by omega)) rfl
      exact ⟨j, by omega, hbusy, by rw [hhandled'', hhandled', hhandled]⟩

/-- Of the events that were passed on before the channel closed one after the other is handled. -/
lemma exists_length (h : Invariant c start) (hgets : r.GetsOn) {m : Mark} (n : Nat) (hm : (r.state n).mark = some m)
    (j : Nat) (hj : j ≤ m.before.length) : ∃ k, n ≤ k ∧ j ≤ (r.state k).handled.length := by
  induction j with
  | zero => exact ⟨n, Nat.le_refl n, Nat.zero_le _⟩
  | succ j ih =>
    obtain ⟨k, hk, hlength⟩ := ih (Nat.le_of_succ_le hj)
    obtain ⟨i, hi, hbusy, hhandled⟩ := exists_busy h hgets k (mark_of_le hm hk)
    have hmark := mark_of_le hm (Nat.le_trans hk hi)
    have hover : (r.state i).spot.IsOver → ∃ k, n ≤ k ∧ j + 1 ≤ (r.state k).handled.length := by
      intro hover
      obtain ⟨m', hm', hbefore, -⟩ := (r.invariant h i).ending hover
      obtain rfl := Option.some.inj (hm'.symm.trans hmark)
      exact ⟨i, by omega, Nat.le_trans hj hbefore.length_le⟩
    cases hat : (r.state i).spot with
    | polling | checking | trying =>
      rw [hat] at hbusy
      cases hbusy
    | ending work | ended => exact hover (by rw [hat]; trivial)
    | handling event work =>
      obtain ⟨l, hl, -, hdone⟩ := exists_settled hgets i (show (r.state i).spot.work? = some work by rw [hat]; rfl)
      refine ⟨l, by omega, ?_⟩
      rw [hdone, hhandled, hat, List.length_append]
      exact Nat.succ_le_succ hlength

/-- The loop handles them all. -/
lemma exists_prefix (h : Invariant c start) (hgets : r.GetsOn) {m : Mark} (n : Nat) (hm : (r.state n).mark = some m) :
    ∃ k, n ≤ k ∧ m.before <+: (r.state k).handled := by
  obtain ⟨k, hk, hlength⟩ := exists_length h hgets n hm m.before.length (Nat.le_refl _)
  have hk' := r.invariant h k
  have hhandled : (r.state k).handled <+: (r.state k).passed := by
    rw [hk'.order, List.append_assoc]
    exact List.prefix_append _ _
  have hbefore := (hk'.atEnd m (mark_of_le hm hk)).1
  exact ⟨k, hk, List.prefix_of_prefix_length_le hbefore hhandled hlength⟩

/-- Behind the end of the stream the session ends. -/
lemma exists_end (h : Invariant c start) (hgets : r.GetsOn) {m : Mark} (n : Nat) (hm : (r.state n).mark = some m)
    (hat : m.atEnd = true) : ∃ k, n ≤ k ∧ (r.state k).spot = .ended ∧ (r.state k).handled = m.before := by
  obtain ⟨k, hk, hbefore⟩ := exists_prefix h hgets n hm
  obtain ⟨i, hi, hbusy, hhandled⟩ := exists_busy h hgets k (mark_of_le hm hk)
  have hi' := r.invariant h i
  have hall := (hi'.atEnd m (mark_of_le hm (Nat.le_trans hk hi))).2 hat
  have hended : ∀ k, n ≤ k → (r.state k).spot = .ended → (r.state k).handled = m.before := by
    intro k hk hspot
    obtain ⟨m', hm', -, hsame⟩ := (r.invariant h k).ending (by rw [hspot]; trivial)
    obtain rfl := Option.some.inj (hm'.symm.trans (mark_of_le hm hk))
    exact hsame hat
  cases hspot : (r.state i).spot with
  | polling | checking | trying =>
    rw [hspot] at hbusy
    cases hbusy
  | handling event work =>
    -- everything is handled, so nothing is in hand
    have horder := congrArg List.length hi'.order
    have hlength := hbefore.length_le
    rw [hall, hspot, hhandled] at horder
    simp only [Spot.inHand, List.length_append, List.length_singleton] at horder
    omega
  | ended => exact ⟨i, by omega, hspot, hended i (by omega) hspot⟩
  | ending work =>
    obtain ⟨l, hl, hlast, -⟩ := exists_settled hgets i (show (r.state i).spot.work? = some work by rw [hspot]; rfl)
    rw [hspot, Spot.next] at hlast
    exact ⟨l, by omega, hlast, hended l (by omega) hlast⟩

end Run

/-- Events are handled in the order in which they were passed on, each once; the session ends only when all that were
passed on before its channel closed are handled, and when they are all there are if the channel closed at the end of
the stream. If nobody hinders the loop they are all handled, and behind the end of the stream the session ends. -/
theorem events_handled_before_end (w : World) (x : SessionId) (c : ChannelId) (reader : Place)
    (hattached : Attached w x c) :
    (∀ s, Relation.ReflTransGen (Step x c) (.start c w reader) s → Orderly c s) ∧
      ∀ r : Run x c (.start c w reader), r.Fair → ∀ n m, (r.state n).mark = some m →
        (∃ k, n ≤ k ∧ m.before <+: (r.state k).handled) ∧
          (m.atEnd = true → ∃ k, n ≤ k ∧ (r.state k).spot = .ended ∧ (r.state k).handled = m.before) := by
  have hstart := Invariant.start hattached reader
  constructor
  · intro s hrun
    exact (hstart.run hrun).toOrderly
  · intro r hfair n m hm
    have hgets := Run.getsOn hattached hfair hm
    exact ⟨Run.exists_prefix hstart hgets n hm, Run.exists_end hstart hgets n hm⟩

/-! ## What is done to the target before the session ends -/

/-- What an event says is done to the target in one access, the first one of its handling, unless the event is about the
handshake. -/
lemma tick?_handleEvent {event : Event} (hname : event.name ≠ "initialized") (x : SessionId) (w : World) :
    ∃ left, (handleEvent x event).tick? World.holds w = some (left, (w.applyDebugEvent x event).2) := by
  rw [handleEvent, if_neg hname]
  exact ⟨_, rfl⟩

/-- What an event says is done to the live target of the session. -/
lemma target_applyDebugEvent {w : World} {x : SessionId} {t : Target} (hlive : w.debugger.liveTarget? x = some t)
    (event : Event) : ((w.applyDebugEvent x event).2).target t.id = (t.process_ event.name event.body).1 := by
  have hid := (Target.moves_process t event.name event.body).1
  generalize hafter : (t.process_ event.name event.body).1 = u at hid ⊢
  have hworld : (w.applyDebugEvent x event).2.debugger = w.debugger.putTarget u := by
    simp only [World.applyDebugEvent, hlive, hafter]
    rfl
  have hput := Target.target?_putTarget (List.mem_of_find?_eq_some hlive) hid
  rw [hid] at hput
  show ((w.applyDebugEvent x event).2.debugger.target? t.id).getD default = u
  rw [hworld, hput]
  rfl

namespace Run

variable {x : SessionId} {c : ChannelId} {start : State} {r : Run x c start} {n : Nat}

/-- The access of a run in which what an event says is done to the target: the loop is done with so many events, and
this one is in hand. -/
structure Applies (r : Run x c start) (i : Nat) (event : Event) (k : Nat) : Prop where
  next : (r.state k).handled.length = i
  inHand : (r.state k).spot.inHand = [event]
  world : (r.state (k + 1)).world = ((r.state k).world.applyDebugEvent x event).2

/-- It was done by a time. -/
def AppliedBy (r : Run x c start) (n i : Nat) (event : Event) : Prop := ∃ k < n, r.Applies i event k

lemma AppliedBy.succ {i : Nat} {event : Event} (h : r.AppliedBy n i event) : r.AppliedBy (n + 1) i event := by
  obtain ⟨k, hk, happlies⟩ := h
  exact ⟨k, Nat.lt_succ_of_lt hk, happlies⟩

/-- By a time it was done for each event that is handled, and for the one in hand unless its handling is yet to begin. -/
structure Applied (r : Run x c start) (n : Nat) : Prop where
  handled : ∀ i event, (r.state n).handled[i]? = some event → event.name ≠ "initialized" → r.AppliedBy n i event
  inHand : ∀ event work, (r.state n).spot = .handling event work → event.name ≠ "initialized" →
    work = handleEvent x event ∨ r.AppliedBy n (r.state n).handled.length event

namespace Applied

/-- The loop stays where it is. -/
lemma rests (h : r.Applied n) (hspot : (r.state (n + 1)).spot = (r.state n).spot)
    (hhandled : (r.state (n + 1)).handled = (r.state n).handled) : r.Applied (n + 1) where
  handled i event hi hname := (h.handled i event (hhandled ▸ hi) hname).succ
  inHand event work hat hname := by
    rw [hhandled]
    exact (h.inHand event work (hspot ▸ hat) hname).imp_right AppliedBy.succ

/-- The event in hand is handled, so its handling had begun. -/
lemma of_done (h : r.Applied n) (hdone : (r.state n).spot.work? = some (.done ())) {event : Event}
    (hhand : event ∈ (r.state n).spot.inHand) (hname : event.name ≠ "initialized") :
    r.AppliedBy n (r.state n).handled.length event := by
  cases hspot : (r.state n).spot with
  | handling event' work =>
    rw [hspot] at hdone hhand
    obtain rfl := List.mem_singleton.mp hhand
    obtain rfl := Option.some.inj hdone
    refine (h.inHand event _ hspot hname).resolve_left fun hnew => ?_
    obtain ⟨left, hfirst⟩ := tick?_handleEvent hname x (r.state n).world
    rw [← hnew] at hfirst
    cases hfirst
  | polling | checking | trying | ending _ | ended =>
    rw [hspot] at hhand
    cases hhand

/-- The loop makes an access. -/
lemma turn (h : r.Applied n) (hturn : Turn x c (r.state n) (r.state (n + 1))) : r.Applied (n + 1) where
  handled i event hi hname := by
    rcases hturn.handled_cases with hsame | ⟨hdone, hall⟩
    · exact (h.handled i event (hsame ▸ hi) hname).succ
    · rw [hall] at hi
      rcases Nat.lt_or_ge i (r.state n).handled.length with hlt | hge
      · rw [List.getElem?_append_left hlt] at hi
        exact (h.handled i event hi hname).succ
      · rw [List.getElem?_append_right hge] at hi
        have hfew := (r.state n).spot.length_inHand_le
        obtain ⟨hlt, -⟩ := List.getElem?_eq_some_iff.mp hi
        obtain rfl : i = (r.state n).handled.length := by omega
        exact (h.of_done hdone (List.mem_of_getElem? hi) hname).succ
  inHand event left hat hname := by
    obtain ⟨hhandled, hnew | ⟨work, hspot, htick⟩⟩ := hturn.handling_cases hat
    · exact .inl hnew
    · right
      rw [hhandled]
      rcases h.inHand event work hspot hname with rfl | happlied
      · -- this is the first access of the handling
        obtain ⟨left', hfirst⟩ := tick?_handleEvent hname x (r.state n).world
        obtain ⟨-, hworld⟩ := Prod.mk.inj (Option.some.inj (htick.symm.trans hfirst))
        exact ⟨n, Nat.lt_succ_self n, rfl, by rw [hspot]; rfl, hworld⟩
      · exact happlied.succ

end Applied

/-- That is how it is at all times. -/
lemma applied {w : World} {reader : Place} (r : Run x c (.start c w reader)) (n : Nat) : r.Applied n := by
  induction n with
  | zero =>
    refine ⟨fun i event hi => ?_, fun event work hat => ?_⟩
    · rw [r.start] at hi
      cases hi
    · rw [r.start] at hat
      cases hat
  | succ n ih =>
    by_cases hturn : Turn x c (r.state n) (r.state (n + 1))
    · exact ih.turn hturn
    · obtain ⟨hspot, hhandled⟩ := (r.step n).still hturn
      exact ih.rests hspot hhandled

end Run

section LastWord

variable {x : SessionId} {c : ChannelId} {w : World} {reader : Place} {n i : Nat} {m : Mark} {event : Event}

/-- What an event says that was passed on before the channel closed is done to the target of the session before the
session ends, unless it is about the handshake. -/
theorem applied_before_end (hattached : Attached w x c) (r : Run x c (.start c w reader))
    (hm : (r.state n).mark = some m) (hover : (r.state n).spot.IsOver) (hi : m.before[i]? = some event)
    (hname : event.name ≠ "initialized") : r.AppliedBy n i event := by
  obtain ⟨m', hm', ⟨later, hhandled⟩, -⟩ := (r.invariant (Invariant.start hattached reader) n).ending hover
  obtain rfl := Option.some.inj (hm'.symm.trans hm)
  refine (r.applied n).handled i event ?_ hname
  obtain ⟨hlt, -⟩ := List.getElem?_eq_some_iff.mp hi
  rw [← hhandled, List.getElem?_append_left hlt, hi]

/-- An adapter may say how its program exited, or that the program is gone, and hang up: before the session ends the
target that was live has the code, or has ended with all its threads. -/
theorem last_word_before_end (hattached : Attached w x c) (r : Run x c (.start c w reader))
    (hm : (r.state n).mark = some m) (hover : (r.state n).spot.IsOver) (hi : m.before[i]? = some event)
    (hname : event.name = "exited" ∨ event.name = "terminated") :
    ∃ k < n, r.Applies i event k ∧ ∀ t, (r.state k).world.debugger.liveTarget? x = some t →
      (event.name = "exited" → ∀ b, ExitedBody.shape event.body = .ok b →
        (r.state (k + 1)).world.target t.id = { t with exitCode := some b.exitCode }) ∧
      (event.name = "terminated" → ((r.state (k + 1)).world.target t.id).state = .terminated ∧
        ((r.state (k + 1)).world.target t.id).threads = []) := by
  have hother : event.name ≠ "initialized" := by
    rcases hname with hname | hname <;> rw [hname] <;> decide
  obtain ⟨k, hk, happlies⟩ := applied_before_end hattached r hm hover hi hother
  refine ⟨k, hk, happlies, fun t hlive => ?_⟩
  rw [happlies.world, target_applyDebugEvent hlive]
  constructor
  · intro hexited b hbody
    rw [hexited]
    simp only [Target.process_, Target.withBody, hbody]
  · intro hterminated
    have hlive' : t.isTerminated = false := (Debugger.of_liveTarget?_eq_some hlive).2.2
    rw [hterminated]
    simp [Target.process_, Target.terminate, hlive']

end LastWord

/-! ## Runs to the end of the session -/

section Gentle

variable {x : SessionId} {c : ChannelId} {start s s' : State}

/-- A step that hinders nobody: the loop makes it, or nobody waits and the table of requests and the debugger stay as
they are. -/
def Gentle (x : SessionId) (c : ChannelId) (s s' : State) : Prop :=
  Step x c s s' ∧ (Turn x c s s' ∨ s'.world.debugger = s.world.debugger ∧
    (s.world.channel c).pending.waiting = [] ∧ (s'.world.channel c).pending = (s.world.channel c).pending)

lemma Gentle.turn (h : Turn x c s s') : Gentle x c s s' := ⟨.turn h, .inl h⟩

/-- The same when some time has gone by. -/
def State.later (s : State) (time : Nat) : State :=
  { s with world := { s.world with net := { s.world.net with now := s.world.net.now + time } } }

lemma gentle_later (h : Invariant c s) (hnone : (s.world.channel c).pending.waiting = []) (time : Nat) :
    Gentle x c (s.later time) (s.later (time + 1)) := by
  have haside := Step.aside (x := x) (c := c) (s := s.later time) (w := (s.later (time + 1)).world) (.refl _)
  have hnothing : (s.later (time + 1)).noting c = s.later (time + 1) := congrArg (·.later (time + 1)) h.noting_eq
  refine ⟨?_, .inr ⟨rfl, hnone, rfl⟩⟩
  rw [← hnothing]
  exact haside

namespace Run

/-- Each state of a run is reached from its start. -/
lemma reached (r : Run x c start) (n : Nat) : Relation.ReflTransGen (Step x c) start (r.state n) := by
  induction n with
  | zero => rw [r.start]
  | succ n ih => exact ih.tail (r.step n)

/-- A run with one more access before it. -/
def cons (hstep : Step x c s s') (r : Run x c s') : Run x c s where
  state
    | 0 => s
    | n + 1 => r.state n
  start := rfl
  step n := by
    cases n with
    | zero =>
      show Step x c s (r.state 0)
      rwa [r.start]
    | succ n => exact r.step n

/-- A run to the end of the session goes on for ever. -/
lemma exists_gentle (h : Invariant c s) (hrun : Relation.ReflTransGen (Gentle x c) start s)
    (hnone : (s.world.channel c).pending.waiting = []) :
    ∃ r : Run x c start, (∀ n, Gentle x c (r.state n) (r.state (n + 1))) ∧ ∃ n, ∀ t, r.state (n + t) = s.later t := by
  induction hrun using Relation.ReflTransGen.head_induction_on with
  | refl =>
    have hlater := fun t => gentle_later (x := x) h hnone t
    exact ⟨⟨s.later, rfl, fun t => (hlater t).1⟩, hlater, 0, fun t => congrArg s.later (Nat.zero_add t)⟩
  | @head start next hstep _ ih =>
    obtain ⟨r, hgentle, n, hn⟩ := ih
    refine ⟨cons hstep.1 r, fun i => ?_, n + 1, fun t => ?_⟩
    · cases i with
      | zero =>
        show Gentle x c start (r.state 0)
        rwa [r.start]
      | succ i => exact hgentle i
    · rw [Nat.succ_add]
      exact hn t

/-- Such a run is fair. -/
lemma fair_of_gentle {r : Run x c start} (hgentle : ∀ n, Gentle x c (r.state n) (r.state (n + 1))) {n : Nat}
    (hn : ∀ t, r.state (n + t) = s.later t) (hended : s.spot = .ended) : r.Fair where
  moves i := by
    refine ⟨n + i, Nat.le_add_left i n, .inr fun s' hturn => ?_⟩
    have hspot : (r.state (n + i)).spot = .ended := by
      rw [hn]
      exact hended
    exact hturn.ne_ended hspot
  stays i hmoves := by
    obtain ⟨hdebugger, -⟩ := (hgentle i).2.resolve_left hmoves
    exact World.stays_of_eq (congrArg Debugger.sessions hdebugger)
  obliging := {
    clock := by
      intro t
      refine ⟨n + t, fun i hi => ?_⟩
      obtain ⟨d, rfl⟩ := Nat.exists_eq_add_of_le hi
      show t ≤ (r.state (n + t + d)).world.net.now
      rw [Nat.add_assoc, hn]
      show t ≤ s.world.net.now + (t + d)
      omega
    keeps := by
      intro ticket i _ hmoves
      obtain ⟨-, -, hpending⟩ := (hgentle i).2.resolve_left hmoves
      have hsame : Network.pendingAt (r.viewpoint.part Wait.holds (·.net)) c (i + 1)
          = Network.pendingAt (r.viewpoint.part Wait.holds (·.net)) c i := hpending
      rw [hsame]
      exact .refl ticket _
    drains := by
      intro i hmoves _ _
      obtain ⟨-, hnone, hpending⟩ := (hgentle i).2.resolve_left hmoves
      exact ⟨i + 1, Nat.lt_succ_self i, (congrArg Pending.waiting hpending).trans hnone⟩ }

end Run

end Gentle

/-- The last word of an adapter. -/
def lastWord : Event := ⟨"exited", .obj [("exitCode", .int 3)]⟩

def lastMessage : Json := Dialect.sequenced.notification 1 lastWord.name lastWord.body

/-- The adapter has said its last word and hung up, and nothing of it has been read yet. -/
def partingChannel : Channel :=
  { World.adapterChannel {} "c" with
    incoming := Frame.encodeBody (Utf8.encode lastMessage.text), inputEnded := true }

/-- A target runs on the session of the adapter. -/
def parting (ch : Channel) : World where
  net := { channels := [ch] }
  debugger := { (default : Debugger) with
    sessions := [{ (default : Session) with channel := 0, served := true }]
    targets := [{ id := 1, launch := default, session := 0, state := .running }] }

/-- The channel when the reader has taken the message in, and when it has found the end of the stream. -/
def readChannel (ended : Bool) : Channel :=
  { World.adapterChannel {} "c" with
    heard := [⟨"events", lastWord⟩], inputEnded := true, readerDone := ended }

/-- The reader has read it, and closed the channel behind it. -/
def closedChannel : Channel :=
  { World.adapterChannel {} "c" with
    heard := [⟨"events", lastWord⟩], inputEnded := true, readerDone := true, phase := .closed }

/-- The loop was told of no event before, and has not looked around since. -/
def hungUp : State where
  world := parting closedChannel
  reader := .draining
  spot := .checking
  passed := [lastWord]
  mark := some ⟨[lastWord], true⟩

lemma next_parting : Frame.next .most true partingChannel.incoming = .frame lastMessage [] := by
  have hkept : Json.Kept 2 lastMessage := by
    refine .obj _ fun m hm => ?_
    simp only [lastWord, List.mem_cons, List.not_mem_nil, or_false] at hm
    rcases hm with rfl | rfl | rfl | rfl
    · refine .obj _ fun m hm => ?_
      rw [List.mem_singleton.mp hm]
      exact .int 3 (by decide) (by decide)
    · exact .str _
    · exact .int 1 (by decide) (by decide)
    · exact .str _
  have hreads : Json.readBytes? ⟨(Utf8.encode lastMessage.text).toArray⟩ = some lastMessage := by
    rw [Frame.readBytes?_encode, Json.read?, Json.readRaw?_text hkept (by decide)]
    rfl
  have hfits : (Utf8.encode lastMessage.text).length ≤ Frame.Room.most.bytes := by
    rw [Utf8.encode_eq]
    decide
  have hnext := Frame.next_encodeBody hreads hfits true [] []
  rwa [List.flatMap_nil, List.nil_append, List.append_nil] at hnext

lemma run_hungUp : Relation.ReflTransGen (Gentle 0 0) (.start 0 (parting partingChannel) .reading) hungUp := by
  have hlooks : Gentle 0 0 (.start 0 (parting partingChannel) .reading)
      { world := parting partingChannel, spot := .checking } := .turn (.overlooks rfl)
  -- the event is taken in
  have hframe : Frame.next partingChannel.room partingChannel.inputEnded partingChannel.incoming
      = .frame lastMessage [] := next_parting
  have htaken : Gentle 0 0 { world := parting partingChannel, spot := .checking }
      { world := parting (readChannel false), spot := .checking, passed := [lastWord] } := by
    have hnext : Place.reading.next? partingChannel = some (.reading, readChannel false) := by
      rw [Place.next?, hframe]
      rfl
    have hread := Step.read (x := 0) (c := 0) (s := { world := parting partingChannel, spot := .checking }) hnext
    have harriving : State.arriving 0 { world := parting partingChannel, spot := .checking } = [lastWord] := by
      show events _ (Place.reading.message? partingChannel).toList = _
      rw [Place.message?, hframe]
      rfl
    rw [harriving] at hread
    exact ⟨hread, .inr ⟨rfl, rfl, rfl⟩⟩
  -- the stream is over
  have hover : Frame.next (readChannel false).room (readChannel false).inputEnded (readChannel false).incoming
      = .finished := Frame.next_eq_finished.mpr ⟨rfl, by rintro b ⟨⟩⟩
  have hfinished : Gentle 0 0 { world := parting (readChannel false), spot := .checking, passed := [lastWord] }
      { world := parting (readChannel true), reader := .closing, spot := .checking, passed := [lastWord] } := by
    have hnext : Place.reading.next? (readChannel false) = some (.closing, readChannel true) := by
      rw [Place.next?, hover]
      rfl
    have hread := Step.read (x := 0) (c := 0)
      (s := { world := parting (readChannel false), spot := .checking, passed := [lastWord] }) hnext
    have harriving : State.arriving 0
        { world := parting (readChannel false), spot := .checking, passed := [lastWord] } = [] := by
      show events _ (Place.reading.message? (readChannel false)).toList = _
      rw [Place.message?, hover]
      rfl
    rw [harriving] at hread
    exact ⟨hread, .inr ⟨rfl, rfl, rfl⟩⟩
  have hclosed : Gentle 0 0
      { world := parting (readChannel true), reader := .closing, spot := .checking, passed := [lastWord] } hungUp :=
    ⟨.read rfl, .inr ⟨rfl, rfl, rfl⟩⟩
  exact (((Relation.ReflTransGen.single hlooks).tail htaken).tail hfinished).tail hclosed

/-- The world when the event has been handled. -/
def parted : World := ((handleEvent 0 lastWord).run World.holds (parting { closedChannel with heard := [] })).2

/-- The loop takes the event up, and when it has handled it the session ends. -/
lemma run_parted : ∃ s, Relation.ReflTransGen (Turn 0 0) hungUp s ∧ s.spot = .ended ∧
    (s.world.target 1).exitCode = some 3 ∧ (s.world.channel 0).pending.waiting = [] := by
  have hsees : Turn 0 0 hungUp { hungUp with spot := .trying } := .sees rfl rfl
  have htakes := Turn.takes (x := 0) (c := 0) (s := { hungUp with spot := .trying }) (.inr rfl) rfl
  obtain ⟨s, hhandles, hworld, hspot⟩ := run_followed (x := 0) (c := 0) (handleEvent 0 lastWord) (s := { hungUp with
    world := parting { closedChannel with heard := [] }, spot := .handling lastWord (handleEvent 0 lastWord) }) rfl
  have hdone : s.spot.work? = some (.done ()) := by
    rw [hspot]
    rfl
  have hfinishes : Turn 0 0 s { s with spot := .polling, handled := s.handled ++ [lastWord] } := by
    have hturn := Turn.finishes (x := 0) (c := 0) hdone
    rwa [show s.spot.next = .polling by rw [hspot]; rfl, show s.spot.inHand = [lastWord] by rw [hspot]; rfl] at hturn
  obtain ⟨s', hends, hworld', hspot'⟩ := loopTurn_followed (x := 0) (c := 0) (a := { world := parted })
    (s := { s with spot := .polling, handled := s.handled ++ [lastWord] }) rfl hworld rfl
  have hall := (((Relation.ReflTransGen.single hsees).tail htakes).trans hhandles).trans (.head hfinishes hends)
  refine ⟨s', hall, ?_, ?_, ?_⟩
  · have hended : s'.spot.loop? = some .ended := hspot'
    cases hat : s'.spot with
    | ended => rfl
    | polling | checking | trying | handling event work | ending work =>
      rw [hat] at hended
      cases hended
  · rw [hworld']
    rfl
  · rw [hworld']
    rfl

lemma attached_parting : Attached (parting partingChannel) 0 0 := ⟨by decide, rfl, rfl, rfl⟩

/-- A fair run in which the adapter says its last word and hangs up, and the session ends. -/
lemma exists_run_parted : ∃ r : Run 0 0 (.start 0 (parting partingChannel) .reading), r.Fair ∧
    ∃ n, (r.state n).mark = some ⟨[lastWord], true⟩ ∧ (r.state n).spot = .ended ∧
      ((r.state n).world.target 1).exitCode = some 3 := by
  obtain ⟨s, hturns, hended, hcode, hnone⟩ := run_parted
  have hparts : Relation.ReflTransGen (Gentle 0 0) hungUp s := hturns.lift id fun _ _ => .turn
  have hsteps : ∀ {s s' : State}, Relation.ReflTransGen (Gentle 0 0) s s' → Relation.ReflTransGen (Step 0 0) s s' :=
    fun hrun => hrun.lift id fun _ _ hstep => hstep.1
  have hall := run_hungUp.trans hparts
  have hinvariant := (Invariant.start attached_parting .reading).run (hsteps hall)
  obtain ⟨r, hgentle, n, hn⟩ := Run.exists_gentle hinvariant hall hnone
  have hlast : r.state n = s := hn 0
  refine ⟨r, Run.fair_of_gentle hgentle hn hended, n, ?_, ?_, ?_⟩ <;> rw [hlast]
  · exact mark_of_run (hsteps hparts) rfl
  · exact hended
  · exact hcode

/-- The event is handled although the loop saw the channel closed before it saw the event, and then the session ends. -/
theorem events_handled_before_end_lastWord :
    Attached (parting partingChannel) 0 0 ∧
      ∃ r : Run 0 0 (.start 0 (parting partingChannel) .reading), r.Fair ∧
        ∃ n, (r.state n).mark = some ⟨[lastWord], true⟩ ∧ Orderly 0 (r.state n) ∧
          (∃ k, n ≤ k ∧ (r.state k).spot = .ended ∧ (r.state k).handled = [lastWord]) ∧
          ((r.state n).world.target 1).exitCode = some 3 := by
  obtain ⟨horderly, hhandled⟩ := events_handled_before_end (parting partingChannel) 0 0 .reading attached_parting
  obtain ⟨r, hfair, n, hmark, -, hcode⟩ := exists_run_parted
  exact ⟨attached_parting, r, hfair, n, hmark, horderly _ (r.reached n), (hhandled r hfair n _ hmark).2 rfl, hcode⟩

/-- In that run the target has the code before the session ends. -/
theorem applied_before_end_lastWord :
    ∃ r : Run 0 0 (.start 0 (parting partingChannel) .reading), ∃ n, (r.state n).spot = .ended ∧
      r.AppliedBy n 0 lastWord := by
  obtain ⟨r, -, n, hmark, hended, -⟩ := exists_run_parted
  have hover : (r.state n).spot.IsOver := by
    rw [hended]
    trivial
  exact ⟨r, n, hended, applied_before_end attached_parting r hmark hover rfl (by decide)⟩

end Switchboard.Debug.Running.Hearing
