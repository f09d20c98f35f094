import Switchboard.Proofs.Channel.Turns
import Switchboard.Proofs.Concurrency.Ensemble

/-!
# One handshake at a time

* `Attends`: calls that may take turns for the handshake of a channel, among others that leave its door alone;
  `Attends.orderly`: the door is in order in every run of them;
* `Visit`, `Aside`, `visits`: any number of callers of `Network.initializeWith`, each with a handshake of its own, and
  anything else that happens between two accesses, such as that the channel becomes ready or closes;
* `SingleFlight`: no two handshakes overlap, none starts once one ended well, and what the other callers return;
* `handshakes_in_single_flight`: that is how it is in every run.
-/

namespace Switchboard.Network

open Ensemble (Turn Moment)

/-! ## Runs with a door -/

section Door

variable {σ κ π ε : Type}

/-- Where each call stands; who did not begin is away. -/
def standsAt (stand : π → Stand) (m : Moment σ κ π) (i : Nat) : Stand := (m.place? i).elim .away stand

/-- A call of whom `P` is true. -/
def Somebody (P : π → Prop) (m : Moment σ κ π) : Prop := ∃ i p, m.place? i = some p ∧ P p

/-- What one step does at a door: somebody who stands there moves, or all stand as before and the door is nudged. -/
def Attended (net : σ → Network) (c : ChannelId) (stand : π → Stand) (shaken : π → Prop) (p : π) (s : σ) (p' : π)
    (s' : σ) : Prop :=
  (∃ ended, (stand p).Moves ((net s).channel c).door ended (stand p') ((net s').channel c).door ∧
      (shaken p' ↔ shaken p ∨ ended = some true)) ∨
    stand p' = stand p ∧ (shaken p' ↔ shaken p) ∧ ((net s).channel c).door.Nudged ((net s').channel c).door

/-- Calls that may take turns for the handshake of a channel: `stand` tells where a call stands, `shaken` whether its
handshake ended well, `good` is something that is true of the state at all times, and `fine` of all calls. -/
structure Attends (x : Ensemble σ κ π ε) (net : σ → Network) (c : ChannelId) (stand : π → Stand) (shaken : π → Prop)
    (good : σ → Prop) (fine : σ → κ → π → Prop) : Prop where
  start : ∀ call, stand (x.start call) = .away ∧ ¬ shaken (x.start call)
  step : ∀ call p s p' s', good s → fine s call p → x.step call p s = some (p', s') →
    good s' ∧ fine s' call p' ∧ (∀ other q, fine s other q → fine s' other q) ∧ Attended net c stand shaken p s p' s'
  around : ∀ e s, good s → good (x.around e s) ∧ (∀ call p, fine s call p → fine (x.around e s) call p) ∧
    ((net s).channel c).door.Nudged ((net (x.around e s)).channel c).door

/-- What holds of a channel and its callers at every time. -/
structure InOrder (net : σ → Network) (c : ChannelId) (stand : π → Stand) (shaken : π → Prop) (good : σ → Prop)
    (fine : σ → κ → π → Prop) (m : Moment σ κ π) : Prop where
  good : good m.state
  fine : ∀ (i : Nat) (call : κ) (p : π), m.calls[i]? = some (call, p) → fine m.state call p
  orderly : Orderly ((net m.state).channel c).door (standsAt stand m) (Somebody shaken m)

variable {x : Ensemble σ κ π ε} {net : σ → Network} {c : ChannelId} {stand : π → Stand} {shaken : π → Prop}
  {good : σ → Prop} {fine : σ → κ → π → Prop} {m : Moment σ κ π}

lemma place?_append (m : Moment σ κ π) (call : κ) (p : π) (i : Nat) :
    Moment.place? { m with calls := m.calls ++ [(call, p)] } i = m.place? i ∨
      m.place? i = none ∧ Moment.place? { m with calls := m.calls ++ [(call, p)] } i = some p := by
  simp only [Moment.place?]
  rcases Nat.lt_trichotomy i m.calls.length with hi | rfl | hi
  · exact .inl (by rw [List.getElem?_append_left hi])
  · exact .inr (by simp)
  · left
    rw [List.getElem?_eq_none (by simp; omega), List.getElem?_eq_none (by omega)]

lemma place?_set {m : Moment σ κ π} {call : κ} {p : π} {i : Nat} (hi : m.calls[i]? = some (call, p)) (s : σ) (p' : π)
    (j : Nat) : Moment.place? { m with state := s, calls := m.calls.set i (call, p') } j
      = if j = i then some p' else m.place? j := by
  simp only [Moment.place?]
  by_cases hji : j = i
  · subst hji
    rw [List.getElem?_set_self (List.getElem?_eq_some_iff.mp hi).1, if_pos rfl]
    rfl
  · rw [List.getElem?_set_ne (Ne.symm hji), if_neg hji]

section Calls

variable (stand : π → Stand) (P : π → Prop)

/-- Who begins is away at first. -/
lemma standsAt_append (m : Moment σ κ π) (call : κ) {p : π} (hp : stand p = .away) :
    standsAt stand { m with calls := m.calls ++ [(call, p)] } = standsAt stand m := by
  funext i
  rcases place?_append m call p i with hi | ⟨hnone, hi⟩
  · simp only [standsAt, hi]
  · simp only [standsAt, hi, hnone, Option.elim_some, Option.elim_none, hp]

lemma somebody_append (m : Moment σ κ π) (call : κ) {p : π} (hp : ¬ P p) :
    Somebody P { m with calls := m.calls ++ [(call, p)] } ↔ Somebody P m := by
  constructor
  · rintro ⟨i, q, hi, hq⟩
    rcases place?_append m call p i with hsame | ⟨-, hnew⟩
    · exact ⟨i, q, hsame.symm.trans hi, hq⟩
    · obtain rfl := Option.some.inj (hnew.symm.trans hi)
      exact absurd hq hp
  · rintro ⟨i, q, hi, hq⟩
    rcases place?_append m call p i with hsame | ⟨hnone, -⟩
    · exact ⟨i, q, hsame.trans hi, hq⟩
    · cases hnone.symm.trans hi

variable {call : κ} {p p' : π} {i : Nat}

/-- Who makes a step may stand elsewhere after it. -/
lemma standsAt_set (hi : m.calls[i]? = some (call, p)) (s : σ) (p' : π) :
    standsAt stand { m with state := s, calls := m.calls.set i (call, p') }
      = Function.update (standsAt stand m) i (stand p') := by
  funext j
  simp only [standsAt, place?_set hi, Function.update_apply]
  split <;> rfl

lemma somebody_set (hi : m.calls[i]? = some (call, p)) (s : σ) {Q : Prop} (hp' : P p' ↔ P p ∨ Q) :
    Somebody P { m with state := s, calls := m.calls.set i (call, p') } ↔ Somebody P m ∨ Q := by
  have hplace : m.place? i = some p := by rw [Moment.place?, hi]; rfl
  constructor
  · rintro ⟨j, q, hj, hq⟩
    rw [place?_set hi] at hj
    split at hj
    · obtain rfl := Option.some.inj hj
      exact (hp'.mp hq).imp_left fun hp => ⟨i, p, hplace, hp⟩
    · exact .inl ⟨j, q, hj, hq⟩
  · rintro (⟨j, q, hj, hq⟩ | hQ)
    · by_cases hji : j = i
      · subst hji
        obtain rfl := Option.some.inj (hplace.symm.trans hj)
        exact ⟨j, p', by rw [place?_set hi, if_pos rfl], hp'.mpr (.inl hq)⟩
      · exact ⟨j, q, by rw [place?_set hi, if_neg hji]; exact hj, hq⟩
    · exact ⟨i, p', by rw [place?_set hi, if_pos rfl], hp'.mpr (.inr hQ)⟩

end Calls

lemma standsAt_of_place? {i : Nat} {p : π} (h : m.place? i = some p) : standsAt stand m i = stand p := by
  rw [standsAt, h]
  rfl

lemma standsAt_of_calls {i : Nat} {call : κ} {p : π} (h : m.calls[i]? = some (call, p)) :
    standsAt stand m i = stand p := standsAt_of_place? (by rw [Moment.place?, h]; rfl)

lemma InOrder.begins (h : InOrder net c stand shaken good fine m) (hx : Attends x net c stand shaken good fine) (call : κ)
    (hcall : fine m.state call (x.start call)) :
    InOrder net c stand shaken good fine { m with calls := m.calls ++ [(call, x.start call)] } where
  good := h.good
  fine i call' p hi := by
    rw [List.getElem?_append] at hi
    split at hi
    · exact h.fine i call' p hi
    · obtain ⟨rfl, rfl⟩ := Prod.mk.inj (List.mem_singleton.mp (List.mem_of_getElem? hi))
      exact hcall
  orderly := by
    rw [standsAt_append stand m call (hx.start call).1, propext (somebody_append shaken m call (hx.start call).2)]
    exact h.orderly

lemma InOrder.moves (h : InOrder net c stand shaken good fine m) (hx : Attends x net c stand shaken good fine) {i : Nat}
    {call : κ} {p p' : π} {s : σ} (hi : m.calls[i]? = some (call, p)) (hstep : x.step call p m.state = some (p', s)) :
    InOrder net c stand shaken good fine { state := s, calls := m.calls.set i (call, p') } := by
  obtain ⟨hgood, hfine, hothers, hdoor⟩ := hx.step call p m.state p' s h.good (h.fine i call p hi) hstep
  refine ⟨hgood, ?_, ?_⟩
  · intro j call' q hj
    by_cases hji : i = j
    · subst hji
      rw [List.getElem?_set_self (List.getElem?_eq_some_iff.mp hi).1] at hj
      obtain ⟨rfl, rfl⟩ := Prod.mk.inj (Option.some.inj hj)
      exact hfine
    · rw [List.getElem?_set_ne hji] at hj
      exact hothers call' q (h.fine j call' q hj)
  · have hold : standsAt stand m i = stand p := standsAt_of_calls hi
    rcases hdoor with ⟨ended, hmoves, hended⟩ | ⟨hstand, hsame, hnudged⟩
    · rw [standsAt_set stand hi, propext (somebody_set shaken hi s hended)]
      exact h.orderly.move (hold ▸ hmoves)
    · rw [standsAt_set stand hi, propext (somebody_set shaken hi s (Q := False) (by rw [hsame, or_false])), or_false,
        hstand, ← hold, Function.update_eq_self]
      exact h.orderly.aside hnudged

lemma InOrder.around (h : InOrder net c stand shaken good fine m) (hx : Attends x net c stand shaken good fine) (e : ε) :
    InOrder net c stand shaken good fine { m with state := x.around e m.state } :=
  let ⟨hgood, hfine, hnudged⟩ := hx.around e m.state h.good
  { good := hgood
    fine := fun i call p hi => hfine call p (h.fine i call p hi)
    orderly := h.orderly.aside hnudged }

/-- In every run the door is in order at every time, provided that all is fine with the calls that begin. -/
theorem Attends.inOrder (hx : Attends x net c stand shaken good fine) {s : σ} (hgood : good s)
    (hphase : ((net s).channel c).phase ≠ .initializing) (hturns : ((net s).channel c).turn = ((net s).channel c).turnsGiven)
    {schedule : Nat → Turn κ ε}
    (hbegins : ∀ n call, schedule n = .begins call → fine (x.play s schedule n).state call (x.start call)) (n : Nat) :
    InOrder net c stand shaken good fine (x.play s schedule n) := by
  induction n with
  | zero =>
    refine ⟨hgood, ?_, ?_⟩
    · intro i call p hi
      cases hi
    · have hstands : standsAt stand (x.play s schedule 0) = fun _ => .away := rfl
      have hnobody : Somebody shaken (x.play s schedule 0) = False := by
        refine propext ⟨?_, False.elim⟩
        rintro ⟨i, p, hi, -⟩
        cases hi
      rw [hstands, hnobody]
      exact .fresh hphase (Nat.le_of_eq hturns)
  | succ n ih =>
    have hturn := x.happens_play s schedule n
    generalize x.play s schedule (n + 1) = later at hturn
    cases hturn with
    | still => exact ih
    | begins call begun => exact ih.begins hx call (hbegins n call begun)
    | moves i call p p' s' mine here steps => exact ih.moves hx here steps
    | around e other => exact ih.around hx e

/-- What is closed stays closed. -/
lemma Attends.closed_of_le (hx : Attends x net c stand shaken good fine) {s : σ} {schedule : Nat → Turn κ ε}
    (hrun : ∀ n, InOrder net c stand shaken good fine (x.play s schedule n)) {m n : Nat} (hmn : m ≤ n)
    (hclosed : ((net (x.play s schedule m).state).channel c).phase = .closed) :
    ((net (x.play s schedule n).state).channel c).phase = .closed := by
  induction n, hmn using Nat.le_induction with
  | base => exact hclosed
  | succ n hmn ih =>
    have hn := hrun n
    have hturn := x.happens_play s schedule n
    generalize x.play s schedule (n + 1) = later at hturn
    cases hturn with
    | still => exact ih
    | begins call begun => exact ih
    | moves i call p p' s' mine here steps =>
      obtain ⟨-, -, -, ⟨ended, hmoves, -⟩ | ⟨-, -, hnudged⟩⟩ :=
        hx.step call p _ p' s' hn.good (hn.fine i call p here) steps
      · exact hmoves.ages ih
      · exact hnudged.ages ih
    | around e other => exact (hx.around e _ hn.good).2.2.ages ih

/-- No handshake ended well, and none will without another look at the phase. -/
structure Dormant (stand : π → Stand) (shaken : π → Prop) (m : Moment σ κ π) : Prop where
  unshaken : ¬ Somebody shaken m
  outside : ∀ i k, standsAt stand m i ≠ .entering k ∧ standsAt stand m i ≠ .shaking k

/-- That is how it is when somebody's handshake failed. -/
lemma InOrder.dormant (h : InOrder net c stand shaken good fine m) {i k : Nat} (hi : standsAt stand m i = .reverting k) :
    Dormant stand shaken m where
  unshaken hsh := by
    refine (h.orderly.once hsh).2 i ?_
    rw [hi]
    trivial
  outside := by
    have hinside : ∀ j, (standsAt stand m j).IsInside → standsAt stand m j = .reverting k := by
      intro j hj
      obtain ⟨l, hl⟩ := hj.turn?
      have hji : j = i := h.orderly.alone (by rw [hi]; trivial) (by rw [hl]; nofun)
      rw [hji, hi]
    intro j l
    constructor
    · intro hj
      cases hj.symm.trans (hinside j (by rw [hj]; trivial))
    · intro hj
      cases hj.symm.trans (hinside j (by rw [hj]; trivial))

/-- It stays so until somebody looks at the phase. -/
lemma Attends.dormant_of_le (hx : Attends x net c stand shaken good fine) {s : σ} {schedule : Nat → Turn κ ε}
    (hrun : ∀ n, InOrder net c stand shaken good fine (x.play s schedule n)) {m n : Nat} (hmn : m ≤ n)
    (hlooks : ∀ l, m ≤ l → l < n → ∀ i k, schedule l = .step i → standsAt stand (x.play s schedule l) i ≠ .looking k)
    (h : Dormant stand shaken (x.play s schedule m)) : Dormant stand shaken (x.play s schedule n) := by
  induction n, hmn using Nat.le_induction with
  | base => exact h
  | succ n hmn ih =>
    have hn := ih fun l hml hln => hlooks l hml (Nat.lt_succ_of_lt hln)
    have hturn := x.happens_play s schedule n
    generalize x.play s schedule (n + 1) = later at hturn
    cases hturn with
    | still => exact hn
    | begins call begun =>
      refine ⟨?_, ?_⟩
      · rw [somebody_append shaken _ call (hx.start call).2]
        exact hn.unshaken
      · rw [standsAt_append stand _ call (hx.start call).1]
        exact hn.outside
    | moves i call p p' s' mine here steps =>
      have hold : standsAt stand (x.play s schedule n) i = stand p := standsAt_of_calls here
      have hkept : (shaken p' ↔ shaken p ∨ False) ∧ ∀ k, stand p' ≠ .entering k ∧ stand p' ≠ .shaking k := by
        obtain ⟨-, -, -, ⟨ended, hmoves, hended⟩ | ⟨hstand, hsame, -⟩⟩ :=
          hx.step call p _ p' s' (hrun n).good ((hrun n).fine i call p here) steps
        · rw [← hold] at hmoves
          obtain ⟨rfl, houtside⟩ := hmoves.of_outside (fun k => hlooks n hmn (Nat.lt_succ_self n) i k mine) (hn.outside i)
          exact ⟨by simpa using hended, houtside⟩
        · rw [hsame, hstand, or_false, ← hold]
          exact ⟨Iff.rfl, hn.outside i⟩
      refine ⟨?_, ?_⟩
      · rw [somebody_set shaken here s' hkept.1, or_false]
        exact hn.unshaken
      · rw [standsAt_set stand here]
        intro j k
        rw [Function.update_apply]
        split
        · exact hkept.2 k
        · exact hn.outside j k
    | around e other => exact ⟨hn.unshaken, hn.outside⟩

/-- The channel is ready or closed, and nobody is at a handshake. -/
structure Settled (net : σ → Network) (c : ChannelId) (stand : π → Stand) (m : Moment σ κ π) : Prop where
  phase : ((net m.state).channel c).phase = .ready ∨ ((net m.state).channel c).phase = .closed
  outside : ∀ i, ¬ (standsAt stand m i).IsInside

/-- That is how it is when somebody looks at the phase and finds the channel ready. -/
lemma InOrder.settled (h : InOrder net c stand shaken good fine m) {i k : Nat} (hi : standsAt stand m i = .looking k)
    (hready : ((net m.state).channel c).phase = .ready) : Settled net c stand m where
  phase := .inl hready
  outside j hj := by
    obtain rfl : i = j := h.orderly.alone hj (by rw [hi]; nofun)
    rw [hi] at hj
    exact hj

/-- It stays so. -/
lemma Attends.settled_of_le (hx : Attends x net c stand shaken good fine) {s : σ} {schedule : Nat → Turn κ ε}
    (hrun : ∀ n, InOrder net c stand shaken good fine (x.play s schedule n)) {m n : Nat} (hmn : m ≤ n)
    (h : Settled net c stand (x.play s schedule m)) : Settled net c stand (x.play s schedule n) := by
  have hnudge : ∀ {d d' : Door}, d.Nudged d' → d.phase = .ready ∨ d.phase = .closed →
      d'.phase = .ready ∨ d'.phase = .closed := by
    intro d d' hnudged hphase
    rcases hphase with hready | hclosed
    · exact hnudged.of_ready hready
    · exact .inr (hnudged.ages hclosed)
  induction n, hmn using Nat.le_induction with
  | base => exact h
  | succ n hmn ih =>
    have hturn := x.happens_play s schedule n
    generalize x.play s schedule (n + 1) = later at hturn
    cases hturn with
    | still => exact ih
    | begins call begun =>
      refine ⟨ih.phase, ?_⟩
      rw [standsAt_append stand _ call (hx.start call).1]
      exact ih.outside
    | moves i call p p' s' mine here steps =>
      have hold : standsAt stand (x.play s schedule n) i = stand p := standsAt_of_calls here
      have houtside : ¬ (stand p).IsInside := hold ▸ ih.outside i
      have hkept : (((net s').channel c).phase = .ready ∨ ((net s').channel c).phase = .closed) ∧
          ¬ (stand p').IsInside := by
        obtain ⟨-, -, -, ⟨ended, hmoves, -⟩ | ⟨hstand, -, hnudged⟩⟩ :=
          hx.step call p _ p' s' (hrun n).good ((hrun n).fine i call p here) steps
        · exact hmoves.of_settled ih.phase houtside
        · exact ⟨hnudge hnudged ih.phase, hstand ▸ houtside⟩
      refine ⟨hkept.1, ?_⟩
      rw [standsAt_set stand here]
      intro j
      rw [Function.update_apply]
      split
      · exact hkept.2
      · exact ih.outside j
    | around e other => exact ⟨hnudge (hx.around e _ (hrun n).good).2.2 ih.phase, ih.outside⟩

end Door

/-! ## Callers with their handshakes -/

/-- A caller with its handshake, which leaves the turns of the channel alone and moves it to no phase but ready. -/
structure Visit (c : ChannelId) where
  handshake : Call Unit
  mild : Attempt.Within (Mild c) handshake

/-- Where such a caller is. -/
abbrev Visit.Place := Network.Place Live

/-- What is left to do for it there. -/
def Visit.work {c : ChannelId} (v : Visit c) (p : Visit.Place) : Shaking := p.work c (.ofCall v.handshake)

/-- Something else that happens between two accesses. -/
structure Aside (c : ChannelId) where
  change : Network → Network
  mild : ∀ n, Mild c n (change n)

/-- The channel becomes ready. -/
def Aside.ready (c : ChannelId) : Aside c where
  change n := n.update c (·.setPhase .ready)
  mild _ := .update fun ch => by
    rw [Channel.door_setPhase]
    exact .ready _

/-- The channel closes. -/
def Aside.closed (c : ChannelId) : Aside c where
  change n := n.update c (·.markClosed)
  mild _ := .update fun ch => .closed ch.door

/-- Any number of callers of `initializeWith`. -/
def visits (c : ChannelId) : Ensemble Network (Visit c) Visit.Place (Aside c) where
  start := fun _ => .arriving
  step := fun v p n => p.next c (.ofCall v.handshake) n
  around := fun e n => e.change n

/-- A network with one more channel, on which nobody shook hands. -/
def joined (n : Network) (ch : Channel) : Network :=
  (n.connect { ch with phase := .notInitialized, turn := 0, turnsGiven := 0 }).2

lemma present_joined (n : Network) (ch : Channel) : n.channels.length < (n.joined ch).channels.length := by
  simp [joined, connect]

lemma channel_joined (n : Network) (ch : Channel) :
    (n.joined ch).channel n.channels.length = { ch with phase := .notInitialized, turn := 0, turnsGiven := 0 } := by
  simp [joined, connect, channel]

section Single

variable {c : ChannelId}

/-- In this turn a caller finds that no handshake was tried, and goes on with its own. -/
def Starts (run : Nat → Moment Network (Visit c) Visit.Place) (n i : Nat) : Prop :=
  ∃ k, (run n).place? i = some (.looking k) ∧ (run (n + 1)).place? i = some (.entering k)

/-- In this turn a caller finds the channel in a phase in which its handshake is not needed, or no use. -/
def Passes (run : Nat → Moment Network (Visit c) Visit.Place) (n i : Nat) : Prop :=
  ∃ k ending, (run n).place? i = some (.looking k) ∧ (run (n + 1)).place? i = some (.leaving k ending)

/-- The handshake of a caller returned. -/
def Returned (m : Moment Network (Visit c) Visit.Place) (i : Nat) (result : Except Channel.Fault Unit) : Prop :=
  ∃ p, m.place? i = some p ∧ p.shook? = some result

/-- What single flight means. A handshake runs from the look at the phase that lets it start to its end, and to the
taking back of the mark if it fails. -/
structure SingleFlight (c : ChannelId) (run : Nat → Moment Network (Visit c) Visit.Place) : Prop where
  /-- No two handshakes overlap. -/
  apart : ∀ n i j p q, (run n).place? i = some p → (run n).place? j = some q → p.stand.IsInside →
    q.stand.IsInside → i = j
  /-- A handshake starts only where none was tried. -/
  starts : ∀ n i, Starts run n i → ((run n).state.channel c).phase = .notInitialized
  /-- Between the look and the mark the channel may become ready or close, but nobody else marks it. -/
  marks : ∀ n i k, (run n).place? i = some (.entering k) → ((run n).state.channel c).phase ≠ .initializing
  /-- After one handshake returned well none starts, and none is running. -/
  once : ∀ m n i, m ≤ n → Returned (run m) i (.ok ()) →
    (∀ j, ¬ Starts run n j) ∧ ∀ j p, (run n).place? j = some p → ¬ p.stand.IsInside
  /-- A caller that ran its handshake returns what that returned. -/
  own : ∀ n i ending, (run n).place? i = some (.gone ending) → (∃ m, Starts run m i) →
    ∃ result, ending = .shook result
  /-- Any other caller looked at the phase once. It fails if the channel was closed; otherwise the channel was ready or
  some handshake had returned well. -/
  others : ∀ n i ending, (run n).place? i = some (.gone ending) → (∀ m, ¬ Starts run m i) →
    ∃ m < n, Passes run m i ∧
      (((run m).state.channel c).phase = .closed → ending.result = .error .closed) ∧
      (ending.result = .ok () →
        ((run m).state.channel c).phase = .ready ∨ ∃ l ≤ m, ∃ j, Returned (run l) j (.ok ()))
  /-- Whoever comes when the channel is closed fails. -/
  refused : ∀ m n i ending, ((run m).state.channel c).phase = .closed → (run m).place? i = none →
    (run n).place? i = some (.gone ending) → ending.result = .error .closed
  /-- What is closed stays closed. -/
  closed : ∀ m n, m ≤ n → ((run m).state.channel c).phase = .closed → ((run n).state.channel c).phase = .closed

section Steps

variable {γ : Type} {h : Handshake γ} {p p' : Place γ} {n n' : Network}

lemma Place.shook?_next {result : Except Channel.Fault Unit} (hp : p.shook? = some result)
    (hnext : p.next c h n = some (p', n')) : p'.shook? = some result := by
  cases goes hnext with
  | takes | called | begins | passes | enters | works => cases hp
  | reverts => exact hp
  | leaves k ending => cases ending <;> exact hp

lemma Place.phase_of_begins {k : Nat} (hnext : (looking k).next c h n = some (entering k, n')) :
    (n.channel c).phase = .notInitialized := by
  cases goes hnext with
  | begins _ found => exact found

end Steps

lemma Visit.within (v : Visit c) : (Handshake.ofCall v.handshake).Within (Mild c) := by
  rw [Handshake.Within, Handshake.rest]
  exact (Live.elim_ofTask v.handshake.outcome).symm ▸ v.mild

lemma attends_visits (c : ChannelId) : Attends (visits c) id c Place.stand Place.IsShaken (c < ·.channels.length)
    fun _ v p => p.Within (.ofCall v.handshake) (Mild c) where
  start _ := ⟨rfl, nofun⟩
  step v _ _ _ _ hc hp h :=
    let ⟨hc', moves⟩ := Place.moves hc hp h
    ⟨hc', hp.next v.within h, fun _ _ => id, .inl moves⟩
  around e n hc := ⟨(e.mild n).present hc, fun _ _ => id, (e.mild n).door⟩

/-! ## What holds in every run -/

section Runs

variable {n₀ : Network} {schedule : Nat → Turn (Visit c) (Aside c)} {n i : Nat} {p : Visit.Place}

lemma exists_call_of_place? {m : Moment Network (Visit c) Visit.Place} (h : m.place? i = some p) :
    ∃ v, m.calls[i]? = some (v, p) := by
  obtain ⟨⟨v, q⟩, hv, rfl⟩ := Option.map_eq_some_iff.mp h
  exact ⟨v, hv⟩

/-- From one time to the next a caller stays, or it makes a step. -/
lemma goes_or_stays (h : ((visits c).play n₀ schedule n).place? i = some p) :
    ((visits c).play n₀ schedule (n + 1)).place? i = some p ∨
      ∃ v p', p.next c (.ofCall v) ((visits c).play n₀ schedule n).state
          = some (p', ((visits c).play n₀ schedule (n + 1)).state) ∧
        ((visits c).play n₀ schedule (n + 1)).place? i = some p' := by
  obtain ⟨v, hv⟩ := exists_call_of_place? h
  rcases (visits c).step_or_stay hv with hstay | ⟨p', -, hstep, hp'⟩
  · exact .inl (by rw [Moment.place?, hstay]; rfl)
  · exact .inr ⟨v.handshake, p', hstep, by rw [Moment.place?, hp']; rfl⟩

/-- What every step keeps stays true of a caller. -/
lemma place?_of_le {Q : Visit.Place → Prop}
    (hQ : ∀ v p n p' n', Q p → p.next c (.ofCall v) n = some (p', n') → Q p') {m : Nat} (hmn : m ≤ n)
    (h : ((visits c).play n₀ schedule m).place? i = some p) (hp : Q p) :
    ∃ q, ((visits c).play n₀ schedule n).place? i = some q ∧ Q q := by
  obtain ⟨v, hv⟩ := exists_call_of_place? h
  obtain ⟨q, hq, hQq⟩ := (visits c).place_of_le (Q := fun _ p => Q p)
    (fun call p s p' s' hp hstep => hQ call.handshake p s p' s' hp hstep) hmn hv hp
  exact ⟨q, by rw [Moment.place?, hq]; rfl, hQq⟩

/-- What is true of a caller and was not when it came became true in one of its steps. -/
lemma exists_step_of_place? {Q : Visit.Place → Prop} (hstart : ¬ Q .arriving)
    (h : ((visits c).play n₀ schedule n).place? i = some p) (hp : Q p) :
    ∃ m < n, ∃ v before after, ((visits c).play n₀ schedule m).place? i = some before ∧ ¬ Q before ∧
      before.next c (.ofCall v) ((visits c).play n₀ schedule m).state
        = some (after, ((visits c).play n₀ schedule (m + 1)).state) ∧
      ((visits c).play n₀ schedule (m + 1)).place? i = some after ∧ Q after := by
  obtain ⟨v, hv⟩ := exists_call_of_place? h
  obtain ⟨m, hm, before, after, -, hbefore, hnot, hstep, hafter, hQ⟩ :=
    (visits c).exists_step_of_place (Q := fun _ p => Q p) (fun _ => hstart) hv hp
  exact ⟨m, hm, v.handshake, before, after, by rw [Moment.place?, hbefore]; rfl, hnot, hstep,
    by rw [Moment.place?, hafter]; rfl, hQ⟩

lemma phase_of_starts (h : Starts ((visits c).play n₀ schedule) n i) :
    (((visits c).play n₀ schedule n).state.channel c).phase = .notInitialized := by
  obtain ⟨k, hlook, henter⟩ := h
  rcases goes_or_stays hlook with hstay | ⟨v, p', hstep, hp'⟩
  · cases hstay.symm.trans henter
  · obtain rfl := Option.some.inj (hp'.symm.trans henter)
    exact Place.phase_of_begins hstep

/-- A caller that once started to shake hands ends with the result of its handshake. -/
lemma shook_of_starts {m : Nat} {ending : Ending} (hgone : ((visits c).play n₀ schedule n).place? i = some (.gone ending))
    (h : Starts ((visits c).play n₀ schedule) m i) : ∃ result, ending = .shook result := by
  obtain ⟨k, hlook, henter⟩ := h
  rcases Nat.lt_or_ge m n with hmn | hnm
  · obtain ⟨q, hq, hstarted⟩ := place?_of_le (Q := fun p => p.looked? = some none)
      (fun _ _ _ _ _ => Place.looked?_next) hmn henter rfl
    obtain rfl := Option.some.inj (hgone.symm.trans hq)
    cases ending with
    | shook result => exact ⟨result, rfl⟩
    | found phase => cases hstarted
  · obtain ⟨q, hq, rfl⟩ := place?_of_le (Q := fun p => p = .gone ending)
      (fun _ _ _ _ _ hp hstep => by subst hp; cases hstep) hnm hgone rfl
    cases hlook.symm.trans hq

/-- A caller that has its handshake's result once started to shake hands. -/
lemma starts_of_shook {result : Except Channel.Fault Unit}
    (hgone : ((visits c).play n₀ schedule n).place? i = some (.gone (.shook result))) :
    ∃ m, Starts ((visits c).play n₀ schedule) m i := by
  obtain ⟨m, -, v, before, after, hbefore, hnot, hstep, hafter, hstarted⟩ :=
    exists_step_of_place? (Q := fun p => p.looked? = some none) nofun hgone rfl
  obtain ⟨k, rfl, ⟨-, rfl, -⟩ | ⟨phase, hphase, -⟩⟩ := Place.looking_of_looked hnot hstep hstarted
  · exact ⟨m, k, hbefore, hafter⟩
  · cases hphase

/-- A caller that found the channel in some phase looked at it at some time. -/
lemma passes_of_found {phase : Phase}
    (hgone : ((visits c).play n₀ schedule n).place? i = some (.gone (.found phase))) :
    ∃ m < n, ∃ k, ((visits c).play n₀ schedule m).place? i = some (.looking k) ∧
      ((visits c).play n₀ schedule (m + 1)).place? i = some (.leaving k (.found phase)) ∧
      (((visits c).play n₀ schedule m).state.channel c).phase = phase ∧ phase ≠ .notInitialized := by
  obtain ⟨m, hm, v, before, after, hbefore, hnot, hstep, hafter, hfound⟩ :=
    exists_step_of_place? (Q := fun p => p.looked? = some (some phase)) nofun hgone rfl
  obtain ⟨k, rfl, ⟨hphase, -⟩ | ⟨found, hphase, rfl, hfound, htried⟩⟩ := Place.looking_of_looked hnot hstep hfound
  · cases hphase
  · obtain rfl := Option.some.inj hphase
    exact ⟨m, hm, k, hbefore, hafter, hfound, htried⟩

/-- A handshake that returned well is known from then on. -/
lemma shaken_of_returned {m : Nat} (hmn : m ≤ n) (h : Returned ((visits c).play n₀ schedule m) i (.ok ())) :
    Somebody Place.IsShaken ((visits c).play n₀ schedule n) := by
  obtain ⟨p, hp, hshook⟩ := h
  obtain ⟨q, hq, hshaken⟩ := place?_of_le (Q := Place.IsShaken) (fun _ _ _ _ _ hp hstep => Place.shook?_next hp hstep)
    hmn hp hshook
  exact ⟨i, q, hq, hshaken⟩

/-- Who comes later than some moment looks at the phase later than that. -/
lemma le_of_place? {m : Nat} (hnone : ((visits c).play n₀ schedule n).place? i = none)
    (h : ((visits c).play n₀ schedule m).place? i = some p) : n ≤ m := by
  by_contra hlt
  obtain ⟨q, hq, -⟩ := place?_of_le (Q := fun _ => True) (fun _ _ _ _ _ _ _ => trivial) (Nat.le_of_not_le hlt) h trivial
  cases hnone.symm.trans hq

/-- Single flight on a channel on which nobody shook hands. -/
theorem singleFlight_visits (hc : c < n₀.channels.length) (hphase : (n₀.channel c).phase ≠ .initializing)
    (hturns : (n₀.channel c).turn = (n₀.channel c).turnsGiven) (schedule : Nat → Turn (Visit c) (Aside c)) :
    SingleFlight c ((visits c).play n₀ schedule) := by
  have hrun : ∀ n, InOrder id c Place.stand Place.IsShaken (c < ·.channels.length)
      (fun _ (v : Visit c) p => p.Within (.ofCall v.handshake) (Mild c)) ((visits c).play n₀ schedule n) :=
    (attends_visits c).inOrder (s := n₀) hc hphase hturns fun _ _ _ => trivial
  have hclosed : ∀ m n, m ≤ n → (((visits c).play n₀ schedule m).state.channel c).phase = .closed →
      (((visits c).play n₀ schedule n).state.channel c).phase = .closed := fun m n hmn =>
    (attends_visits c).closed_of_le hrun hmn
  constructor
  case apart =>
    intro n i j p q hi hj hp hq
    have hstand : ∀ {i : Nat} {p : Visit.Place}, ((visits c).play n₀ schedule n).place? i = some p →
        standsAt Place.stand ((visits c).play n₀ schedule n) i = p.stand := standsAt_of_place?
    rw [← hstand hi] at hp
    rw [← hstand hj] at hq
    obtain ⟨k, hk⟩ := hp.turn?
    exact (hrun n).orderly.alone hq (by rw [hk]; nofun)
  case starts => exact fun n i => phase_of_starts
  case marks =>
    intro n i k hi
    exact (hrun n).orderly.phase_of_entering (standsAt_of_place? hi)
  case once =>
    intro m n i hmn hreturned
    have hnone : ∀ n, m ≤ n → ∀ j p, ((visits c).play n₀ schedule n).place? j = some p → ¬ p.stand.IsInside := by
      intro n hmn j p hj
      have hstand : standsAt Place.stand ((visits c).play n₀ schedule n) j = p.stand := standsAt_of_place? hj
      rw [← hstand]
      exact ((hrun n).orderly.once (shaken_of_returned hmn hreturned)).2 j
    refine ⟨?_, hnone n hmn⟩
    rintro j ⟨k, -, henter⟩
    exact hnone (n + 1) (Nat.le_succ_of_le hmn) j _ henter trivial
  case own =>
    rintro n i ending hgone ⟨m, hstarts⟩
    exact shook_of_starts hgone hstarts
  case others =>
    intro n i ending hgone hnever
    cases ending with
    | shook result =>
      obtain ⟨m, hm⟩ := starts_of_shook hgone
      exact absurd hm (hnever m)
    | found phase =>
      obtain ⟨m, hm, k, hlook, hleave, rfl, htried⟩ := passes_of_found hgone
      refine ⟨m, hm, ⟨k, _, hlook, hleave⟩, ?_, ?_⟩
      · intro h
        rw [h]
        rfl
      · intro hok
        cases hphase : (((visits c).play n₀ schedule m).state.channel c).phase with
        | notInitialized => exact absurd hphase htried
        | initializing =>
          obtain ⟨j, p, hj, hp⟩ := (hrun m).orderly.shaken_of_looking (standsAt_of_place? hlook) hphase
          exact .inr ⟨m, Nat.le_refl m, j, p, hj, hp⟩
        | ready => exact .inl rfl
        | closed =>
          rw [hphase] at hok
          cases hok
  case refused =>
    intro m n i ending hphase hnone hgone
    cases ending with
    | shook result =>
      obtain ⟨l, hl⟩ := starts_of_shook hgone
      obtain ⟨k, hlook, -⟩ := id hl
      have hlclosed := hclosed m l (le_of_place? hnone hlook) hphase
      cases hlclosed.symm.trans (phase_of_starts hl)
    | found phase =>
      obtain ⟨l, -, k, hlook, -, rfl, -⟩ := passes_of_found hgone
      rw [hclosed m l (le_of_place? hnone hlook) hphase]
      rfl
  case closed => exact hclosed

end Runs

end Single

/-- Whatever the handshakes of the callers do and whatever else happens, in whichever order: single accesses are those
of the program; no two handshakes overlap; a handshake starts only where none was tried; after one returned well none
starts; a caller without a handshake of its own returns well only if the channel was ready or a handshake had returned
well, and fails if the channel was closed; and the channel stays closed. -/
theorem handshakes_in_single_flight (n : Network) (ch : Channel)
    (schedule : Nat → Turn (Visit n.channels.length) (Aside n.channels.length)) :
    let c := n.channels.length
    let run := (visits c).play (n.joined ch) schedule
    (∀ k, (Ensemble.ofWork Wait.holds (fun v : Visit c => (initializeWith c v.handshake).outcome)
        fun (e : Aside c) => e.change).play (n.joined ch) schedule k
      = (run k).told Visit.work) ∧
    SingleFlight c run := by
  intro c run
  refine ⟨?_, ?_⟩
  · have hstart : (fun v : Visit c => (initializeWith c v.handshake).outcome) = fun v => v.work .arriving := by
      funext v
      rw [Visit.work, Place.work, Handshake.call_ofCall]
    rw [hstart]
    exact Ensemble.play_followed (x := visits c) _ (fun v p s => Place.tick_work p s) (n.joined ch) schedule
  · apply singleFlight_visits
    · exact present_joined n ch
    · rw [channel_joined]
      rintro ⟨⟩
    · rw [channel_joined]

/-- A second caller waits, and shakes hands when the handshake of the first one failed; a third one need not. -/
example :
    let schedule : List (Turn (Visit 0) (Aside 0)) :=
      [.begins ⟨throw (.transport "broken pipe"), trivial⟩, .begins ⟨pure (), trivial⟩, .step 0, .step 1, .step 1,
        .step 0, .step 0, .step 0, .step 0, .step 0, .step 1, .step 1, .step 1, .step 1,
        .begins ⟨pure (), trivial⟩, .step 2, .step 2, .step 2, .step 2]
    let last := (visits 0).play (({} : Network).joined {}) (fun k => schedule.getD k (.step 0)) schedule.length
    (last.place? 0, last.place? 1, last.place? 2)
      = (some (.gone (.shook (.error (.transport "broken pipe")))), some (.gone (.shook (.ok ()))),
        some (.gone (.found .initializing))) := by
  rfl

end Switchboard.Network
