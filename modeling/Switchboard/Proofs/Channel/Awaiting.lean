import Switchboard.Proofs.Channel.Stage
import Switchboard.Proofs.Channel.Table
import Switchboard.Proofs.Channel.Traffic
import Switchboard.Proofs.Concurrency.Awaiting

/-!
# Calls over a channel that closes

* `Pending.Keeps`: who else is at a table of requests leaves the end of a wait to the caller who waits;
* `Network.Obliging`: what a caller can count on;
* `Network.Leaving.ends_request`, `ends_shutdown`: then every call over a channel that closes comes to its end,
  also a request without a deadline.

A request that took its number while the channel was open is given up by whoever closes the channel. One that took it
too late sees that the channel is closed, and does not wait.
-/

namespace Switchboard

namespace Pending

/-- Somebody waits under the ticket. -/
def Awaits (p : Pending) (ticket : Nat) : Prop := ∃ id, (id, ticket) ∈ p.waiting

/-- The wait under the ticket is over. -/
def IsOver (p : Pending) (ticket : Nat) : Prop := (p.settlement? ticket).isSome = true

/-- A wait goes on until it is over, and how it ended is left to who waited. -/
structure Keeps (ticket : Nat) (p p' : Pending) : Prop where
  awaits : p.Awaits ticket → p'.Awaits ticket ∨ p'.IsOver ticket
  isOver : p.IsOver ticket → p'.IsOver ticket

lemma Keeps.refl (ticket : Nat) (p : Pending) : Keeps ticket p p := ⟨.inl, id⟩

lemma not_awaits_of_waiting {p : Pending} (h : p.waiting = []) (ticket : Nat) : ¬ p.Awaits ticket := by
  rintro ⟨id, hmem⟩
  rw [h] at hmem
  cases hmem

end Pending

namespace Network

/-- The table of a channel at a time. -/
def pendingAt (v : Viewpoint Wait Network) (c : ChannelId) (n : Nat) : Pending := ((v.state n).channel c).pending

def phaseAt (v : Viewpoint Wait Network) (c : ChannelId) (n : Nat) : Phase := ((v.state n).channel c).phase

/-- The thread took the ticket before. -/
def Took (v : Viewpoint Wait Network) (c : ChannelId) (ticket n : Nat) : Prop :=
  ∃ m, m < n ∧ v.turn m ∧ (pendingAt v c m).next = ticket ∧ (pendingAt v c (m + 1)).next = ticket + 1

/-- What a caller can count on: time goes by, the others leave it what comes of its requests, and when one of them
closes the channel the requests that wait are given up. -/
structure Obliging (v : Viewpoint Wait Network) (c : ChannelId) : Prop where
  clock : ∀ t, ∃ l, ∀ n, l ≤ n → t ≤ (v.state n).now
  keeps : ∀ ticket n, Took v c ticket n → ¬ v.turn n → Pending.Keeps ticket (pendingAt v c n) (pendingAt v c (n + 1))
  drains : ∀ n, ¬ v.turn n → phaseAt v c n ≠ .closed → phaseAt v c (n + 1) = .closed →
    ∃ m, n < m ∧ (pendingAt v c m).waiting = []

/-- The run of a caller over a channel that closes. -/
structure Leaving (v : Viewpoint Wait Network) (c : ChannelId) : Prop extends Obliging v c where
  holds : v.holds = Wait.holds
  present : ∀ n, c < (v.state n).channels.length
  closes : ∃ l, ∀ n, l ≤ n → phaseAt v c n = .closed

variable {v : Viewpoint Wait Network} {c : ChannelId}

/-- The caller took the ticket at a time, and since then its wait goes on or is over. -/
structure Enrolled (v : Viewpoint Wait Network) (c : ChannelId) (ticket since n : Nat) : Prop where
  lt : since < n
  turn : v.turn since
  next : (pendingAt v c since).next = ticket ∧ (pendingAt v c (since + 1)).next = ticket + 1
  awaits : (pendingAt v c (since + 1)).Awaits ticket
  keeps : ∀ m, since < m → m < n → Pending.Keeps ticket (pendingAt v c m) (pendingAt v c (m + 1))

/-- After that the caller found the channel open, and has not closed it since. -/
def Verified (v : Viewpoint Wait Network) (c : ChannelId) (since n : Nat) : Prop :=
  ∃ m, since < m ∧ m < n ∧ phaseAt v c m ≠ .closed ∧
    ∀ k, m ≤ k → k < n → v.turn k → phaseAt v c (k + 1) = phaseAt v c k

namespace Enrolled

variable {ticket since n m : Nat}

lemma step (h : Enrolled v c ticket since n)
    (hkeeps : Pending.Keeps ticket (pendingAt v c n) (pendingAt v c (n + 1))) : Enrolled v c ticket since (n + 1) :=
  { h with
    lt := Nat.lt_succ_of_lt h.lt
    keeps := fun m hm hlt => by
      rcases Nat.lt_succ_iff_lt_or_eq.mp hlt with hlt | rfl
      · exact h.keeps m hm hlt
      · exact hkeeps }

lemma later (h : Enrolled v c ticket since n) (hv : Obliging v c) (hrests : v.Rests n m) :
    Enrolled v c ticket since m := by
  refine { h with lt := Nat.lt_of_lt_of_le h.lt hrests.1, keeps := fun k hk hlt => ?_ }
  by_cases hbefore : k < n
  · exact h.keeps k hk hbefore
  · exact hv.keeps ticket k ⟨since, hk, h.turn, h.next⟩ (hrests.2 k (Nat.not_lt.mp hbefore) hlt)

/-- The wait goes on or is over. -/
lemma awaits_or_isOver (h : Enrolled v c ticket since n) (hm : since < m) (hle : m ≤ n) :
    (pendingAt v c m).Awaits ticket ∨ (pendingAt v c m).IsOver ticket := by
  induction m, hm using Nat.le_induction with
  | base => exact .inl h.awaits
  | succ m hm ih =>
    have hkeeps := h.keeps m hm hle
    rcases ih (Nat.le_of_succ_le hle) with hawaits | hover
    · exact hkeeps.awaits hawaits
    · exact .inr (hkeeps.isOver hover)

/-- When all waits are given up this one is over, and stays so. -/
lemma isOver_of_drained (h : Enrolled v c ticket since n) (hm : since < m) (hle : m ≤ n)
    (hnone : (pendingAt v c m).waiting = []) : (pendingAt v c n).IsOver ticket := by
  have hover := (h.awaits_or_isOver hm hle).resolve_left (Pending.not_awaits_of_waiting hnone ticket)
  induction n, hle using Nat.le_induction with
  | base => exact hover
  | succ n hle ih =>
    have hbefore : Enrolled v c ticket since n :=
      { h with lt := Nat.lt_of_lt_of_le hm hle, keeps := fun k hk hlt => h.keeps k hk (Nat.lt_succ_of_lt hlt) }
    exact (h.keeps n (Nat.lt_of_lt_of_le hm hle) (Nat.lt_succ_self n)).isOver (ih hbefore)

end Enrolled

namespace Verified

variable {since n m : Nat}

lemma step (h : Verified v c since n) (hphase : phaseAt v c (n + 1) = phaseAt v c n) : Verified v c since (n + 1) := by
  obtain ⟨m, hm, hlt, hopen, hkept⟩ := h
  refine ⟨m, hm, Nat.lt_succ_of_lt hlt, hopen, fun k hk hlt hturn => ?_⟩
  rcases Nat.lt_succ_iff_lt_or_eq.mp hlt with hlt | rfl
  · exact hkept k hk hlt hturn
  · exact hphase

lemma later (h : Verified v c since n) (hrests : v.Rests n m) : Verified v c since m := by
  obtain ⟨k, hk, hlt, hopen, hkept⟩ := h
  refine ⟨k, hk, Nat.lt_of_lt_of_le hlt hrests.1, hopen, fun i hi hlt hturn => ?_⟩
  by_cases hbefore : i < n
  · exact hkept i hi hbefore hturn
  · exact absurd hturn (hrests.2 i (Nat.not_lt.mp hbefore) hlt)

/-- When the channel closes it is somebody else who closes it. -/
lemma exists_closing (h : Verified v c since n) (hcloses : ∃ l, ∀ m, l ≤ m → phaseAt v c m = .closed) :
    ∃ m, since < m ∧ phaseAt v c m ≠ .closed ∧ phaseAt v c (m + 1) = .closed ∧ (m < n → ¬ v.turn m) := by
  classical
  obtain ⟨k, hk, -, hopen, hkept⟩ := h
  have hsome : ∃ m, k ≤ m ∧ phaseAt v c (m + 1) = .closed := by
    obtain ⟨l, hl⟩ := hcloses
    exact ⟨max k l, Nat.le_max_left k l, hl _ (Nat.le_succ_of_le (Nat.le_max_right k l))⟩
  obtain ⟨hle, hclosed⟩ := Nat.find_spec hsome
  have hbefore : phaseAt v c (Nat.find hsome) ≠ .closed := by
    rcases Nat.eq_or_lt_of_le hle with heq | hlt
    · rwa [← heq]
    · obtain ⟨m, hm⟩ := Nat.exists_eq_add_one_of_ne_zero (Nat.ne_of_gt (Nat.zero_lt_of_lt hlt))
      intro hnow
      have hmin := Nat.find_min hsome (m := m) (by omega)
      exact hmin ⟨by omega, hm ▸ hnow⟩
  refine ⟨_, Nat.lt_of_lt_of_le hk hle, hbefore, hclosed, fun hlt hturn => ?_⟩
  exact hbefore ((hkept _ hle hlt hturn).symm.trans hclosed)

end Verified

namespace Leaving

variable {ticket since n : Nat}

lemma comes_of_deadline (h : Leaving v c) {w : Wait} (deadline : Nat)
    (hover : ∀ net : Network, deadline ≤ net.now → w.holds net = true) (n : Nat) : v.Comes w n := by
  refine Viewpoint.comes_of_always ?_ n
  obtain ⟨l, hl⟩ := h.clock deadline
  exact ⟨l, fun m hm => h.holds ▸ hover _ (hl m hm)⟩

/-- The answer comes, or the request is given up. -/
lemma comes_answer (h : Leaving v c) (henrolled : Enrolled v c ticket since n) (hverified : Verified v c since n)
    (deadline : Option Nat) : v.Comes (.answer c ticket deadline) n := by
  cases deadline with
  | some deadline =>
    refine h.comes_of_deadline deadline (fun net hnow => ?_) n
    simp [Wait.holds, Network.isOver, hnow]
  | none =>
    obtain ⟨m, hm, hopen, hclosed, hother⟩ := hverified.exists_closing h.closes
    by_cases hturn : v.turn m
    · -- the caller itself has closed it, so it has gone on before
      have hle : n ≤ m := Nat.not_lt.mp fun hlt => hother hlt hturn
      exact ⟨m + 1, fun k hk hrests => absurd hturn (hrests.2 m hle hk)⟩
    · obtain ⟨d, hd, hnone⟩ := h.drains m hturn hopen hclosed
      refine ⟨d, fun k hk hrests => ?_⟩
      have hover := (henrolled.later h.toObliging hrests).isOver_of_drained (Nat.lt_trans hm hd) hk hnone
      rw [h.holds]
      exact Bool.or_eq_true_iff.mpr (.inl hover)

end Leaving

/-! ## Requests -/

lemma pending_post (ch : Channel) (message : Json) : (ch.post message).2.pending = ch.pending := by
  unfold Channel.post Channel.write
  by_cases hbroken : ch.outputBroken = true
  · rw [if_pos hbroken]
    rfl
  · rw [if_neg hbroken]
    rfl

namespace Request.Stage

/-- What is known of a request under a number. -/
def Awaits (v : Viewpoint Wait Network) (c : ChannelId) (n : Nat) : Stage → Prop
  | verifying _ ticket => ∃ since, Enrolled v c ticket since n
  | posting _ ticket | timing _ ticket | waiting _ ticket _ _ =>
    ∃ since, Enrolled v c ticket since n ∧ Verified v c since n
  | _ => True

variable {r : Request} {k k' : Stage} {n m : Nat}

lemma Awaits.later (h : k.Awaits v c n) (hv : Obliging v c) (hrests : v.Rests n m) : k.Awaits v c m := by
  cases k with
  | verifying id ticket =>
    obtain ⟨since, henrolled⟩ := h
    exact ⟨since, henrolled.later hv hrests⟩
  | posting id ticket | timing id ticket | waiting id ticket limit deadline =>
    obtain ⟨since, henrolled, hverified⟩ := h
    exact ⟨since, henrolled.later hv hrests, hverified.later hrests⟩
  | starting | enrolling | fetching id ticket limit | withdrawing id ticket fault | ended result => trivial

lemma Awaits.next (h : k.Awaits v c n) (hv : Leaving v c) (hturn : v.turn n)
    (hnext : k.next c r (v.state n) = some (k', v.state (n + 1))) : k'.Awaits v c (n + 1) := by
  have hstays : v.state (n + 1) = v.state n → ∀ {ticket since : Nat}, Enrolled v c ticket since n →
      Enrolled v c ticket since (n + 1) := by
    intro hsame ticket since henrolled
    refine henrolled.step ?_
    rw [pendingAt, pendingAt, hsame]
    exact .refl ticket _
  cases k with
  | starting =>
    obtain ⟨rfl, -⟩ := Prod.mk.inj (Option.some.inj hnext)
    split <;> trivial
  | enrolling =>
    obtain ⟨rfl, hstate⟩ := Prod.mk.inj (Option.some.inj hnext)
    have hchannel := channel_updateWith (hv.present n) Channel.enroll
    rw [hstate] at hchannel
    have hpending : pendingAt v c (n + 1) = ((pendingAt v c n).register ((v.state n).channel c).nextId).2 :=
      congrArg Channel.pending hchannel
    refine ⟨n, Nat.lt_succ_self n, hturn, ⟨?_, ?_⟩, ?_, fun m hm hlt => by omega⟩
    · exact (Pending.ticket_register _ _).symm
    · rw [hpending, Pending.next_register]
      exact congrArg (· + 1) (Pending.ticket_register _ _).symm
    · refine ⟨((v.state n).channel c).nextId, ?_⟩
      rw [hpending, Pending.mem_waiting_register]
      exact .inr (congrArg _ (Pending.ticket_register _ _))
  | verifying id ticket =>
    obtain ⟨rfl, hsame⟩ := Prod.mk.inj (Option.some.inj hnext)
    obtain ⟨since, henrolled⟩ := h
    split
    · next hopen =>
      have hphase : phaseAt v c n ≠ .closed := by simpa [Channel.isOpen, phaseAt] using hopen
      refine ⟨since, hstays hsame.symm henrolled, n, henrolled.lt, Nat.lt_succ_self n, hphase, fun m hm hlt _ => ?_⟩
      obtain rfl : m = n := by omega
      rw [phaseAt, phaseAt, hsame]
    · trivial
  | posting id ticket =>
    simp only [Stage.next] at hnext
    split at hnext
    · obtain ⟨rfl, hstate⟩ := Prod.mk.inj (Option.some.inj hnext)
      obtain ⟨since, henrolled, hverified⟩ := h
      have hchannel := channel_updateWith (hv.present n) fun ch => ch.ask id r.method r.params
      rw [hstate] at hchannel
      refine ⟨since, henrolled.step ?_, hverified.step ?_⟩
      · rw [pendingAt, pendingAt, hchannel, Channel.ask, pending_post]
        exact .refl ticket _
      · rw [phaseAt, phaseAt, hchannel]
        exact phase_post _ _
    · obtain ⟨rfl, -⟩ := Prod.mk.inj (Option.some.inj hnext)
      trivial
  | timing id ticket =>
    obtain ⟨rfl, hsame⟩ := Prod.mk.inj (Option.some.inj hnext)
    obtain ⟨since, henrolled, hverified⟩ := h
    exact ⟨since, hstays hsame.symm henrolled, hverified.step (by rw [phaseAt, phaseAt, hsame])⟩
  | waiting id ticket limit deadline =>
    simp only [Stage.next] at hnext
    split at hnext
    · obtain ⟨rfl, -⟩ := Prod.mk.inj (Option.some.inj hnext)
      trivial
    · cases hnext
  | fetching id ticket limit =>
    simp only [Stage.next] at hnext
    split at hnext
    · obtain ⟨rfl, -⟩ := Prod.mk.inj (Option.some.inj hnext)
      trivial
    · obtain ⟨rfl, -⟩ := Prod.mk.inj (Option.some.inj hnext)
      trivial
  | withdrawing id ticket fault =>
    obtain ⟨rfl, -⟩ := Prod.mk.inj (Option.some.inj hnext)
    trivial
  | ended result => cases hnext

end Request.Stage

namespace Leaving

/-- A request over a channel that closes comes to its end. -/
theorem ends_request (h : Leaving v c) (method : String) (params : Json) (latest : Option Nat) (n : Nat) :
    (requestUntil c method params latest).Ends v n := by
  refine Task.Ends.of_invariant
    (I := fun m t => ∃ k : Request.Stage, t = k.work c ⟨method, params, latest⟩ ∧ k.Awaits v c m) ?_ ?_ ?_
    ⟨.starting, rfl, trivial⟩
  · rintro m w next ⟨k, hk, hawaits⟩
    cases k with
    | waiting id ticket limit deadline =>
      obtain ⟨rfl, -⟩ := Task.wait.inj hk
      obtain ⟨since, henrolled, hverified⟩ := hawaits
      exact h.comes_answer henrolled hverified deadline
    | _ => cases congrArg Task.waitsOn? hk
  · rintro m m' t hrests ⟨k, rfl, hawaits⟩
    exact ⟨k, rfl, hawaits.later h.toObliging hrests⟩
  · rintro m t t' ⟨k, rfl, hawaits⟩ hturn htick
    rw [h.holds, Request.tick_work] at htick
    obtain ⟨⟨k', net⟩, hnext, heq⟩ := Option.map_eq_some_iff.mp htick
    obtain ⟨rfl, rfl⟩ := Prod.mk.inj heq
    exact ⟨k', rfl, hawaits.next h hturn hnext⟩

/-- So does its shutdown. -/
lemma ends_shutdown (h : Leaving v c) (n : Nat) : (shutdown c).Ends v n := by
  refine .andThen .act fun m start _ => ?_
  refine .andThen ?_ fun k _ _ => .andThen .modify fun _ _ _ => .modify
  cases start with
  | none => trivial
  | some start =>
    refine .andThen (.await (h.comes_of_deadline (start + exitGrace) (fun net hnow => ?_) m)) fun _ _ _ => .modify
    simp [Wait.holds, hnow]

end Leaving

end Network

end Switchboard
