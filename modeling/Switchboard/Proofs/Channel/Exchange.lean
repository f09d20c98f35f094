import Switchboard.Proofs.Channel.Stage
import Switchboard.Proofs.Concurrency.Timed

/-!
# Requests over time

* `Exchange`: a request and its answer, with the times at which the caller took its steps;
* `Exchange.Sent`, `Exchange.Took`: the request was handed over in a run, and its answer found;
* `Request.upholds_request`: a request that ends with a value is an exchange that took place.
-/

namespace Switchboard.Network

/-- A request and its answer: over which channel, under which number, and when. -/
structure Exchange where
  channel : ChannelId
  request : Request
  number : Int := 0
  ticket : Nat := 0
  enrolled : Nat := 0
  sent : Nat := 0
  waited : Nat := 0
  answered : Nat := 0

namespace Exchange

variable (v : Viewpoint Wait Network) (x : Exchange)

/-- The request took a number. -/
def Enrolled : Prop :=
  v.turn x.enrolled ∧ ((v.state x.enrolled).updateWith x.channel Channel.enroll).1 = (x.number, x.ticket)

/-- It was handed over. -/
def Sent : Prop :=
  x.Enrolled v ∧ x.enrolled < x.sent ∧ v.turn x.sent ∧
    (v.state x.sent).updateWith x.channel (fun ch => ch.ask x.number x.request.method x.request.params)
      = (.ok (), v.state (x.sent + 1))

/-- The wait for its answer was over. -/
def Waited : Prop := x.Sent v ∧ x.sent < x.waited ∧ v.turn x.waited

/-- Its answer was found. -/
def Took (body : Json) : Prop :=
  x.Waited v ∧ x.waited < x.answered ∧ v.turn x.answered ∧
    ((v.state x.answered).channel x.channel).pending.settlement? x.ticket = some (.answered (.ok body))

/-- A request that was handed over is among the messages that left. -/
lemma Sent.posted {v : Viewpoint Wait Network} {x : Exchange} (h : x.Sent v)
    (hc : x.channel < (v.state x.sent).channels.length) :
    ((v.state x.sent).channel x.channel).dialect.request x.number x.request.method x.request.params
      ∈ ((v.state (x.sent + 1)).channel x.channel).outgoing := by
  have hasked := h.2.2.2
  have hchannel := channel_updateWith hc fun ch => ch.ask x.number x.request.method x.request.params
  have hok : (((v.state x.sent).channel x.channel).ask x.number x.request.method x.request.params).1 = .ok () :=
    congrArg Prod.fst hasked
  rw [hasked] at hchannel
  rw [hchannel]
  unfold Channel.ask Channel.post at hok ⊢
  split at hok
  · next ch hwrite =>
    dsimp only
    unfold Channel.write at hwrite
    split at hwrite
    · cases hwrite
    · obtain rfl := Except.ok.inj hwrite
      exact List.mem_append_right _ (List.mem_singleton.mpr rfl)
  · cases hok

end Exchange

namespace Request

variable {v : Viewpoint Wait Network} {c : ChannelId} {r : Request} {n : Nat}

/-- What is known when a request that began at a time ends. -/
def Answered (v : Viewpoint Wait Network) (c : ChannelId) (r : Request) (n m : Nat)
    (reply : Except Channel.Fault Json) : Prop :=
  ∀ body, reply = .ok body →
    ∃ x : Exchange, x.channel = c ∧ x.request = r ∧ n ≤ x.enrolled ∧ x.Took v body ∧ x.answered < m

/-- What is known of a request at a stage. -/
def Stage.Reached (v : Viewpoint Wait Network) (c : ChannelId) (r : Request) (n m : Nat) : Stage → Prop
  | starting | enrolling => n ≤ m
  | verifying number ticket | posting number ticket =>
    ∃ x : Exchange, x.channel = c ∧ x.request = r ∧ x.number = number ∧ x.ticket = ticket ∧ n ≤ x.enrolled ∧
      x.Enrolled v ∧ x.enrolled < m
  | timing number ticket | waiting number ticket _ _ =>
    ∃ x : Exchange, x.channel = c ∧ x.request = r ∧ x.number = number ∧ x.ticket = ticket ∧ n ≤ x.enrolled ∧
      x.Sent v ∧ x.sent < m
  | fetching number ticket _ =>
    ∃ x : Exchange, x.channel = c ∧ x.request = r ∧ x.number = number ∧ x.ticket = ticket ∧ n ≤ x.enrolled ∧
      x.Waited v ∧ x.waited < m
  | withdrawing _ _ _ => True
  | ended reply => Answered v c r n m reply

namespace Stage.Reached

variable {m : Nat} {k k' : Stage}

lemma later {m' : Nat} (h : k.Reached v c r n m) (hm : m ≤ m') : k.Reached v c r n m' := by
  cases k with
  | starting | enrolling => exact Nat.le_trans h hm
  | withdrawing number ticket fault => trivial
  | ended reply =>
    intro body hbody
    obtain ⟨x, hc, hr, hn, hx, hlt⟩ := h body hbody
    exact ⟨x, hc, hr, hn, hx, Nat.lt_of_lt_of_le hlt hm⟩
  | _ =>
    obtain ⟨x, hc, hr, hnumber, hticket, hn, hx, hlt⟩ := h
    exact ⟨x, hc, hr, hnumber, hticket, hn, hx, Nat.lt_of_lt_of_le hlt hm⟩

/-- A step leads to what is known at the next stage. -/
lemma next (h : k.Reached v c r n m) (hturn : v.turn m)
    (hnext : k.next c r (v.state m) = some (k', v.state (m + 1))) : k'.Reached v c r n (m + 1) := by
  cases k with
  | starting =>
    obtain ⟨rfl, -⟩ := Prod.mk.inj (Option.some.inj hnext)
    split
    · exact Nat.le_succ_of_le h
    · rintro body ⟨⟩
  | enrolling =>
    obtain ⟨rfl, -⟩ := Prod.mk.inj (Option.some.inj hnext)
    exact ⟨{ channel := c, request := r, number := _, ticket := _, enrolled := m }, rfl, rfl, rfl, rfl, h,
      ⟨hturn, rfl⟩, Nat.lt_succ_self m⟩
  | verifying number ticket =>
    obtain ⟨rfl, -⟩ := Prod.mk.inj (Option.some.inj hnext)
    split
    · exact later (k := .posting number ticket) h (Nat.le_succ m)
    · trivial
  | posting number ticket =>
    simp only [Stage.next] at hnext
    split at hnext
    · next hok =>
      obtain ⟨rfl, hstate⟩ := Prod.mk.inj (Option.some.inj hnext)
      obtain ⟨x, rfl, rfl, rfl, rfl, hn, henrolled, hlt⟩ := h
      exact ⟨{ x with sent := m }, rfl, rfl, rfl, rfl, hn, ⟨henrolled, hlt, hturn, Prod.ext hok hstate⟩,
        Nat.lt_succ_self m⟩
    · obtain ⟨rfl, -⟩ := Prod.mk.inj (Option.some.inj hnext)
      trivial
  | timing number ticket =>
    obtain ⟨rfl, -⟩ := Prod.mk.inj (Option.some.inj hnext)
    exact later (k := .timing number ticket) h (Nat.le_succ m)
  | waiting number ticket limit deadline =>
    simp only [Stage.next] at hnext
    split at hnext
    · obtain ⟨rfl, -⟩ := Prod.mk.inj (Option.some.inj hnext)
      obtain ⟨x, rfl, rfl, rfl, rfl, hn, hsent, hlt⟩ := h
      exact ⟨{ x with waited := m }, rfl, rfl, rfl, rfl, hn, ⟨hsent, hlt, hturn⟩, Nat.lt_succ_self m⟩
    · cases hnext
  | fetching number ticket limit =>
    obtain ⟨x, rfl, rfl, rfl, rfl, hn, hwaited, hlt⟩ := h
    simp only [Stage.next, fetch] at hnext
    cases hs : ((v.state m).channel x.channel).pending.settlement? x.ticket with
    | none =>
      simp only [hs] at hnext
      obtain ⟨rfl, -⟩ := Prod.mk.inj (Option.some.inj hnext)
      trivial
    | some settlement =>
      simp only [hs] at hnext
      obtain ⟨rfl, -⟩ := Prod.mk.inj (Option.some.inj hnext)
      rcases settlement with ⟨fault | body⟩ | -
      · rintro body ⟨⟩
      · rintro body ⟨⟩
        exact ⟨{ x with answered := m }, rfl, rfl, hn, ⟨hwaited, hlt, hturn, hs⟩, Nat.lt_succ_self m⟩
      · rintro body ⟨⟩
  | withdrawing number ticket fault =>
    obtain ⟨rfl, -⟩ := Prod.mk.inj (Option.some.inj hnext)
    rintro body ⟨⟩
  | ended reply => cases hnext

end Stage.Reached

/-- A request that ends with a value is an exchange that took place since it began. -/
theorem upholds_request (v : Viewpoint Wait Network) (hholds : v.holds = Wait.holds) (c : ChannelId) (r : Request)
    (n : Nat) :
    (requestUntil c r.method r.params r.latest).outcome.Upholds v (fun _ => True) (Answered v c r n) n := by
  refine Task.Upholds.of_invariant (fun _ => trivial)
    (I := fun m t => ∃ k : Stage, t = k.work c r ∧ k.Reached v c r n m) ?_ ?_ ?_
    ⟨.starting, rfl, Nat.le_refl n⟩
  · rintro m reply ⟨k, hk, hreached⟩
    -- only the work of a request that has ended is done
    cases k with
    | ended result =>
      obtain rfl := Task.done.inj hk
      exact hreached
    | _ => cases congrArg Task.result? hk
  · rintro m m' t hm ⟨k, rfl, hreached⟩
    exact ⟨k, rfl, hreached.later hm⟩
  · rintro m t t' ⟨k, rfl, hreached⟩ hturn htick
    rw [hholds, tick_work] at htick
    obtain ⟨⟨k', net⟩, hnext, heq⟩ := Option.map_eq_some_iff.mp htick
    obtain ⟨rfl, rfl⟩ := Prod.mk.inj heq
    exact ⟨k', rfl, hreached.next hturn hnext⟩

end Request

end Switchboard.Network
