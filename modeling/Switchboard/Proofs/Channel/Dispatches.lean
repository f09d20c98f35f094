import Switchboard.Proofs.Channel.Exchange
import Switchboard.Proofs.Channel.Traffic
import Switchboard.Proofs.Concurrency.Records

/-!
# What a thread hands over

* `SendsNothing`: no message leaves at a time; `Logged`: these are all that a thread has handed over between two times;
* `Extends`: a step hands over nothing, or one message that is justified by those before;
* `AwaitsLast`: the thread waits for the answer to the last one;
* `Request.Fate`: how a request ended, and what it has handed over;
* `Request.records_request`: whatever others do, this is how a request ends.
-/

namespace Switchboard.Network

/-! ## The log of a thread -/

section Log

variable (v : Viewpoint Wait Network)

/-- At this time no message leaves over any channel. -/
def SendsNothing (m : Nat) : Prop := ∀ c, ((v.state (m + 1)).channel c).outgoing = ((v.state m).channel c).outgoing

/-- Between two times the thread has handed over these requests, in this order, and nothing else. -/
structure Logged (b n : Nat) (log : List Exchange) : Prop where
  sent : ∀ x ∈ log, b ≤ x.sent ∧ x.sent < n ∧ x.Sent v
  ascending : log.Pairwise (·.sent < ·.sent)
  silent : ∀ m, b ≤ m → m < n → v.turn m → (∀ x ∈ log, x.sent ≠ m) → SendsNothing v m

/-- At this time nothing is handed over, or one request that is justified by those before. -/
def Extends (P : List Exchange → Exchange → Prop) (m : Nat) (log log' : List Exchange) : Prop :=
  log' = log ∧ SendsNothing v m ∨ ∃ x, log' = log ++ [x] ∧ x.sent = m ∧ x.Sent v ∧ P log x

/-- The thread waits for the answer to the last request that it has handed over. -/
def AwaitsLast (log : List Exchange) (on : Wait) : Prop :=
  ∃ x deadline, log.getLast? = some x ∧ on = .answer x.channel x.ticket deadline

/-- Every request is justified by those before. -/
def Justified (P : List Exchange → Exchange → Prop) (log : List Exchange) : Prop :=
  ∀ before x after, log = before ++ x :: after → P before x

variable {v} {P : List Exchange → Exchange → Prop} {b n : Nat} {log log' : List Exchange}

lemma logged_nil (b : Nat) : Logged v b b [] where
  sent := nofun
  ascending := List.Pairwise.nil
  silent _ hm hlt := absurd hm (Nat.not_le.mpr hlt)

lemma justified_nil : Justified P [] := fun _ _ _ h => absurd h (by simp)

lemma Justified.concat (h : Justified P log) {x : Exchange} (hx : P log x) : Justified P (log ++ [x]) := by
  intro before y after hlog
  rcases List.eq_nil_or_concat after with rfl | ⟨after, z, rfl⟩
  · obtain ⟨rfl, hxy⟩ := List.append_inj' hlog rfl
    obtain rfl := List.singleton_inj.mp hxy
    exact hx
  · have hinit : log = before ++ y :: after := by
      rw [List.concat_eq_append, ← List.cons_append, ← List.append_assoc] at hlog
      exact (List.append_inj' hlog rfl).1
    exact h before y after hinit

/-- What is justified only where nothing came before happens once at most. -/
lemma justified_once {A : Exchange → Prop} (h : Justified (fun log x => log = [] ∧ A x) log) :
    (∀ x ∈ log, A x) ∧ log.length ≤ 1 := by
  refine ⟨fun x hx => ?_, ?_⟩
  · obtain ⟨before, after, hlog⟩ := List.append_of_mem hx
    exact (h before x after hlog).2
  · match log with
    | [] => exact Nat.zero_le 1
    | [x] => exact Nat.le_refl 1
    | x :: y :: rest => exact absurd (h [x] y rest rfl).1 (List.cons_ne_nil x [])

/-- A turn in which nothing leaves. -/
lemma Logged.still (h : Logged v b n log) (hsilent : v.turn n → SendsNothing v n) : Logged v b (n + 1) log where
  sent x hx := ⟨(h.sent x hx).1, Nat.lt_succ_of_lt (h.sent x hx).2.1, (h.sent x hx).2.2⟩
  ascending := h.ascending
  silent m hb hm hturn hnone := by
    rcases Nat.lt_succ_iff_lt_or_eq.mp hm with hlt | rfl
    · exact h.silent m hb hlt hturn hnone
    · exact hsilent hturn

/-- A turn in which a request is handed over. -/
lemma Logged.concat (h : Logged v b n log) (hb : b ≤ n) {x : Exchange} (hsent : x.sent = n) (hx : x.Sent v) :
    Logged v b (n + 1) (log ++ [x]) where
  sent y hy := by
    rcases List.mem_append.mp hy with hy | hy
    · exact ⟨(h.sent y hy).1, Nat.lt_succ_of_lt (h.sent y hy).2.1, (h.sent y hy).2.2⟩
    · obtain rfl := List.mem_singleton.mp hy
      exact ⟨by omega, by omega, hx⟩
  ascending := by
    refine List.pairwise_append.mpr ⟨h.ascending, List.pairwise_singleton _ _, fun y hy z hz => ?_⟩
    obtain rfl := List.mem_singleton.mp hz
    have := (h.sent y hy).2.1
    omega
  silent m hb' hm hturn hnone := by
    rcases Nat.lt_succ_iff_lt_or_eq.mp hm with hlt | rfl
    · exact h.silent m hb' hlt hturn fun y hy => hnone y (List.mem_append_left _ hy)
    · exact absurd hsent (hnone x (List.mem_append_right _ (List.mem_singleton.mpr rfl)))

lemma Logged.extends (h : Logged v b n log) (hb : b ≤ n) (hlog : Extends v P n log log') : Logged v b (n + 1) log' := by
  rcases hlog with ⟨rfl, hsilent⟩ | ⟨x, rfl, hsent, hx, -⟩
  · exact h.still fun _ => hsilent
  · exact h.concat hb hsent hx

lemma Justified.extends (h : Justified P log) {m : Nat} (hlog : Extends v P m log log') : Justified P log' := by
  rcases hlog with ⟨rfl, -⟩ | ⟨x, rfl, -, -, hx⟩
  · exact h
  · exact h.concat hx

lemma sendsNothing_of_eq {m : Nat} (h : v.state (m + 1) = v.state m) : SendsNothing v m := fun c => by rw [h]

end Log

/-! ## Requests -/

namespace Request

variable (v : Viewpoint Wait Network) (c : ChannelId) (r : Request) (n : Nat) (log : List Exchange)

/-- How a request ended by the time `m` that began at the time `n`, when `log` had been handed over. -/
inductive Fate (m : Nat) (log' : List Exchange) (reply : Except Channel.Fault Json) : Prop where
  /-- It was not handed over: its channel was found closed, or took no more messages. -/
  | refused (found : Nat) (since : n ≤ found) (lt : found < m) (turn : v.turn found) (same : log' = log)
      (why : ((v.state found).channel c).isOpen = false ∧ reply = .error .closed ∨
        ((v.state found).channel c).outputBroken = true ∧ reply = .error (.transport "broken pipe"))
  /-- It was handed over, and later this was found of its answer. -/
  | replied (x : Exchange) (channel : x.channel = c) (request : x.request = r) (since : n ≤ x.enrolled) (sent : x.Sent v)
      (logged : log' = log ++ [x]) (found : Nat) (later : x.sent < found) (lt : found < m) (turn : v.turn found)
      (reply : match ((v.state found).channel c).pending.settlement? x.ticket with
        | some s => reply = outcomeOf s
        | none => ∃ limit, reply = .error (.timedOut r.method limit))

/-- What is known of a request at a stage, and what it has handed over. -/
def Stage.Noted (m : Nat) : Stage → List Exchange → Prop
  | ended reply, log' => Fate v c r n log m log' reply
  | withdrawing _ _ fault, log' => Fate v c r n log m log' (.error fault)
  | timing number ticket, log' | waiting number ticket _ _, log' | fetching number ticket _, log' =>
    ∃ x : Exchange, x.channel = c ∧ x.request = r ∧ x.number = number ∧ x.ticket = ticket ∧ n ≤ x.enrolled ∧ x.Sent v ∧
      x.sent < m ∧ log' = log ++ [x]
  | stage, log' => n ≤ m ∧ stage.Reached v c r n m ∧ log' = log

variable {v c r n log} {log' : List Exchange} {m : Nat} {reply : Except Channel.Fault Json}

lemma Fate.later {m' : Nat} (h : Fate v c r n log m log' reply) (hm : m ≤ m') :
    Fate v c r n log m' log' reply := by
  cases h with
  | refused found since lt turn same why => exact .refused found since (Nat.lt_of_lt_of_le lt hm) turn same why
  | replied x channel request since sent logged found later lt turn answer =>
    exact .replied x channel request since sent logged found later (Nat.lt_of_lt_of_le lt hm) turn answer

/-- A request takes time. -/
lemma Fate.lt (h : Fate v c r n log m log' reply) : n < m := by
  cases h with
  | refused found since lt => exact Nat.lt_of_le_of_lt since lt
  | replied x _ _ since sent _ found later lt =>
    have := sent.2.1
    omega

namespace Stage.Noted

variable {k k' : Stage}

lemma later {m' : Nat} (h : k.Noted v c r n log m log') (hm : m ≤ m') : k.Noted v c r n log m' log' := by
  cases k with
  | ended reply | withdrawing number ticket fault => exact Fate.later h hm
  | timing number ticket | waiting number ticket limit deadline | fetching number ticket limit =>
    obtain ⟨x, hc, hr, hnumber, hticket, hn, hsent, hlt, hlog⟩ := h
    exact ⟨x, hc, hr, hnumber, hticket, hn, hsent, Nat.lt_of_lt_of_le hlt hm, hlog⟩
  | _ => exact ⟨Nat.le_trans h.1 hm, h.2.1.later hm, h.2.2⟩

/-- A step hands over nothing, unless it hands over the request. -/
lemma silent (hnext : k.next c r (v.state m) = some (k', v.state (m + 1)))
    (h : ∀ number ticket, k' ≠ .timing number ticket) : SendsNothing v m := by
  obtain ⟨f, hf, -, -, hout⟩ := next_changes hnext
  obtain ⟨hsame, -⟩ := hout.resolve_right fun ⟨number, ticket, hk, _⟩ => h number ticket hk
  intro d
  rw [hf]
  rcases channel_update_cases (v.state m) c f d with hd | ⟨rfl, hd⟩
  · exact congrArg Channel.outgoing hd
  · exact (congrArg Channel.outgoing hd).trans hsame

/-- A step leads to what is known at the next stage, and hands over nothing or the request. -/
lemma next {P : List Exchange → Exchange → Prop}
    (hP : ∀ x : Exchange, x.channel = c → x.request = r → n ≤ x.enrolled → x.Sent v → P log x)
    (h : k.Noted v c r n log m log') (hturn : v.turn m) (hnext : k.next c r (v.state m) = some (k', v.state (m + 1))) :
    ∃ log'', Extends v P m log' log'' ∧ k'.Noted v c r n log (m + 1) log'' := by
  have hstill : (∀ number ticket, k' ≠ .timing number ticket) → k'.Noted v c r n log (m + 1) log' →
      ∃ log'', Extends v P m log' log'' ∧ k'.Noted v c r n log (m + 1) log'' :=
    fun hk hk' => ⟨log', .inl ⟨rfl, silent hnext hk⟩, hk'⟩
  have hreached := fun hk : k.Reached v c r n m => hk.next hturn hnext
  cases k with
  | starting =>
    obtain ⟨hn, hk, rfl⟩ := h
    have hstage := (Prod.mk.inj (Option.some.inj hnext)).1
    split at hstage
    · subst hstage
      exact hstill (by simp) ⟨Nat.le_succ_of_le hn, hreached hk, rfl⟩
    · next hclosed =>
      subst hstage
      exact hstill (by simp) (.refused m hn (Nat.lt_succ_self m) hturn rfl (.inl ⟨by simpa using hclosed, rfl⟩))
  | enrolling =>
    obtain ⟨hn, hk, rfl⟩ := h
    obtain ⟨rfl, -⟩ := Prod.mk.inj (Option.some.inj hnext)
    exact hstill (by simp) ⟨Nat.le_succ_of_le hn, hreached hk, rfl⟩
  | verifying number ticket =>
    obtain ⟨hn, hk, rfl⟩ := h
    have hstage := (Prod.mk.inj (Option.some.inj hnext)).1
    split at hstage
    · subst hstage
      exact hstill (by simp) ⟨Nat.le_succ_of_le hn, hreached hk, rfl⟩
    · next hclosed =>
      subst hstage
      exact hstill (by simp) (.refused m hn (Nat.lt_succ_self m) hturn rfl (.inl ⟨by simpa using hclosed, rfl⟩))
  | posting number ticket =>
    obtain ⟨hn, ⟨x, rfl, rfl, rfl, rfl, hx, henrolled, hlt⟩, rfl⟩ := h
    simp only [Stage.next] at hnext
    split at hnext
    · next hok =>
      -- it is handed over, and entered into the log
      obtain ⟨rfl, hstate⟩ := Prod.mk.inj (Option.some.inj hnext)
      have hsent : ({ x with sent := m } : Exchange).Sent v := ⟨henrolled, hlt, hturn, Prod.ext hok hstate⟩
      exact ⟨log' ++ [{ x with sent := m }], .inr ⟨_, rfl, rfl, hsent, hP _ rfl rfl hx hsent⟩,
        { x with sent := m }, rfl, rfl, rfl, rfl, hx, hsent, Nat.lt_succ_self m, rfl⟩
    · next fault hfault =>
      obtain ⟨rfl, -⟩ := Prod.mk.inj (Option.some.inj hnext)
      refine hstill (by simp) (.refused m hn (Nat.lt_succ_self m) hturn rfl (.inr ?_))
      have hwrite : (((v.state m).channel x.channel).ask x.number x.request.method x.request.params).1 = .error fault :=
        hfault
      unfold Channel.ask Channel.post Channel.write at hwrite
      split at hwrite
      · cases hwrite
      · next e he =>
        split at he
        · next hbroken =>
          obtain rfl := Except.error.inj he
          obtain rfl := Except.error.inj hwrite
          exact ⟨hbroken, rfl⟩
        · cases he
  | timing number ticket =>
    obtain ⟨rfl, -⟩ := Prod.mk.inj (Option.some.inj hnext)
    exact hstill (by simp) (later (k := .timing number ticket) h (Nat.le_succ m))
  | waiting number ticket limit deadline =>
    simp only [Stage.next] at hnext
    split at hnext
    · obtain ⟨rfl, -⟩ := Prod.mk.inj (Option.some.inj hnext)
      exact hstill (by simp) (later (k := .timing number ticket) h (Nat.le_succ m))
    · cases hnext
  | fetching number ticket limit =>
    obtain ⟨x, rfl, rfl, rfl, rfl, hx, hsent, hlt, rfl⟩ := h
    simp only [Stage.next, fetch] at hnext
    cases hs : ((v.state m).channel x.channel).pending.settlement? x.ticket with
    | none =>
      simp only [hs] at hnext
      obtain ⟨rfl, -⟩ := Prod.mk.inj (Option.some.inj hnext)
      refine hstill (by simp) (.replied x rfl rfl hx hsent rfl m hlt (Nat.lt_succ_self m) hturn ?_)
      rw [hs]
      exact ⟨_, rfl⟩
    | some settlement =>
      simp only [hs] at hnext
      obtain ⟨rfl, -⟩ := Prod.mk.inj (Option.some.inj hnext)
      refine hstill (by simp) (.replied x rfl rfl hx hsent rfl m hlt (Nat.lt_succ_self m) hturn ?_)
      rw [hs]
  | withdrawing number ticket fault =>
    obtain ⟨rfl, -⟩ := Prod.mk.inj (Option.some.inj hnext)
    exact hstill (by simp) (Fate.later h (Nat.le_succ m))
  | ended reply => cases hnext

end Stage.Noted

/-- A request hands over itself or nothing, waits for its own answer only, and ends as the answer says. -/
theorem records_request (hholds : v.holds = Wait.holds) {P : List Exchange → Exchange → Prop}
    (hP : ∀ x : Exchange, x.channel = c → x.request = r → n ≤ x.enrolled → x.Sent v → P log x) :
    (requestUntil c r.method r.params r.latest).outcome.Records v (fun _ => True) AwaitsLast (Extends v P)
      (fun m log' reply => Fate v c r n log m log' reply) n log := by
  refine Task.Records.of_invariant (I := fun m log' t => ∃ k : Stage, t = k.work c r ∧ k.Noted v c r n log m log')
    ?_ ?_ ?_ ?_ ⟨.starting, rfl, Nat.le_refl n, Nat.le_refl n, rfl⟩
  · rintro m log' reply ⟨k, hk, hnoted⟩
    -- only the work of a request that has ended is done
    cases k with
    | ended result =>
      obtain rfl := Task.done.inj hk
      exact hnoted
    | _ => cases congrArg Task.result? hk
  · rintro m log' on next ⟨k, hk, hnoted⟩
    -- only the work of a request that was handed over waits
    cases k with
    | waiting number ticket limit deadline =>
      obtain ⟨rfl, -⟩ := Task.wait.inj hk
      obtain ⟨x, rfl, -, -, rfl, -, -, -, rfl⟩ := hnoted
      exact ⟨x, deadline, List.getLast?_concat, rfl⟩
    | _ => cases congrArg Task.waitsOn? hk
  · rintro m m' log' t hm ⟨k, rfl, hnoted⟩
    exact ⟨k, rfl, hnoted.later hm⟩
  · rintro m log' t t' ⟨k, rfl, hnoted⟩ hturn htick
    rw [hholds, tick_work] at htick
    obtain ⟨⟨k', net⟩, hnext, heq⟩ := Option.map_eq_some_iff.mp htick
    obtain ⟨rfl, rfl⟩ := Prod.mk.inj heq
    obtain ⟨log'', hextends, hnoted'⟩ := hnoted.next hP hturn hnext
    exact ⟨log'', hextends, k', rfl, hnoted'⟩

end Request

end Switchboard.Network
