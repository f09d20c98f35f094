import Switchboard.Channel.Call
import Switchboard.Proofs.Concurrency.Step

/-!
# The stages of a request and of a shutdown

* `Request.Stage`: how far a request got, one stage for each access to the channel and for the wait;
* `Request.Stage.work`, `Request.Stage.next`: what is left to do at a stage, and one step of it;
* `Request.tick_work`: a step of the work is a step from stage to stage;
* `Request.stretch_starting`, `Request.stretch_fetching`: the two stretches of a request, up to the wait for
  the answer and after it;
* `Closing.Stage`: the same for `Network.shutdown`.

Stages make the interleavings of several callers explicit: a run is a sequence of choices whose stage comes next.
-/

namespace Switchboard.Network

/-! ## Channels of a network -/

section Channels

variable {c : ChannelId} {n : Network}

lemma present_update (hc : c < n.channels.length) (f : Channel → Channel) :
    c < (n.update c f).channels.length := by
  simpa [Network.update] using hc

lemma channel_update (hc : c < n.channels.length) (f : Channel → Channel) :
    (n.update c f).channel c = f (n.channel c) := by
  simp [Network.update, Network.channel, hc]

lemma present_updateWith {α : Type} (hc : c < n.channels.length) (f : Channel → α × Channel) :
    c < (n.updateWith c f).2.channels.length := present_update hc _

lemma channel_updateWith {α : Type} (hc : c < n.channels.length) (f : Channel → α × Channel) :
    (n.updateWith c f).2.channel c = (f (n.channel c)).2 := channel_update hc _

lemma update_update (n : Network) (c : ChannelId) (f g : Channel → Channel) :
    (n.update c f).update c g = n.update c fun ch => g (f ch) := by
  simp only [Network.update, List.modify_modify_eq]
  rfl

/-- What a channel becomes may be told by the channel that it is. -/
lemma update_channel (n : Network) (c : ChannelId) (f : Channel → Channel) :
    n.update c (fun _ => f (n.channel c)) = n.update c f := by
  have hchannels : n.channels.modify c (fun _ => f (n.channel c)) = n.channels.modify c f := by
    apply List.ext_getElem?
    intro i
    rw [List.getElem?_modify, List.getElem?_modify]
    by_cases hi : c = i
    · subst hi
      cases hch : n.channels[c]? with
      | none => rfl
      | some ch => simp [Network.channel, List.getD, hch]
    · simp only [hi, if_false]
  simp only [Network.update, hchannels]

lemma updateWith_eq {α : Type} (n : Network) (c : ChannelId) (f : Channel → α × Channel) :
    n.updateWith c f = ((f (n.channel c)).1, n.update c fun ch => (f ch).2) := by
  rw [← update_channel n c fun ch => (f ch).2]
  rfl

end Channels

/-! ## Requests -/

/-- What is asked, and until when an answer is waited for. -/
structure Request where
  method : String
  params : Json
  latest : Option Nat := none

namespace Request

/-- How far a request got. -/
inductive Stage where
  /-- Before the first look at the phase. -/
  | starting
  /-- Before the number is taken. -/
  | enrolling
  /-- Before the second look at the phase. -/
  | verifying (id : Int) (ticket : Nat)
  /-- Before the message is handed over. -/
  | posting (id : Int) (ticket : Nat)
  /-- Before the deadline is set. -/
  | timing (id : Int) (ticket : Nat)
  | waiting (id : Int) (ticket : Nat) (limit deadline : Option Nat)
  /-- The wait is over. -/
  | fetching (id : Int) (ticket : Nat) (limit : Option Nat)
  /-- The request failed and its number waits to be given up. -/
  | withdrawing (id : Int) (ticket : Nat) (fault : Channel.Fault)
  | ended (result : Except Channel.Fault Json)

namespace Stage

variable (c : ChannelId) (r : Request)

/-- What is left to do when it is known how the wait ended. -/
def fetchedCall (id : Int) (ticket : Nat) (limit : Option Nat) : Option Settlement → Call Json
  | some s => Attempt.ofExcept (outcomeOf s)
  | none => do
    withdraw c id ticket
    throw (.timedOut r.method (limit.getD 0))

/-- What is left to do after the wait. -/
def fetchingCall (id : Int) (ticket : Nat) (limit : Option Nat) : Call Json := do
  let s ← Attempt.ofTask (Task.act (fetch c ticket))
  fetchedCall c r id ticket limit s

/-- What is left to do when the message is handed over. -/
def timingCall (id : Int) (ticket : Nat) : Call Json := do
  let n ← Attempt.ofTask Task.state
  let limit := (n.channel c).limit
  Attempt.ofTask (Task.await (.answer c ticket (earlier (n.deadlineAfter limit) r.latest)))
  fetchingCall c r id ticket limit

/-- What is left to do when the channel was found open again. -/
def postingCall (id : Int) (ticket : Nat) : Call Json := do
  orWithdraw c id ticket (Attempt.act fun n => n.updateWith c fun ch => ch.ask id r.method r.params)
  timingCall c r id ticket

/-- What is left to do under a number. -/
def verifyingCall (id : Int) (ticket : Nat) : Call Json := do
  orWithdraw c id ticket (checkOpen c)
  postingCall c r id ticket

/-- What is left to do when the channel was found open. -/
def enrollingCall : Call Json := do
  let (id, ticket) ← enroll c
  verifyingCall c r id ticket

/-- What is left to do at a stage. -/
def work : Stage → Task Wait Network (Except Channel.Fault Json)
  | starting => (requestUntil c r.method r.params r.latest).outcome
  | enrolling => (enrollingCall c r).outcome
  | verifying id ticket => (verifyingCall c r id ticket).outcome
  | posting id ticket => (postingCall c r id ticket).outcome
  | timing id ticket => (timingCall c r id ticket).outcome
  | waiting id ticket limit deadline => Attempt.outcome do
    Attempt.ofTask (Task.await (.answer c ticket deadline))
    fetchingCall c r id ticket limit
  | fetching id ticket limit => (fetchingCall c r id ticket limit).outcome
  | withdrawing id ticket fault => Attempt.outcome do
    withdraw c id ticket
    throw fault
  | ended result => .done result

/-- One step, if the stage allows one. -/
def next (n : Network) : Stage → Option (Stage × Network)
  | starting => some (if (n.channel c).isOpen then enrolling else ended (throw .closed), n)
  | enrolling =>
    let enrolled := n.updateWith c Channel.enroll
    some (verifying enrolled.1.1 enrolled.1.2, enrolled.2)
  | verifying id ticket =>
    some (if (n.channel c).isOpen then posting id ticket else withdrawing id ticket .closed, n)
  | posting id ticket =>
    let asked := n.updateWith c fun ch => ch.ask id r.method r.params
    match asked.1 with
    | .ok () => some (timing id ticket, asked.2)
    | .error e => some (withdrawing id ticket e, asked.2)
  | timing id ticket =>
    let limit := (n.channel c).limit
    some (waiting id ticket limit (earlier (n.deadlineAfter limit) r.latest), n)
  | waiting id ticket limit deadline =>
    if Wait.holds (.answer c ticket deadline) n then some (fetching id ticket limit, n) else none
  | fetching id ticket limit =>
    match fetch c ticket n with
    | (some s, n) => some (ended (outcomeOf s), n)
    | (none, n) => some (withdrawing id ticket (.timedOut r.method (limit.getD 0)), n)
  | withdrawing id ticket fault => some (ended (throw fault), n.update c fun ch => ch.withdraw id ticket)
  | ended _ => none

end Stage

variable {c : ChannelId} {r : Request}

/-! ## Single accesses -/

/-- A look at the phase is one access. -/
lemma checkOpen_eq_act (c : ChannelId) :
    checkOpen c = Attempt.act fun n => (if (n.channel c).isOpen then pure () else throw .closed, n) := by
  have hnext : ∀ n : Network, (if (n.channel c).isOpen then pure () else throw .closed : Call Unit)
      = Task.done (if (n.channel c).isOpen then pure () else throw .closed) := fun n => by
    cases (n.channel c).isOpen <;> rfl
  exact congrArg (Task.access id) (funext hnext)

lemma ofExcept_bind {α β : Type} (e : Except Channel.Fault α) (k : α → Call β) :
    (Attempt.ofExcept e >>= k : Call β).outcome
      = match e with
        | .ok a => (k a).outcome
        | .error fault => .done (.error fault) := by
  cases e <;> rfl

lemma orWithdraw_ofExcept_bind {β : Type} (id : Int) (ticket : Nat) (e : Except Channel.Fault Unit)
    (k : Call β) :
    (orWithdraw c id ticket (Attempt.ofExcept e) >>= fun _ => k : Call β).outcome
      = match e with
        | .ok () => k.outcome
        | .error fault => (withdraw c id ticket >>= fun _ => throw fault : Call β).outcome := by
  cases e <;> rfl

lemma tick_act_bind {α β : Type} (f : Network → Except Channel.Fault α × Network) (k : α → Call β)
    (n : Network) :
    (Attempt.act f >>= k : Call β).outcome.tick? Wait.holds n
      = some ((Attempt.ofExcept (f n).1 >>= k : Call β).outcome, (f n).2) := rfl

lemma tick_orWithdraw_act_bind {β : Type} (id : Int) (ticket : Nat)
    (f : Network → Except Channel.Fault Unit × Network) (k : Call β) (n : Network) :
    (orWithdraw c id ticket (Attempt.act f) >>= fun _ => k : Call β).outcome.tick? Wait.holds n
      = some ((orWithdraw c id ticket (Attempt.ofExcept (f n).1) >>= fun _ => k : Call β).outcome, (f n).2) :=
  rfl

/-- A step of the work that is left at a stage leads to the work that is left at the next one. -/
theorem tick_work (k : Stage) (n : Network) :
    (k.work c r).tick? Wait.holds n = (k.next c r n).map fun (k, n) => (k.work c r, n) := by
  cases k with
  | starting =>
    show (checkOpen c >>= fun _ => Stage.enrollingCall c r).outcome.tick? Wait.holds n = _
    rw [checkOpen_eq_act, tick_act_bind, ofExcept_bind]
    cases hopen : (n.channel c).isOpen <;> simp only [Stage.next, hopen] <;> rfl
  | enrolling => rfl
  | verifying id ticket =>
    show (orWithdraw c id ticket (checkOpen c) >>= fun _ => Stage.postingCall c r id ticket).outcome.tick?
      Wait.holds n = _
    rw [checkOpen_eq_act, tick_orWithdraw_act_bind, orWithdraw_ofExcept_bind]
    cases hopen : (n.channel c).isOpen <;> simp only [Stage.next, hopen] <;> rfl
  | posting id ticket =>
    show (orWithdraw c id ticket (Attempt.act fun n => n.updateWith c fun ch => ch.ask id r.method r.params)
      >>= fun _ => Stage.timingCall c r id ticket).outcome.tick? Wait.holds n = _
    rw [tick_orWithdraw_act_bind, orWithdraw_ofExcept_bind]
    simp only [Stage.next]
    obtain ⟨asked, n'⟩ := n.updateWith c fun ch => ch.ask id r.method r.params
    cases asked <;> rfl
  | timing id ticket => rfl
  | waiting id ticket limit deadline =>
    show (if Wait.holds (.answer c ticket deadline) n then
      some ((Stage.fetchingCall c r id ticket limit).outcome, n) else none) = _
    cases hover : Wait.holds (.answer c ticket deadline) n <;> simp only [Stage.next, hover] <;> rfl
  | fetching id ticket limit =>
    have hfetch : (Stage.work c r (.fetching id ticket limit)).tick? Wait.holds n
        = some ((Stage.fetchedCall c r id ticket limit (fetch c ticket n).1).outcome, (fetch c ticket n).2) := rfl
    rw [hfetch]
    simp only [Stage.next]
    obtain ⟨s, n'⟩ := fetch c ticket n
    cases s <;> rfl
  | withdrawing id ticket fault => rfl
  | ended result => rfl

/-! ## Stretches -/

/-- A channel on which the request is handed over. -/
def asked (r : Request) (ch : Channel) : Channel :=
  (ch.enroll.2.ask ch.enroll.1.1 r.method r.params).2

lemma asked_eq {ch : Channel} (hout : ch.outputBroken = false) :
    ch.enroll.2.ask ch.enroll.1.1 r.method r.params
      = (.ok (), { ch.enroll.2 with outgoing := ch.outgoing ++ [ch.dialect.request ch.nextId r.method r.params] }) := by
  have hwrite : ch.enroll.2.outputBroken = false := hout
  simp only [Channel.ask, Channel.post, Channel.write, hwrite]
  rfl

/-- On an open channel a request hands its message over and waits for the answer. -/
lemma stretch_starting {n : Network} (hc : c < n.channels.length) (hopen : (n.channel c).isOpen = true)
    (hout : (n.channel c).outputBroken = false) :
    ∃ id ticket limit deadline, (Stage.starting.work c r).stretch n
      = ((Stage.waiting id ticket limit deadline).work c r, n.update c r.asked) := by
  have henrolled : (n.updateWith c Channel.enroll).2.channel c = (n.channel c).enroll.2 := channel_updateWith hc _
  have hopen' : ((n.updateWith c Channel.enroll).2.channel c).isOpen = true := by
    rw [henrolled]
    exact hopen
  have hposted : ((n.updateWith c Channel.enroll).2.updateWith c fun ch =>
      ch.ask (n.channel c).enroll.1.1 r.method r.params) = (.ok (), n.update c r.asked) := by
    rw [updateWith_eq, henrolled, asked_eq hout, updateWith_eq, update_update,
      ← update_channel n c, ← update_channel n c r.asked]
    rfl
  -- one step for each access up to the wait
  have h₁ : (Stage.starting.work c r).stretch n = (Stage.enrolling.work c r).stretch n := by
    apply Task.stretch_of_tick? rfl
    rw [tick_work, Stage.next, hopen]
    rfl
  have h₂ : (Stage.enrolling.work c r).stretch n
      = ((Stage.verifying (n.channel c).enroll.1.1 (n.channel c).enroll.1.2).work c r).stretch
          (n.updateWith c Channel.enroll).2 := by
    apply Task.stretch_of_tick? rfl
    rw [tick_work]
    rfl
  have h₃ : ((Stage.verifying (n.channel c).enroll.1.1 (n.channel c).enroll.1.2).work c r).stretch
          (n.updateWith c Channel.enroll).2
      = ((Stage.posting (n.channel c).enroll.1.1 (n.channel c).enroll.1.2).work c r).stretch
          (n.updateWith c Channel.enroll).2 := by
    apply Task.stretch_of_tick? rfl
    rw [tick_work, Stage.next, hopen']
    rfl
  have h₄ : ((Stage.posting (n.channel c).enroll.1.1 (n.channel c).enroll.1.2).work c r).stretch
          (n.updateWith c Channel.enroll).2
      = ((Stage.timing (n.channel c).enroll.1.1 (n.channel c).enroll.1.2).work c r).stretch
          (n.update c r.asked) := by
    apply Task.stretch_of_tick? rfl
    rw [tick_work, Stage.next]
    simp only [hposted, Option.map_some]
  have h₅ : ((Stage.timing (n.channel c).enroll.1.1 (n.channel c).enroll.1.2).work c r).stretch
          (n.update c r.asked)
      = ((Stage.waiting (n.channel c).enroll.1.1 (n.channel c).enroll.1.2
            ((n.update c r.asked).channel c).limit
            (earlier ((n.update c r.asked).deadlineAfter ((n.update c r.asked).channel c).limit) r.latest)).work c r,
          n.update c r.asked) := rfl
  exact ⟨_, _, _, _, h₁.trans (h₂.trans (h₃.trans (h₄.trans h₅)))⟩

/-- After the wait a request has its outcome, and at most the table of its channel differs. -/
lemma stretch_fetching (id : Int) (ticket : Nat) (limit : Option Nat) (n : Network) :
    ∃ result, ∃ f : Pending → Pending, ((Stage.fetching id ticket limit).work c r).stretch n
      = (.done result, n.update c fun ch => { ch with pending := f ch.pending }) := by
  have hnext : ((Stage.fetching id ticket limit).work c r).stretch n
      = ((Stage.fetchedCall c r id ticket limit (fetch c ticket n).1).outcome).stretch (fetch c ticket n).2 := rfl
  rw [hnext, fetch]
  cases (n.channel c).pending.settlement? ticket with
  | some s => 
    refine ⟨outcomeOf s, fun p => p.forget ticket, ?_⟩
    cases s with
    | dropped => rfl
    | answered outcome => cases outcome <;> rfl
  | none => exact ⟨_, fun p => (p.cancel id).forget ticket, rfl⟩

end Request

/-! ## Shutdowns -/

namespace Closing

/-- How far a shutdown got. -/
inductive Stage where
  | starting
  /-- The process was taken over at a time. -/
  | awaiting (start : Nat)
  | burying
  /-- Before the channel is marked as closed. -/
  | marking
  /-- Before the outstanding requests are given up. -/
  | draining
  | ended
deriving DecidableEq

namespace Stage

variable (c : ChannelId)

/-- What is left to do when the process is gone. -/
def markingTask : Task Wait Network Unit := do
  Task.modify fun n => n.update c (·.markClosed)
  Task.modify fun n => n.update c (·.drain)

/-- What is left to do at a stage. -/
def work : Stage → Task Wait Network Unit
  | starting => shutdown c
  | awaiting start => do
    reap c (some start)
    markingTask c
  | burying => do
    Task.modify fun n => n.update c fun ch => { ch with child := .exited }
    markingTask c
  | marking => markingTask c
  | draining => Task.modify fun n => n.update c (·.drain)
  | ended => .done ()

/-- One step, if the stage allows one. -/
def next (n : Network) : Stage → Option (Stage × Network)
  | starting =>
    let taken := takeChild c n
    some (match taken.1 with
      | some start => awaiting start
      | none => marking, taken.2)
  | awaiting start => if Wait.holds (.exit c (start + exitGrace)) n then some (burying, n) else none
  | burying => some (marking, n.update c fun ch => { ch with child := .exited })
  | marking => some (draining, n.update c (·.markClosed))
  | draining => some (ended, n.update c (·.drain))
  | ended => none

end Stage

/-- A step of the work that is left at a stage leads to the work that is left at the next one. -/
theorem tick_work {c : ChannelId} (k : Stage) (n : Network) :
    (k.work c).tick? Wait.holds n = (k.next c n).map fun (k, n) => (k.work c, n) := by
  cases k with
  | starting =>
    have htake : (Stage.work c .starting).tick? Wait.holds n
        = some (reap c (takeChild c n).1 >>= fun _ => Stage.markingTask c, (takeChild c n).2) := rfl
    rw [htake]
    simp only [Stage.next]
    obtain ⟨taken, n'⟩ := takeChild c n
    cases taken <;> rfl
  | awaiting start =>
    show (if Wait.holds (.exit c (start + exitGrace)) n then some (Stage.work c .burying, n) else none) = _
    cases hover : Wait.holds (.exit c (start + exitGrace)) n <;> simp only [Stage.next, hover] <;> rfl
  | burying => rfl
  | marking => rfl
  | draining => rfl
  | ended => rfl

end Closing

end Switchboard.Network
