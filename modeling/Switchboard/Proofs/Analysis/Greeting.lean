import Switchboard.Analysis.Session
import Switchboard.Proofs.Channel.Asking
import Switchboard.Proofs.Concurrency.Ensemble

/-!
# Calls of an analysis session

* `Greeting`: what the handshake of a session does once the server has answered; `greeting`: the handshake by its stages;
* `Greeting.next_says`, `next_door`: what its steps hand over, and that only the last one makes the session ready;
* `Ask`, `Ask.work`: what is asked of a session;
* `Spot`, `Spot.next`: where a call is, and one step of it;
* `Spot.tick_work`: a step of the work is a step from spot to spot.
-/

namespace Switchboard.Analysis.Session

open Network (Request Handshake Stages Asking Shaking Place Ending)

/-! ## The handshake -/

/-- How far the handshake of a session got since the server has answered. -/
inductive Greeting where
  /-- What the server advertises is about to be noted. -/
  | noting (body : Json)
  /-- Before the look at the phase that comes before a notification. -/
  | checking
  /-- It is about to be told that all is initialized. -/
  | announcing
  /-- It was told, and the session is about to become ready. -/
  | readying

namespace Greeting

variable (s : Session)

/-- What the server is asked first. -/
def request : Request := { method := "initialize", params := s.introduction }

/-- What is left to do when the server was told. -/
def readyingCall : Network.Call Unit := Network.setPhase s.channel .ready

/-- What is left to do when the channel was found open. -/
def announcingCall : Network.Call Unit := do
  Attempt.act fun n => n.updateWith s.channel fun ch => ch.announce "initialized" (.obj [])
  readyingCall s

/-- What is left to do when it is noted what the server advertises. -/
def checkingCall : Network.Call Unit := do
  Network.notify s.channel "initialized" (.obj [])
  readyingCall s

/-- What is left to do when the server has answered. -/
def notingCall (body : Json) : Network.Call Unit := do
  Network.insertFeature s.channel advertised ((body.get? "capabilities").getD .null)
  checkingCall s

/-- What is left to do at a stage. -/
def left : Greeting → Shaking
  | noting body => (notingCall s body).outcome
  | checking => (checkingCall s).outcome
  | announcing => (announcingCall s).outcome
  | readying => (readyingCall s).outcome

/-- What becomes of the handshake when the server was told, or could not be told. -/
def ofTold : Except Channel.Fault Unit → Greeting ⊕ Except Channel.Fault Unit
  | .ok () => .inl readying
  | .error fault => .inr (.error fault)

/-- One step of a stage. -/
def next (n : Network) : Greeting → (Greeting ⊕ Except Channel.Fault Unit) × Network
  | noting body =>
    (.inl checking, n.update s.channel fun ch =>
      { ch with features := ch.features.insert advertised ((body.get? "capabilities").getD .null) })
  | checking => (if (n.channel s.channel).isOpen then .inl announcing else .inr (.error .closed), n)
  | announcing =>
    let told := n.updateWith s.channel fun ch => ch.announce "initialized" (.obj [])
    (ofTold told.1, told.2)
  | readying => (.inr (.ok ()), n.update s.channel (·.setPhase .ready))

variable {s}

lemma live_left (g : Greeting) : (g.left s).result? = none := by
  cases g <;> rfl

/-- A step of what is left of the handshake leads to what is left at the next stage. -/
lemma tick_left (g : Greeting) (n : Network) :
    (g.left s).tick? Wait.holds n = (some (g.next s n)).map fun r => (r.1.elim (left s) Task.done, r.2) := by
  cases g with
  | noting body => rfl
  | checking =>
    have hlook : (checking.left s).tick? Wait.holds n
        = some (((Attempt.ofExcept (if (n.channel s.channel).isOpen then pure () else throw .closed)
            >>= fun _ => Attempt.act fun n => n.updateWith s.channel fun ch => ch.announce "initialized" (.obj []))
          >>= fun _ => readyingCall s : Network.Call Unit).outcome, n) := by
      rw [left, checkingCall, Network.notify, Request.checkOpen_eq_act]
      rfl
    rw [hlook]
    cases hopen : (n.channel s.channel).isOpen <;> simp only [next, hopen] <;> rfl
  | announcing =>
    have htell : (announcing.left s).tick? Wait.holds n
        = some ((Attempt.ofExcept (n.updateWith s.channel fun ch => ch.announce "initialized" (.obj [])).1
          >>= fun _ => readyingCall s : Network.Call Unit).outcome,
          (n.updateWith s.channel fun ch => ch.announce "initialized" (.obj [])).2) := rfl
    rw [htell]
    simp only [next]
    obtain ⟨told, n'⟩ := n.updateWith s.channel fun ch => ch.announce "initialized" (.obj [])
    cases told <;> rfl
  | readying => rfl

/-- The stages after the answer. -/
def stages (s : Session) : Stages Greeting where
  next g n := some (g.next s n)
  left := left s
  live := live_left
  tick := tick_left

end Greeting

/-- The handshake of a session. -/
def greeting (s : Session) : Handshake (Asking Greeting) :=
  (Greeting.stages s).asking s.channel (Greeting.request s) .noting

/-- The handshake as the session has it. -/
lemma call_greeting (s : Session) : (greeting s).call = (do
    let result ← Network.request s.channel "initialize" s.introduction
    Network.insertFeature s.channel advertised ((result.get? "capabilities").getD .null)
    Network.notify s.channel "initialized" (.obj [])
    Network.setPhase s.channel .ready) :=
  Stages.call_asking _ _ _ _

/-- It is what the session runs once. -/
lemma introduce_eq (s : Session) : s.introduce = channelCall (Network.initializeWith s.channel (greeting s).call) := by
  rw [call_greeting]
  rfl

/-- It makes the session ready at most, as far as doors are concerned. -/
lemma within_greeting (s : Session) : (greeting s).Within (Network.Civil []) := by
  have hcall : Attempt.Within (Network.Civil []) (greeting s).call := by
    rw [call_greeting]
    refine .bind (Network.within_civil_requestUntil List.not_mem_nil _ _) fun result => ?_
    refine .bind (Network.within_civil_insertFeature _ _ _) fun _ => ?_
    exact .bind (Network.within_civil_notify _ _ _) fun _ => .ofTask (.modify Network.civil_setReady)
  exact hcall

/-! ## Steps of the handshake -/

namespace Greeting

variable {s : Session} {n n' : Network} {r : Asking Greeting ⊕ Except Channel.Fault Unit}

/-- A step of the request. -/
lemma next_asking {stage : Request.Stage} {live : stage.reply? = none}
    (h : (greeting s).next (.asking stage live) n = some (r, n')) :
    (Asking.asking stage live).next s.channel (request s) (stages s) noting n = some (r, n') :=
  h

/-- A step after the answer. -/
lemma next_answered {g : Greeting} (h : (greeting s).next (.answered g) n = some (r, n')) :
    r = (g.next s n).1.map Asking.answered id ∧ n' = (g.next s n).2 := by
  obtain ⟨rfl, rfl⟩ := Prod.mk.inj (Option.some.inj h)
  exact ⟨rfl, rfl⟩

/-- The announcement is handed over exactly if the session is about to become ready after it. -/
lemma next_announcing (hc : s.channel < n.channels.length)
    (h : (greeting s).next (.answered announcing) n = some (r, n')) :
    r = .inl (.answered readying) ∧ (∃ message, Network.Leaves s.channel n n' message ∧
        (n.channel s.channel).dialect.Reads message "initialized") ∨
      (∃ fault, r = .inr (.error fault)) ∧ (n'.channel s.channel).outgoing = (n.channel s.channel).outgoing := by
  obtain ⟨rfl, rfl⟩ := next_answered h
  have hchannel : (n.updateWith s.channel fun ch => ch.announce "initialized" (.obj [])).2.channel s.channel
      = ((n.channel s.channel).announce "initialized" (.obj [])).2 := Network.channel_updateWith hc _
  simp only [next]
  rcases Network.post_cases (n.channel s.channel).takeId.2
    ((n.channel s.channel).dialect.notification (n.channel s.channel).nextId "initialized" (.obj []))
    with ⟨hok, hout⟩ | ⟨⟨fault, hfault⟩, hout⟩
  · have htold : (n.updateWith s.channel fun ch => ch.announce "initialized" (.obj [])).1 = .ok () := hok
    rw [htold]
    exact .inl ⟨rfl, _, (congrArg Channel.outgoing hchannel).trans hout, Dialect.reads_notification _ _ _ _⟩
  · have htold : (n.updateWith s.channel fun ch => ch.announce "initialized" (.obj [])).1 = .error fault := hfault
    rw [htold]
    exact .inr ⟨⟨fault, rfl⟩, (congrArg Channel.outgoing hchannel).trans hout⟩

/-- Only the last step changes the door of the channel, and only it ends the handshake well. -/
lemma next_door (hc : s.channel < n.channels.length) {g : Asking Greeting} (h : (greeting s).next g n = some (r, n')) :
    (n'.channel s.channel).door = (n.channel s.channel).door ∧ r ≠ .inr (.ok ()) ∨
      g = .answered readying ∧ r = .inr (.ok ()) := by
  cases g with
  | asking stage live =>
    obtain ⟨hdoor, hr, -⟩ := Asking.asking_next hc (next_asking h)
    exact .inl ⟨hdoor, hr⟩
  | answered g =>
    obtain ⟨rfl, rfl⟩ := next_answered h
    cases g with
    | noting body =>
      rw [next, Network.channel_update hc]
      exact .inl ⟨rfl, nofun⟩
    | checking =>
      refine .inl ⟨rfl, ?_⟩
      simp only [next]
      split <;> nofun
    | announcing =>
      have hchannel := Network.channel_updateWith hc fun ch => ch.announce "initialized" (.obj [])
      refine .inl ⟨(congrArg Channel.door hchannel).trans (Network.door_post _ _), ?_⟩
      rcases next_announcing hc h with ⟨hr, -⟩ | ⟨⟨fault, hr⟩, -⟩ <;> rw [hr] <;> nofun
    | readying => exact .inr ⟨rfl, rfl⟩

/-- The handshake hands over two messages, in these two steps. -/
lemma next_says (hc : s.channel < n.channels.length) {g : Asking Greeting} (h : (greeting s).next g n = some (r, n')) :
    (n'.channel s.channel).outgoing = (n.channel s.channel).outgoing ∨
      ∃ message name, Network.Leaves s.channel n n' message ∧ (n.channel s.channel).dialect.Reads message name ∧
        (name = "initialize" ∧ (∃ stage live, g = .asking stage live) ∨
          name = "initialized" ∧ g = .answered announcing ∧ r = .inl (.answered readying)) := by
  cases g with
  | asking stage live =>
    obtain ⟨-, -, hsame | ⟨message, hleaves, hreads⟩⟩ := Asking.asking_next hc (next_asking h)
    · exact .inl hsame
    · exact .inr ⟨message, "initialize", hleaves, hreads, .inl ⟨rfl, stage, live, rfl⟩⟩
  | answered g =>
    cases g with
    | noting body =>
      obtain ⟨-, rfl⟩ := next_answered h
      exact .inl (by rw [next, Network.channel_update hc])
    | checking =>
      obtain ⟨-, rfl⟩ := next_answered h
      exact .inl rfl
    | announcing =>
      rcases next_announcing hc h with ⟨rfl, message, hleaves, hreads⟩ | ⟨-, hsame⟩
      · exact .inr ⟨message, "initialized", hleaves, hreads, .inr ⟨rfl, rfl, rfl⟩⟩
      · exact .inl hsame
    | readying =>
      obtain ⟨-, rfl⟩ := next_answered h
      exact .inl (Network.outgoing_update (Channel.outgoing_setPhase _) _)

/-- The session is about to become ready when the server was told. -/
lemma announcing_of_readying {g : Asking Greeting} (h : (greeting s).next g n = some (.inl (.answered readying), n'))
    (hg : g ≠ .answered readying) : g = .answered announcing := by
  cases g with
  | asking stage live =>
    obtain ⟨⟨stage', n''⟩, -, hr⟩ := Option.map_eq_some_iff.mp h
    obtain ⟨hstage', -⟩ := Prod.mk.inj hr
    rcases Asking.ofStage_cases Greeting.noting stage' with ⟨live', h'⟩ | ⟨body, -, h'⟩ | ⟨fault, -, h'⟩ <;>
      cases hstage'.symm.trans h'
  | answered g =>
    obtain ⟨hr, -⟩ := next_answered h
    cases g with
    | noting body => cases hr
    | checking =>
      simp only [next] at hr
      split at hr <;> cases hr
    | announcing => rfl
    | readying => exact absurd rfl hg

end Greeting

/-! ## Calls -/

/-- What is asked of a session. -/
inductive Ask where
  | introduce
  | request (method : String) (params : Json)
  | notify (method : String) (params : Json)
  | didOpen (uri text : String)
  | didChange (uri : String) (version : Int) (text : String)
  | didSave (uri : String)
  | didClose (uri : String)
  | shutDown

/-- The work of a call; what a request returns does not matter here. -/
def Ask.work (s : Session) : Ask → Task Wait Network (Except Fault Unit)
  | introduce => s.introduce.outcome
  | request method params => (s.request method params).outcome.andThen fun reply => .done (reply.map fun _ => ())
  | notify method params => (s.notify method params).outcome
  | didOpen uri text => (s.didOpen uri text).outcome
  | didChange uri version text => (s.didChange uri version text).outcome
  | didSave uri => (s.didSave uri).outcome
  | didClose uri => (s.didClose uri).outcome
  | shutDown => s.shutdown.andThen fun _ => .done (.ok ())

/-- The names of the messages that a call sends on its own account. -/
def Ask.names : Ask → List String
  | introduce => []
  | request method _ | notify method _ => [method]
  | didOpen _ _ => ["textDocument/didOpen"]
  | didChange _ _ _ => ["textDocument/didChange"]
  | didSave _ => ["textDocument/didSave"]
  | didClose _ => ["textDocument/didClose"]
  | shutDown => ["shutdown", "exit"]

/-- A notification of the session's own. -/
def telling (s : Session) (method : String) (params : Json) : Task Wait Network (Except Fault Unit) :=
  (channelCall (Network.notify s.channel method params)).outcome

/-- What a call does when the handshake is over. -/
def Ask.own (s : Session) : Ask → Task Wait Network (Except Fault Unit)
  | introduce => .done (.ok ())
  | request method params =>
    (channelCall (Network.request s.channel method params)).outcome.andThen fun reply => .done (reply.map fun _ => ())
  | notify method params => telling s method params
  | didOpen uri text => telling s "textDocument/didOpen" (opened s.server.language uri text)
  | didChange uri version text => telling s "textDocument/didChange" (changed uri version text)
  | didSave uri => telling s "textDocument/didSave" (document uri)
  | didClose uri => telling s "textDocument/didClose" (document uri)
  | shutDown => .done (.ok ())

/-- What a call does when it is known how the handshake ended. -/
def Ask.rest (s : Session) (ask : Ask) : Except Channel.Fault Unit → Task Wait Network (Except Fault Unit)
  | .ok () => ask.own s
  | .error fault => .done (.error (.channel fault))

/-- What a shutdown does when it is known whether the session is ready. -/
def partingTask (s : Session) : Task Wait Network (Except Fault Unit) :=
  (Network.request s.channel "shutdown" .null).outcome.andThen fun _ =>
    (Network.notify s.channel "exit" .null).outcome.andThen fun _ =>
      (Network.shutdown s.channel).andThen fun _ => .done (.ok ())

/-- Where a call is. -/
inductive Spot where
  /-- At the handshake, or about to leave it. -/
  | introducing (place : Place (Asking Greeting))
  /-- Past the handshake. -/
  | following (ending : Ending) (left : Task Wait Network (Except Fault Unit))
  /-- A shutdown before its look at the phase. -/
  | glancing
  /-- A shutdown that found the session ready. -/
  | parting (left : Task Wait Network (Except Fault Unit))
  /-- A shutdown that did not. -/
  | closing (left : Task Wait Network (Except Fault Unit))

namespace Spot

variable (s : Session)

/-- Where a call begins. -/
def ofAsk : Ask → Spot
  | .shutDown => glancing
  | _ => introducing .arriving

/-- What is left to do at a spot. -/
def work (ask : Ask) : Spot → Task Wait Network (Except Fault Unit)
  | introducing place => (place.work s.channel (greeting s)).andThen (ask.rest s)
  | glancing => Ask.shutDown.work s
  | following _ left | parting left | closing left => left

/-- One step, if the spot allows one. -/
def next (ask : Ask) (n : Network) : Spot → Option (Spot × Network)
  | introducing (.gone ending) =>
    ((ask.rest s ending.result).tick? Wait.holds n).map fun (left, n) => (following ending left, n)
  | introducing place => (place.next s.channel (greeting s) n).map fun (place, n) => (introducing place, n)
  | glancing =>
    some (if (n.channel s.channel).phase = .ready then parting (partingTask s)
      else closing ((Network.shutdown s.channel).andThen fun _ => .done (.ok ())), n)
  | following ending left => (left.tick? Wait.holds n).map fun (left, n) => (following ending left, n)
  | parting left => (left.tick? Wait.holds n).map fun (left, n) => (parting left, n)
  | closing left => (left.tick? Wait.holds n).map fun (left, n) => (closing left, n)

variable {s}

/-- A call that introduces the session first. -/
lemma introduce_bind {α : Type} (k : Unit → Call α) (rest : Except Channel.Fault Unit → Task Wait Network (Except Fault α))
    (hok : rest (.ok ()) = (k ()).outcome) (herror : ∀ fault, rest (.error fault) = .done (.error (.channel fault))) :
    (s.introduce >>= k).outcome = (Network.initializeWith s.channel (greeting s).call).outcome.andThen rest := by
  rw [introduce_eq]
  show ((Network.initializeWith s.channel (greeting s).call).outcome.andThen _).andThen _ = _
  rw [Task.andThen_assoc]
  congr 1
  funext result
  cases result with
  | ok u => exact hok.symm
  | error fault => exact (herror fault).symm

/-- Where a call begins all its work is left. -/
lemma work_ofAsk (ask : Ask) : (ofAsk ask).work s ask = ask.work s := by
  cases ask with
  | shutDown => rfl
  | introduce =>
    show _ = s.introduce.outcome
    rw [← bind_pure s.introduce]
    exact (introduce_bind _ _ rfl fun _ => rfl).symm
  | request method params =>
    have hcall : (Ask.request method params).work s
        = ((s.introduce >>= fun _ => channelCall (Network.request s.channel method params)).outcome).andThen
            fun reply => .done (reply.map fun _ => ()) := rfl
    rw [hcall, introduce_bind _ (fun
      | .ok () => (channelCall (Network.request s.channel method params)).outcome
      | .error fault => .done (.error (.channel fault))) rfl fun _ => rfl, Task.andThen_assoc]
    show (Network.initializeWith s.channel (greeting s).call).outcome.andThen _ = _
    congr 1
    funext result
    cases result <;> rfl
  | _ => exact (introduce_bind _ _ rfl fun _ => rfl).symm

lemma next_introducing {ask : Ask} {n : Network} {place : Place (Asking Greeting)} (hgone : ∀ ending, place ≠ .gone ending) :
    (introducing place).next s ask n
      = (place.next s.channel (greeting s) n).map fun (place, n) => (introducing place, n) := by
  cases place with
  | gone ending => exact absurd rfl (hgone ending)
  | _ => rfl

/-- A step of the work that is left at a spot leads to the work that is left at the next one. -/
theorem tick_work (ask : Ask) (spot : Spot) (n : Network) :
    (spot.work s ask).tick? Wait.holds n = (spot.next s ask n).map fun (spot, n) => (spot.work s ask, n) := by
  have hplain : ∀ left : Task Wait Network (Except Fault Unit), left.tick? Wait.holds n
      = (left.tick? Wait.holds n).map fun r => (r.1, r.2) := by
    intro left
    simp only [Prod.mk.eta, Option.map_id']
  cases spot with
  | introducing place =>
    rcases place.eq_gone_or with ⟨ending, rfl⟩ | hgone
    · simp only [next, Option.map_map]
      exact hplain _
    · rw [next_introducing hgone, Option.map_map, work, Place.tick_work_andThen _ hgone]
      rfl
  | glancing =>
    have hlook : (glancing.work s ask).tick? Wait.holds n
        = some ((if (n.channel s.channel).phase = .ready then
            (Network.request s.channel "shutdown" .null).outcome.andThen fun _ =>
              (Network.notify s.channel "exit" .null).outcome.andThen fun _ => Network.shutdown s.channel
          else Network.shutdown s.channel).andThen fun _ => .done (.ok ()), n) := rfl
    rw [hlook, next]
    by_cases hready : (n.channel s.channel).phase = .ready
    · rw [if_pos hready, if_pos hready, Task.andThen_assoc]
      simp only [Task.andThen_assoc]
      rfl
    · rw [if_neg hready, if_neg hready]
      rfl
  | following ending left | parting left | closing left =>
    simp only [next, Option.map_map]
    exact hplain left

end Spot

end Switchboard.Analysis.Session
