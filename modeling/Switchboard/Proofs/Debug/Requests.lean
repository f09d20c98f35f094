import Switchboard.Debug.Control
import Switchboard.Proofs.Channel.Stage

/-!
# Requests of a session as work on the world

* `tick?_onNet`, `stretch_onNet`: steps on the network are steps on the world;
* `Session.reading`, `Session.outcome_requestAs`: what a session makes of the outcome of a request;
* `stretch_ask`: the two stretches of a request that is followed by other work.
-/

namespace Switchboard

namespace World

/-- A step on the network is a step on the world. -/
lemma tick?_onNet {α : Type} (t : Task Wait Network α) (w : World) :
    (onNet t).tick? holds w = (t.tick? Wait.holds w.net).map fun (t, net) => (onNet t, { w with net }) :=
  @Task.tick?_zoom _ _ _ _ World.net (fun net w => { w with net }) (fun _ => rfl) Wait.holds t w

/-- A stretch on the network is a stretch on the world. -/
lemma stretch_onNet {α : Type} (t : Task Wait Network α) (w : World) :
    (onNet t).stretch w = (onNet (t.stretch w.net).1, { w with net := (t.stretch w.net).2 }) :=
  @Task.stretch_zoom _ _ _ _ World.net (fun net w => { w with net }) (fun _ => rfl) (fun _ _ => rfl)
    (fun _ _ _ => rfl) t w

/-- A request that other work follows: it hands its message over and waits, and later the work goes on with its
outcome, and at most the table of its channel differs. -/
lemma stretch_ask {α : Type} (r : Network.Request) {c : ChannelId} {w : World} (hc : c < w.net.channels.length)
    (hopen : (w.channel c).isOpen = true) (hout : (w.channel c).outputBroken = false)
    (k : Except Channel.Fault Json → Task Wait World α) :
    ∃ on next, ((onNet (Network.requestUntil c r.method r.params r.latest).outcome).andThen k).stretch w
        = (.wait on next, { w with net := w.net.update c r.asked }) ∧
      ∀ w : World, ∃ result, ∃ f : Pending → Pending, next.stretch w
        = (k result).stretch { w with net := w.net.update c fun ch => { ch with pending := f ch.pending } } := by
  obtain ⟨id, ticket, limit, deadline, hstretch⟩ := Network.Request.stretch_starting (r := r) hc hopen hout
  have hfirst : (onNet (Network.requestUntil c r.method r.params r.latest).outcome).stretch w
      = (.wait (.answer c ticket deadline) (onNet ((Network.Request.Stage.fetching id ticket limit).work c r)),
          { w with net := w.net.update c r.asked }) := by
    rw [stretch_onNet]
    show (onNet ((Network.Request.Stage.starting.work c r).stretch w.net).1,
      { w with net := ((Network.Request.Stage.starting.work c r).stretch w.net).2 }) = _
    rw [hstretch]
    rfl
  refine ⟨_, _, Task.stretch_andThen_of_wait hfirst k, fun w => ?_⟩
  obtain ⟨result, f, hlast⟩ := Network.Request.stretch_fetching (c := c) (r := r) id ticket limit w.net
  refine ⟨result, f, Task.stretch_andThen_of_done ?_ k⟩
  rw [stretch_onNet, hlast]
  rfl

end World

namespace Debug.Session

/-- What a session makes of the outcome of a request whose answer has a body of a known shape. -/
def reading {α : Type} (shape : Json.Shape α) (command : String) : Except Channel.Fault Json → Except Fault α
  | .error e => throw (.ofChannel command e)
  | .ok body =>
    match shape body with
    | .ok b => pure b
    | .error e => throw (.badBody command e)

/-- A request of a session reads the answer of the channel. -/
lemma outcome_requestAs {α : Type} (s : Session) (shape : Json.Shape α) (command : String) (arguments : Json) :
    (s.requestAs shape command arguments).outcome
      = (Network.request s.channel command arguments).outcome.andThen fun reply => .done (reading shape command reply) := by
  show ((Network.request s.channel command arguments).outcome.andThen _).andThen _ = _
  rw [Task.andThen_assoc]
  congr 1
  funext reply
  cases reply with
  | error e => rfl
  | ok body =>
    simp only [pure, Task.andThen, ExceptT.bindCont, reading]
    cases shape body <;> rfl

/-- A request of a session is one of its channel, with failures put differently. -/
lemma outcome_request (s : Session) (command : String) (arguments : Json) :
    (s.request command arguments).outcome
      = (Network.request s.channel command arguments).outcome.andThen fun reply =>
          .done (reply.mapError (Fault.ofChannel command)) := by
  show (Network.request s.channel command arguments).outcome.andThen _ = _
  congr 1
  funext reply
  cases reply <;> rfl

/-- As work on the world, a request of a session is one of its channel. -/
lemma outcome_call_requestAs_andThen {α β : Type} (s : Session) (shape : Json.Shape α) (command : String) (arguments : Json)
    (k : Except Fault α → Task Wait World β) :
    (World.call (s.requestAs shape command arguments)).outcome.andThen k
      = (World.onNet (Network.request s.channel command arguments).outcome).andThen fun reply =>
          k (reading shape command reply) := by
  show (World.onNet (s.requestAs shape command arguments).outcome).andThen k = _
  rw [outcome_requestAs, World.onNet, Task.zoom_andThen, Task.andThen_assoc]
  rfl

lemma outcome_call_request_andThen {β : Type} (s : Session) (command : String) (arguments : Json)
    (k : Except Fault Json → Task Wait World β) :
    (World.call (s.request command arguments)).outcome.andThen k
      = (World.onNet (Network.request s.channel command arguments).outcome).andThen fun reply =>
          k (reply.mapError (Fault.ofChannel command)) := by
  show (World.onNet (s.request command arguments).outcome).andThen k = _
  rw [outcome_request, World.onNet, Task.zoom_andThen, Task.andThen_assoc]
  rfl

end Debug.Session

end Switchboard
