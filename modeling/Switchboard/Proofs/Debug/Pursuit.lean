import Switchboard.Proofs.Channel.Asking
import Switchboard.Proofs.Debug.Grounding
import Switchboard.Proofs.Debug.Requests

/-!
# Pursuing a launch

* `Session.introducing`: the first half of the handshake of a session, by its stages;
* `Target.within_only_start`: a launch of a target says nothing over channels other than that of the target;
* `Spot`, `Spot.next`: where a request is, as far as launches are concerned, and one step of it;
* `Spot.tick_work`: a step of the work is a step from spot to spot; `Spot.Goes`: what such a step can be;
* `Spot.Fine`, `Goes.fine`: what is left of a request does as it should, and stays so.
-/

namespace Switchboard

open Debug

/-! ## The first half of the handshake -/

namespace Debug.Session

open Network (Stages Asking)

variable (s : Session)

/-- What the adapter is asked first. -/
def introduction : Network.Request := { method := "initialize", params := s.initializeArguments }

/-- What the handshake does once the adapter has answered: it notes what the adapter advertises. -/
def noting : Stages Json where
  next body n := some (.inr (.ok ()), n.update s.channel fun ch =>
    { ch with features := ch.features.insert advertised body })
  left body := (Network.insertFeature s.channel advertised body).outcome
  live _ := rfl
  tick _ _ := rfl

/-- The first half of the handshake, by its stages. -/
def introducing : Network.Handshake (Asking Json) := s.noting.asking s.channel s.introduction id

/-- The first half of the handshake as the session has it. -/
lemma call_introducing : s.introducing.call = (do
    let body ← Network.request s.channel "initialize" s.initializeArguments
    Network.insertFeature s.channel advertised body) :=
  Stages.call_asking _ _ _ _

/-- It is what the session runs once. -/
lemma introduce_eq : s.introduce = under "initialize" (Network.initializeWith s.channel s.introducing.call) := by
  rw [call_introducing]
  rfl

/-- It marks no door, and launches nothing. -/
lemma within_introducing : s.introducing.Within (Network.Civil Target.launchings) := by
  have hcall : Attempt.Within (Network.Civil Target.launchings) s.introducing.call := by
    rw [call_introducing]
    exact .bind (Network.within_civil_requestUntil (by decide) _ _) fun _ => Network.within_civil_insertFeature _ _ _
  exact hcall

end Debug.Session

/-! ## Launches -/

namespace Network

/-- A message leaves over a channel that the other side reads as a request of one of these names. -/
def Asks (c : ChannelId) (names : List String) (n n' : Network) : Prop :=
  ∃ message, Leaves c n n' message ∧ ∃ name ∈ names, ∃ seq params,
    (n.channel c).dialect.decode message = .ok (.request seq name params)

lemma Asks.hands {c : ChannelId} {names : List String} {n n' : Network} (h : Asks c names n n') : Hands names n n' := by
  obtain ⟨message, hleaves, name, hname, seq, params, hread⟩ := h
  exact ⟨name, hname, c, message, seq, params, hleaves, hread⟩

end Network

namespace Debug.Target

variable {id : Nat} {c : ChannelId}

/-- The world is grounded, and the target is on a session over this channel. -/
def IsOn (id : Nat) (c : ChannelId) (w : World) : Prop := w.Grounded ∧ w.OnChannel id c

/-- Nothing leaves over other channels. -/
def Only (c : ChannelId) (w w' : World) : Prop :=
  ∀ d, d ≠ c → (w'.net.channel d).outgoing = (w.net.channel d).outgoing

lemma Only.refl (c : ChannelId) (w : World) : Only c w w := fun _ _ => rfl

lemma within_only_request (command : String) (arguments : Json) :
    Attempt.WithinWhere (IsOn id c) (Only c) (request id command arguments) := by
  refine .view_bind (Only.refl c) ?_
  rintro w ⟨hw, hid⟩
  refine .of_within (.zoom ?_ (within_sessionRequest _ command arguments))
  intro v n hsays d hd
  exact hsays.others d (by rwa [hid.channel_eq hw])

/-- A launch says nothing over other channels than that of the target. -/
lemma within_only_start (root : Option Path) : Attempt.WithinWhere (IsOn id c) (Only c) (Target.start id root) := by
  have hbegins : Attempt.Within (Only c) (tryChange id beginLaunch) := by
    refine .act ?_
    intro w
    split <;> exact .refl c _
  have hchanges : ∀ f, Attempt.Within (Only c) (change id f) := fun f => .ofTask (.modify fun w => .refl c _)
  refine .bind (.of_within hbegins) ?_
  intro _
  refine .view_bind (Only.refl c) ?_
  intro _ _
  refine .view_bind (Only.refl c) ?_
  intro w _
  refine .bind (.andThen (within_only_request _ _) fun _ => trivial) ?_
  intro reply
  cases reply with
  | ok body => exact .of_within (hchanges launched)
  | error e => exact .bind (.of_within (hchanges launchFailed)) fun _ => trivial

end Debug.Target

/-! ## Where a request is -/

namespace Debug.Pursuit

open Debug.Bustle (Request)
open Network (Place Ending Asking)
open World (Calm)

/-- What is left of a command that runs something; what the run gives does not matter here. -/
def concluded (run : DebugWork Nat) : Task Wait World Unit := run.outcome.andThen fun _ => .done ()

/-- What is left of a run at the table. -/
def claimingRun (launch : Launch) (root : Option Path) : DebugWork Nat := do
  let target ← Attempt.act fun w => w.claim launch root
  Running.pursuing root target

/-- What is left of a run that knows its configuration. -/
def queueingRun (launch : Launch) (root : Option Path) : DebugWork Nat := do
  Attempt.ofTask (Task.await .table)
  claimingRun launch root

/-- What a run does when it is known how the handshake ended. -/
def settling (target : Target) (root : Option Path) : Except Channel.Fault Unit → Task Wait World Unit
  | .ok () => concluded do
    Target.start target.id root
    return target.id
  | .error fault => concluded do
    Attempt.ofTask (Target.markTerminated target.id)
    throw (Fault.ofChannel "initialize" fault)

/-- Where a request is. -/
inductive Spot where
  /-- It launches nothing any more. -/
  | other (left : Task Wait World Unit)
  /-- A run that is about to look up its configuration. -/
  | asked (launch : Nat)
  | queueing (launch : Launch) (root : Option Path)
  | claiming (launch : Launch) (root : Option Path)
  /-- It has claimed a target, and is about to look up its session. -/
  | pursuing (target : Target) (root : Option Path)
  /-- It is at the handshake of the session, or about to leave it. -/
  | introducing (target : Target) (root : Option Path) (session : Session) (place : Place (Asking Json))
  /-- It is past the handshake, which let it go on. -/
  | launching (target : Target) (session : Session) (ending : Ending) (left : Task Wait World Unit)

namespace Spot

/-- Where a request begins. -/
def ofRequest : Request → Spot
  | .command (.run launch) => asked launch
  | r => other r.work

/-- Where a run is that is past the handshake. -/
def settled (target : Target) (session : Session) (ending : Ending) (left : Task Wait World Unit) : Spot :=
  match ending.result with
  | .ok () => launching target session ending left
  | .error _ => other left

/-- What is left to do at a spot. -/
def work : Spot → Task Wait World Unit
  | other left => left
  | asked launch => concluded (Running.run launch)
  | queueing launch root => concluded (queueingRun launch root)
  | claiming launch root => concluded (claimingRun launch root)
  | pursuing target root => concluded (Running.pursuing root target)
  | introducing target root session place =>
    (World.onNet (place.work session.channel session.introducing)).andThen (settling target root)
  | launching _ _ _ left => left

/-- Where a run is that has looked up its configuration. -/
def lookedUp (w : World) : Option Launch → Spot
  | none => other (.done ())
  | some launch => queueing launch (w.debugger.settings.projectRoot? launch.project)

/-- Where a run is that was at the table. -/
def claimed (root : Option Path) : Except Fault Target → Spot
  | .ok target => pursuing target root
  | .error _ => other (.done ())

/-- One step, if the spot allows one. -/
def next (w : World) : Spot → Option (Spot × World)
  | other left => (left.tick? World.holds w).map fun (left, w) => (other left, w)
  | asked launch => some (lookedUp w (w.debugger.launches.get? launch), w)
  | queueing launch root => if World.holds .table w then some (claiming launch root, w) else none
  | claiming launch root => some (claimed root (w.claim launch root).1, (w.claim launch root).2)
  | pursuing target root =>
    some (introducing target root (w.debugger.session (w.target target.id).session) .arriving, w)
  | introducing target root session (.gone ending) =>
    ((settling target root ending.result).tick? World.holds w).map fun (left, w) =>
      (settled target session ending left, w)
  | introducing target root session place =>
    (place.next session.channel session.introducing w.net).map fun (place, net) =>
      (introducing target root session place, { w with net })
  | launching target session ending left =>
    (left.tick? World.holds w).map fun (left, w) => (launching target session ending left, w)

/-- Where a request begins all its work is left. -/
lemma work_ofRequest (r : Request) : (ofRequest r).work = r.work := by
  have hrun : ∀ launch, concluded (Running.run launch) = (Request.command (.run launch)).work := by
    intro launch
    show (Running.run launch).outcome.andThen _ = ((Running.run launch).outcome.andThen _).andThen _
    rw [Task.andThen_assoc]
    congr 1
    funext result
    cases result <;> rfl
  cases r with
  | command c =>
    cases c with
    | run launch => exact hrun launch
    | _ => rfl
  | _ => rfl

lemma work_settled (target : Target) (session : Session) (ending : Ending) (left : Task Wait World Unit) :
    (settled target session ending left).work = left := by
  unfold settled
  split <;> rfl

/-- What is left of a run that found its session is the handshake, and what comes after it. -/
lemma work_introducing (target : Target) (root : Option Path) (session : Session) :
    (introducing target root session .arriving).work = concluded (do
      match ← Attempt.ofTask (World.call session.introduce).outcome with
      | .ok () => do
        Target.start target.id root
        return target.id
      | .error e => do
        Attempt.ofTask (Target.markTerminated target.id)
        throw e) := by
  rw [Session.introduce_eq]
  show _ = (((World.onNet ((Network.initializeWith session.channel session.introducing.call).outcome.andThen _)).andThen
    _).andThen _).andThen _
  rw [World.onNet, Task.zoom_andThen, Task.andThen_assoc, Task.andThen_assoc, Task.andThen_assoc]
  show (World.onNet (Network.initializeWith session.channel session.introducing.call).outcome).andThen _ = _
  congr 1
  funext result
  cases result <;> rfl

lemma next_introducing {w : World} {target : Target} {root : Option Path} {session : Session}
    {place : Place (Asking Json)} (hgone : ∀ ending, place ≠ .gone ending) :
    (introducing target root session place).next w
      = (place.next session.channel session.introducing w.net).map fun (place, net) =>
          (introducing target root session place, { w with net }) := by
  cases place with
  | gone ending => exact absurd rfl (hgone ending)
  | _ => rfl

/-- A step of the work that is left at a spot leads to the work that is left at the next one. -/
theorem tick_work (spot : Spot) (w : World) :
    spot.work.tick? World.holds w = (spot.next w).map fun (spot, w) => (spot.work, w) := by
  have hplain : ∀ left : Task Wait World Unit, left.tick? World.holds w
      = (left.tick? World.holds w).map fun r => (r.1, r.2) := by
    intro left
    simp only [Prod.mk.eta, Option.map_id']
  cases spot with
  | other left | launching target session ending left =>
    simp only [next, Option.map_map]
    exact hplain left
  | asked launch =>
    have hlook : (asked launch).work.tick? World.holds w = some (concluded (match w.debugger.launches.get? launch with
        | none => throw (.noSuchLaunch launch)
        | some l => queueingRun l (w.debugger.settings.projectRoot? l.project)), w) := rfl
    rw [hlook]
    simp only [next]
    cases w.debugger.launches.get? launch <;> rfl
  | queueing launch root =>
    show (if World.holds .table w then some ((claiming launch root).work, w) else none) = _
    simp only [next]
    split <;> rfl
  | claiming launch root =>
    have hclaim : (claiming launch root).work.tick? World.holds w
        = some (concluded (Attempt.ofExcept (w.claim launch root).1 >>= Running.pursuing root),
            (w.claim launch root).2) := rfl
    rw [hclaim]
    simp only [next]
    cases (w.claim launch root).1 <;> rfl
  | pursuing target root =>
    simp only [next, Option.map_some, work_introducing]
    rfl
  | introducing target root session place =>
    rcases place.eq_gone_or with ⟨ending, rfl⟩ | hgone
    · simp only [next, Option.map_map, Function.comp_def, work_settled]
      exact hplain _
    · have hlive : (World.onNet (place.work session.channel session.introducing)).result? = none :=
        Task.result?_zoom.trans (Place.result?_work hgone)
      rw [next_introducing hgone, Option.map_map, work, Task.tick?_andThen hlive, World.tick?_onNet, Place.tick_work,
        Option.map_map, Option.map_map]
      rfl

/-! ## What a step can be -/

variable {w w' : World} {r : Request} {spot spot' : Spot} {c : ChannelId}

/-- What a step of a request can be. -/
inductive Goes (w : World) : Spot → Spot → World → Prop
  | carriesOn (left left' : Task Wait World Unit) (w' : World) (step : left.tick? World.holds w = some (left', w')) :
    Goes w (other left) (other left') w'
  | looksUp (launch : Nat) : Goes w (asked launch) (lookedUp w (w.debugger.launches.get? launch)) w
  | queues (launch : Launch) (root : Option Path) : Goes w (queueing launch root) (claiming launch root) w
  | claims (launch : Launch) (root : Option Path) :
    Goes w (claiming launch root) (claimed root (w.claim launch root).1) (w.claim launch root).2
  | meets (target : Target) (root : Option Path) :
    Goes w (pursuing target root)
      (introducing target root (w.debugger.session (w.target target.id).session) .arriving) w
  | turns (target : Target) (root : Option Path) (session : Session) (place place' : Place (Asking Json)) (net : Network)
    (step : place.next session.channel session.introducing w.net = some (place', net)) :
    Goes w (introducing target root session place) (introducing target root session place') { w with net }
  | fails (target : Target) (root : Option Path) (session : Session) (ending : Ending) (fault : Channel.Fault)
    (left : Task Wait World Unit) (w' : World) (failed : ending.result = .error fault)
    (step : (settling target root (.error fault)).tick? World.holds w = some (left, w')) :
    Goes w (introducing target root session (.gone ending)) (other left) w'
  | starts (target : Target) (root : Option Path) (session : Session) (ending : Ending) (left : Task Wait World Unit)
    (w' : World) (ok : ending.result = .ok ())
    (step : (settling target root (.ok ())).tick? World.holds w = some (left, w')) :
    Goes w (introducing target root session (.gone ending)) (launching target session ending left) w'
  | launches (target : Target) (session : Session) (ending : Ending) (left left' : Task Wait World Unit) (w' : World)
    (step : left.tick? World.holds w = some (left', w')) :
    Goes w (launching target session ending left) (launching target session ending left') w'

lemma goes (h : spot.next w = some (spot', w')) : Goes w spot spot' w' := by
  cases spot with
  | other left =>
    obtain ⟨⟨left', v⟩, step, heq⟩ := Option.map_eq_some_iff.mp h
    obtain ⟨rfl, rfl⟩ := Prod.mk.inj heq
    exact .carriesOn left left' v step
  | asked launch =>
    obtain ⟨rfl, rfl⟩ := Prod.mk.inj (Option.some.inj h)
    exact .looksUp launch
  | queueing launch root =>
    simp only [next] at h
    split at h
    · obtain ⟨rfl, rfl⟩ := Prod.mk.inj (Option.some.inj h)
      exact .queues launch root
    · cases h
  | claiming launch root =>
    obtain ⟨rfl, rfl⟩ := Prod.mk.inj (Option.some.inj h)
    exact .claims launch root
  | pursuing target root =>
    obtain ⟨rfl, rfl⟩ := Prod.mk.inj (Option.some.inj h)
    exact .meets target root
  | introducing target root session place =>
    rcases place.eq_gone_or with ⟨ending, rfl⟩ | hgone
    · obtain ⟨⟨left, v⟩, step, heq⟩ := Option.map_eq_some_iff.mp h
      obtain ⟨rfl, rfl⟩ := Prod.mk.inj heq
      unfold settled
      cases hresult : ending.result with
      | ok u => exact .starts target root session ending left v hresult (hresult ▸ step)
      | error fault => exact .fails target root session ending fault left v hresult (hresult ▸ step)
    · rw [next_introducing hgone] at h
      obtain ⟨⟨place', net⟩, step, heq⟩ := Option.map_eq_some_iff.mp h
      obtain ⟨rfl, rfl⟩ := Prod.mk.inj heq
      exact .turns target root session place place' net step
  | launching target session ending left =>
    obtain ⟨⟨left', v⟩, step, heq⟩ := Option.map_eq_some_iff.mp h
    obtain ⟨rfl, rfl⟩ := Prod.mk.inj heq
    exact .launches target session ending left left' v step

/-! ## What is left does as it should -/

/-- What is left of a launch says what it may, over the channel of its target. -/
structure Launching (id : Nat) (c : ChannelId) (left : Task Wait World Unit) : Prop where
  touches : left.Within (Target.Touches id Target.launchings)
  only : left.WithinWhere (Target.IsOn id c) (Target.Only c)

/-- Where a request is, its target is on the session over which it shakes hands, and what is left does as it should. -/
def Placed (w : World) (r : Request) : Spot → Prop
  | other left => left.Within fun w w' => r.Admitted w → Calm w w'
  | asked _ | queueing _ _ | claiming _ _ => True
  | pursuing target _ => ∃ c, w.OnChannel target.id c
  | introducing target _ session place => w.OnChannel target.id session.channel ∧
      place.Within session.introducing (Network.Civil Target.launchings)
  | launching target session ending left => w.OnChannel target.id session.channel ∧ ending.result = .ok () ∧
      Launching target.id session.channel left

/-- All is fine with a request. -/
structure Fine (w : World) (r : Request) (spot : Spot) : Prop where
  admitted : r.Admitted w
  placed : spot.Placed w r

/-- It stays so as long as the world continues. -/
lemma Fine.continues (h : spot.Fine w r) (hw : w.Continues w') : spot.Fine w' r where
  admitted := h.admitted.continues hw
  placed := by
    have hplaced := h.placed
    cases spot with
    | other | asked | queueing | claiming => exact hplaced
    | pursuing target root => exact hplaced.imp fun c => hw.onChannel _ c
    | introducing | launching => exact ⟨hw.onChannel _ _ hplaced.1, hplaced.2⟩

lemma fine_ofRequest (h : r.Admitted w) : (ofRequest r).Fine w r where
  admitted := h
  placed := by
    by_cases hrun : ∃ launch, r = .command (.run launch)
    · obtain ⟨launch, rfl⟩ := hrun
      trivial
    · have hother : ofRequest r = other r.work := by
        unfold ofRequest
        split
        · next launch => exact absurd ⟨launch, rfl⟩ hrun
        · rfl
      rw [hother]
      exact r.within_calm fun launch hr => hrun ⟨launch, hr⟩

lemma launching_settling (target : Target) (root : Option Path) (c : ChannelId) :
    Launching target.id c (settling target root (.ok ())) where
  touches := .andThen (Attempt.Within.bind (Target.within_start root) fun _ => .pure target.id) fun _ => trivial
  only := .andThen (Attempt.WithinWhere.bind (Target.within_only_start root) fun _ => trivial) fun _ => trivial

lemma within_settling (target : Target) (root : Option Path) (fault : Channel.Fault) :
    (settling target root (.error fault)).Within Calm := by
  have hends : Attempt.Within Calm (do
      Attempt.ofTask (Target.markTerminated target.id)
      throw (Fault.ofChannel "initialize" fault) : DebugWork Nat) :=
    .bind (.ofTask (Bustle.allowed_calm.markTerminated target.id)) fun _ => .throw _
  exact .andThen hends fun _ => trivial

/-- A step of what is left of a launch. -/
lemma Launching.tick {id : Nat} {left left' : Task Wait World Unit} (h : Launching id c left) (hw : w.Grounded)
    (hid : w.OnChannel id c) (step : left.tick? World.holds w = some (left', w')) :
    w.Continues w' ∧ (∀ d, Network.Mild d w.net w'.net) ∧ Target.Only c w w' ∧ Launching id c left' := by
  obtain ⟨htouches, hleft⟩ := Task.Within.tick h.touches step
  obtain ⟨honly, hleft'⟩ := Task.WithinWhere.tick h.only ⟨hw, hid⟩ step
  have honly' : Target.Only c w w' := by
    rcases honly with honly | rfl
    · exact honly
    · exact .refl c _
  rcases htouches with htouches | rfl
  · have hmild : ∀ d, Network.Mild d w.net w'.net := by
      obtain ⟨d, hsays⟩ := htouches.exists_says
      exact hsays.mild
    exact ⟨.of_keeps (htouches.spares hw.coherent.toNumbered) hw fun d => (hmild d).present, hmild, honly', hleft, hleft'⟩
  · exact ⟨.refl hw, fun d => .refl d _, honly', hleft, hleft'⟩

/-- A step of what is left of a request that launches nothing. -/
lemma calm_tick {R : World → World → Prop} {left left' : Task Wait World Unit} (h : left.Within R)
    (hcalm : R w w' → Calm w w') (hw : w.Grounded) (step : left.tick? World.holds w = some (left', w')) :
    w.Continues w' ∧ Network.Civil Target.launchings w.net w'.net ∧ left'.Within R := by
  obtain ⟨hR | rfl, hleft⟩ := Task.Within.tick h step
  · obtain ⟨hcontinues, hcivil⟩ := hcalm hR hw
    exact ⟨hcontinues, hcivil, hleft⟩
  · exact ⟨.refl hw, .refl _ _, hleft⟩

/-! ## At the door of a channel -/

/-- Where a request stands at the door of a channel. -/
def stand (c : ChannelId) : Spot → Network.Stand
  | introducing _ _ session place => if session.channel = c then place.stand else .away
  | _ => .away

/-- The handshake of a run over a channel returned well. -/
def IsShaken (c : ChannelId) : Spot → Prop
  | introducing _ _ session place => session.channel = c ∧ place.IsShaken
  | launching _ session ending _ => session.channel = c ∧ ending = .shook (.ok ())
  | _ => False

/-- It stands at no door, and no handshake of it returned well. -/
def IsAside (spot : Spot) : Prop := ∀ c, spot.stand c = .away ∧ ¬ spot.IsShaken c

/-- What a run made of its look at the phase of a channel, once that is behind it. -/
def looked? (c : ChannelId) : Spot → Option (Option Phase)
  | introducing _ _ session place => if session.channel = c then place.looked? else none
  | launching _ session ending _ => if session.channel = c then some ending.found? else none
  | _ => none

/-- A run is past the handshake over a channel, which it left like this. -/
inductive Passed (c : ChannelId) : Ending → Spot → Prop
  | gone (target : Target) (root : Option Path) (session : Session) (own : session.channel = c) (ending : Ending) :
    Passed c ending (introducing target root session (.gone ending))
  | launching (target : Target) (session : Session) (own : session.channel = c) (ending : Ending)
    (left : Task Wait World Unit) : Passed c ending (launching target session ending left)

lemma Passed.looked? {ending : Ending} (h : Passed c ending spot) : spot.looked? c = some ending.found? := by
  cases h with
  | gone target root session own => exact if_pos own
  | launching target session own => exact if_pos own

lemma Passed.isShaken_iff {ending : Ending} (h : Passed c ending spot) (d : ChannelId) :
    spot.IsShaken d ↔ c = d ∧ ending = .shook (.ok ()) := by
  cases h with
  | gone target root session own => exact own ▸ and_congr_right fun _ => Place.isShaken_gone ending
  | launching target session own => exact own ▸ Iff.rfl

lemma Passed.stand {ending : Ending} (h : Passed c ending spot) (d : ChannelId) : spot.stand d = .away := by
  cases h with
  | gone target root session own => exact ite_self _
  | launching target session own => rfl

/-- What a step of a request does in a world that is grounded, as far as doors and launches are concerned. -/
inductive Does (w w' : World) : Spot → Spot → Prop
  /-- It is a turn at the handshake. -/
  | turns (target : Target) (root : Option Path) (session : Session) (place place' : Place (Asking Json))
    (step : place.next session.channel session.introducing w.net = some (place', w'.net)) :
    Does w w' (introducing target root session place) (introducing target root session place')
  /-- It has nothing to do with either. -/
  | aside (spot spot' : Spot) (aside : spot.IsAside) (aside' : spot'.IsAside)
    (civil : Network.Civil Target.launchings w.net w'.net) : Does w w' spot spot'
  /-- It is one of a launch. -/
  | launches (c : ChannelId) (ending : Ending) (spot spot' : Spot) (ok : ending.result = .ok ())
    (passed : Passed c ending spot) (passed' : Passed c ending spot') (mild : ∀ d, Network.Mild d w.net w'.net) (only : Target.Only c w w') :
    Does w w' spot spot'

lemma Fine.aside (h : spot.Fine w r) (haside : spot.IsAside) (haside' : spot'.IsAside) (hw : w.Continues w')
    (hcivil : Network.Civil Target.launchings w.net w'.net) (hplaced : spot'.Placed w' r) :
    w.Continues w' ∧ spot'.Fine w' r ∧ Does w w' spot spot' :=
  ⟨hw, ⟨h.admitted.continues hw, hplaced⟩, .aside spot spot' haside haside' hcivil⟩

/-- In a world that is grounded a step lets the world continue, and all stays fine. -/
theorem Goes.does (h : Goes w spot spot' w') (hw : w.Grounded) (hfine : spot.Fine w r) :
    w.Continues w' ∧ spot'.Fine w' r ∧ Does w w' spot spot' := by
  have hplaced := hfine.placed
  have hsame := World.Continues.refl hw
  have hsilent := Network.Civil.refl Target.launchings w.net
  cases h with
  | carriesOn left left' _ step =>
    obtain ⟨hcontinues, hcivil, hleft⟩ := calm_tick hplaced (fun h => h hfine.admitted) hw step
    exact hfine.aside (fun _ => ⟨rfl, id⟩) (fun _ => ⟨rfl, id⟩) hcontinues hcivil hleft
  | looksUp launch =>
    cases w.debugger.launches.get? launch <;>
      exact hfine.aside (fun _ => ⟨rfl, id⟩) (fun _ => ⟨rfl, id⟩) hsame hsilent trivial
  | queues launch root => exact hfine.aside (fun _ => ⟨rfl, id⟩) (fun _ => ⟨rfl, id⟩) hsame hsilent trivial
  | claims launch root =>
    obtain ⟨hcalm, hchannel⟩ := World.calm_claim w launch root
    obtain ⟨hcontinues, hcivil⟩ := hcalm hw
    cases hclaim : (w.claim launch root).1 with
    | error e => exact hfine.aside (fun _ => ⟨rfl, id⟩) (fun _ => ⟨rfl, id⟩) hcontinues hcivil trivial
    | ok target =>
      exact hfine.aside (fun _ => ⟨rfl, id⟩) (fun _ => ⟨rfl, id⟩) hcontinues hcivil (hchannel target hclaim)
  | meets target root =>
    obtain ⟨c, hc⟩ := hplaced
    refine hfine.aside (fun _ => ⟨rfl, id⟩) (fun d => ⟨?_, fun h => nomatch h.2⟩) hsame hsilent
      ⟨hc.channel_eq hw ▸ hc, trivial⟩
    simp only [stand]
    split <;> rfl
  | turns target root session place place' net step =>
    obtain ⟨hid, hwithin⟩ := hplaced
    have hcontinues : w.Continues { w with net } := by
      refine .of_net hw fun d hd => ?_
      by_cases hown : d = session.channel
      · subst hown
        exact (Place.moves hd (hwithin.mono fun _ _ h => h.mild _) step).1
      · exact (Place.mild_of_ne hown (hwithin.mono fun _ _ h => h.mild d) step).present hd
    exact ⟨hcontinues, ⟨hfine.admitted.continues hcontinues, hcontinues.onChannel _ _ hid,
      hwithin.next session.within_introducing step⟩, .turns target root session place place' step⟩
  | fails target root session ending fault left _ failed step =>
    obtain ⟨hcontinues, hcivil, hleft⟩ := calm_tick (within_settling target root fault) id hw step
    have hother : left.Within fun w w' => r.Admitted w → Calm w w' := by
      refine .mono ?_ hleft
      exact fun _ _ hcalm _ => hcalm
    refine hfine.aside (fun d => ⟨?_, ?_⟩) (fun _ => ⟨rfl, id⟩) hcontinues hcivil hother
    · simp only [stand]
      split <;> rfl
    · rintro ⟨-, hshaken⟩
      rw [(Place.isShaken_gone ending).mp hshaken] at failed
      cases failed
  | starts target root session ending left _ ok step =>
    obtain ⟨hid, -⟩ := hplaced
    obtain ⟨hcontinues, hmild, honly, hleft⟩ := (launching_settling target root _).tick hw hid step
    exact ⟨hcontinues, ⟨hfine.admitted.continues hcontinues, hcontinues.onChannel _ _ hid, ok, hleft⟩,
      .launches session.channel ending _ _ ok (.gone target root session rfl ending)
        (.launching target session rfl ending left) hmild honly⟩
  | launches target session ending left left' _ step =>
    obtain ⟨hid, hok, hlaunching⟩ := hplaced
    obtain ⟨hcontinues, hmild, honly, hleft⟩ := hlaunching.tick hw hid step
    exact ⟨hcontinues, ⟨hfine.admitted.continues hcontinues, hcontinues.onChannel _ _ hid, hok, hleft⟩,
      .launches session.channel ending _ _ hok (.launching target session rfl ending left)
        (.launching target session rfl ending left') hmild honly⟩

/-- Whoever launches something over a channel is past the handshake over it, which let it go on. -/
lemma Does.passed_of_asks (h : Does w w' spot spot') (hfine : spot.Fine w r)
    (hasks : Network.Asks c Target.launchings w.net w'.net) :
    ∃ ending, Passed c ending spot ∧ ending.result = .ok () := by
  cases h with
  | turns target root session place place' step => exact absurd hasks.hands (Place.not_hands_next hfine.placed.2 step)
  | aside _ _ _ _ civil => exact absurd hasks.hands civil.silent
  | launches d ending _ _ ok passed _ _ only =>
    by_cases hcd : c = d
    · subst hcd
      exact ⟨ending, passed, ok⟩
    · obtain ⟨message, hleaves, -⟩ := hasks
      exact absurd hleaves (Network.not_leaves_of_eq (only c hcd))

/-- A run is past its look at the phase of a channel only after it. -/
lemma Goes.looking_of_looked {x : Option Phase} (h : Goes w spot spot' w') (hnot : spot.looked? c ≠ some x)
    (hx : spot'.looked? c = some x) :
    ∃ target root session k, spot = introducing target root session (.looking k) ∧ session.channel = c ∧
      ∀ phase, x = some phase → (w.net.channel c).phase = phase ∧ phase ≠ .notInitialized := by
  cases h with
  | carriesOn | queues | fails => cases hx
  | looksUp launch =>
    revert hx
    cases w.debugger.launches.get? launch <;> nofun
  | claims launch root =>
    revert hx
    cases (w.claim launch root).1 <;> nofun
  | meets target root =>
    simp only [Spot.looked?] at hx
    split at hx <;> cases hx
  | turns target root session place place' net step =>
    simp only [Spot.looked?] at hnot hx
    split at hx
    · next hown =>
      rw [if_pos hown] at hnot
      obtain ⟨k, rfl, ⟨rfl, -⟩ | ⟨phase, rfl, -, hphase, htried⟩⟩ := Place.looking_of_looked hnot step hx
      · exact ⟨target, root, session, k, rfl, hown, nofun⟩
      · refine ⟨target, root, session, k, rfl, hown, ?_⟩
        rintro _ ⟨⟩
        exact ⟨hown ▸ hphase, htried⟩
    · cases hx
  | starts | launches => exact absurd hx hnot

/-! ## The answer to `initialize` -/

/-- A run is at its request to initialize over a channel. -/
inductive IsAsking (c : ChannelId) : Spot → Prop
  | mk (target : Target) (root : Option Path) (session : Session) (own : session.channel = c) (k : Nat)
    (stage : Network.Request.Stage) (live : stage.reply? = none) :
    IsAsking c (introducing target root session (.shaking k (.asking stage live)))

/-- A run has the good answer to its request to initialize over a channel, and is about to note it. -/
inductive IsAnswered (c : ChannelId) : Spot → Prop
  | mk (target : Target) (root : Option Path) (session : Session) (own : session.channel = c) (k : Nat) (body : Json) :
    IsAnswered c (introducing target root session (.shaking k (.answered body)))

/-- A handshake returns well only after the answer. -/
lemma Goes.answered_of_shaken (h : Goes w spot spot' w') (hnot : ¬ spot.IsShaken c) (hshaken : spot'.IsShaken c) :
    spot.IsAnswered c := by
  cases h with
  | carriesOn | queues | fails => exact hshaken.elim
  | looksUp launch =>
    revert hshaken
    cases w.debugger.launches.get? launch <;> exact False.elim
  | claims launch root =>
    revert hshaken
    cases (w.claim launch root).1 <;> exact False.elim
  | meets target root => nomatch hshaken.2
  | turns target root session place place' net step =>
    obtain ⟨rfl, hshaken⟩ := hshaken
    cases Place.goes step with
    | takes | called | begins | passes | enters | reverts => cases hshaken
    | leaves k ending => exact absurd ⟨rfl, by cases ending <;> exact hshaken⟩ hnot
    | works k stage stage' _ hstep =>
      cases stage with
      | answered body => exact .mk target root session rfl k body
      | asking stage live =>
        obtain ⟨⟨reached, net'⟩, -, heq⟩ := Option.map_eq_some_iff.mp hstep
        obtain ⟨rfl, -⟩ := Prod.mk.inj heq
        rw [Place.isShaken_resume] at hshaken
        rcases Asking.ofStage_cases id reached with ⟨live', h⟩ | ⟨body, -, h⟩ | ⟨fault, -, h⟩ <;>
          (rw [h] at hshaken; cases hshaken)
  | starts target root session ending =>
    exact absurd ⟨hshaken.1, (Place.isShaken_gone ending).mpr hshaken.2⟩ hnot
  | launches => exact absurd hshaken hnot

/-- The answer is to the request. -/
lemma Goes.asking_of_answered (h : Goes w spot spot' w') (hanswered : spot'.IsAnswered c) : spot.IsAsking c := by
  cases h with
  | carriesOn | queues | fails | starts | launches => cases hanswered
  | looksUp launch =>
    revert hanswered
    cases w.debugger.launches.get? launch <;> nofun
  | claims launch root =>
    revert hanswered
    cases (w.claim launch root).1 <;> nofun
  | meets => cases hanswered
  | turns target root session place place' net step =>
    cases Place.goes step with
    | takes | called | begins | passes | enters | reverts | leaves => cases hanswered
    | works k stage stage' _ hstep =>
      cases stage with
      | answered body =>
        obtain ⟨rfl, -⟩ := Prod.mk.inj (Option.some.inj hstep)
        cases hanswered
      | asking stage live =>
        have hown : session.channel = c := by
          rcases stage' with g | fault | done <;> cases hanswered
          assumption
        exact .mk target root session hown k stage live

/-- What is known of the handshake of a run. -/
def Reached (v : Viewpoint Wait Network) (m : Nat) : Spot → Prop
  | introducing _ _ session (.shaking _ stage) => stage.Reached v session.channel session.introduction m
  | _ => True

section Reached

variable {v : Viewpoint Wait Network} {m : Nat}

lemma Reached.later (h : spot.Reached v m) : spot.Reached v (m + 1) := by
  cases spot with
  | introducing target root session place =>
    cases place with
    | shaking k stage => exact Asking.Reached.later h (Nat.le_succ m)
    | _ => trivial
  | _ => trivial

lemma Goes.reached (h : Goes w spot spot' w') (hreached : spot.Reached v m) (hturn : v.turn m)
    (hbefore : w.net = v.state m) (hafter : w'.net = v.state (m + 1)) : spot'.Reached v (m + 1) := by
  cases h with
  | looksUp launch => cases w.debugger.launches.get? launch <;> trivial
  | claims launch root => cases (w.claim launch root).1 <;> trivial
  | turns target root session place place' net step =>
    cases Place.goes step with
    | enters k => exact Nat.zero_le (m + 1)
    | works k stage stage' _ hstep =>
      rcases stage' with g | fault | -
      · rw [hbefore, show net = _ from hafter] at hstep
        exact Asking.Reached.next hreached hturn hstep
      · trivial
      · trivial
    | _ => trivial
  | _ => trivial

end Reached

end Spot

end Debug.Pursuit

end Switchboard
