import Switchboard.Proofs.Channel.Dispatches
import Switchboard.Proofs.Debug.Deeds

/-!
# What work on a target hands over

* `channelAt`: the channel of the session of a target at a time;
* `Behaves`: a step extends the log of what was handed over, and changes the world as a relation allows;
* `Found`: when something was found, and in what kind of world;
* `records_look`, `records_demand`, `records_change`: looks at a target and changes of it hand over nothing;
* `Asks`: a request is this one, over the channel of a target;
* `records_request`, `records_requestAs`: a request hands over itself, and ends as the answer says;
* `exists_log`: what is known of the log at all times of a run.

Each `records` lemma says how the work ends by a time, with the log of that time.
-/

namespace Switchboard.Debug.Target

open Course (net)
open Network (Exchange Extends AwaitsLast Logged Justified)
open Network.Request (Fate)

section

variable (v : Viewpoint Wait World)

/-- The channel of the session of a target. -/
def channelAt (id m : Nat) : ChannelId :=
  ((v.state m).debugger.session ((v.state m).target id).session).channel

/-- A request was made up after a time, and goes over the channel of a target. -/
def Asks (id n : Nat) (r : Network.Request) (x : Exchange) : Prop :=
  ∃ asked, n ≤ asked ∧ v.turn asked ∧ asked < x.enrolled ∧ x.channel = channelAt v id asked ∧ x.request = r

/-- A step of the thread hands over nothing, or one request that is justified by those before, and changes the world as `S`
allows. -/
structure Behaves (P : List Exchange → Exchange → Prop) (S : World → World → Prop) (m : Nat)
    (log log' : List Exchange) : Prop where
  extends_ : Extends (net v) P m log log'
  changes : S (v.state m) (v.state (m + 1))

/-- At the time `l`, the last one before `m`, the thread found the world as `B` says. -/
structure Found (B : World → Prop) (n l m : Nat) : Prop where
  since : n ≤ l
  next : m = l + 1
  turn : v.turn l
  rely : B (v.state l)

end

section Accesses

variable {v : Viewpoint Wait World} {B : World → Prop} {P : List Exchange → Exchange → Prop} {S : World → World → Prop}
  (hS : ∀ w n, S w { w with net := n }) {id n : Nat} {log : List Exchange}

include hS in
/-- Something is found in the world. -/
lemma records_view {ε α : Type} (f : World → α) :
    Attempt.Records v B AwaitsLast (Behaves v P S)
      (fun m log' e => ∃ l, Found v B n l m ∧ log' = log ∧ e = .ok (f (v.state l)))
      (Attempt.ofTask (Task.view f) : Attempt Wait World ε α) n log := by
  intro m hm hturn hB hstate
  have hsame : S (v.state m) (v.state (m + 1)) := by
    rw [hstate]
    exact hS _ _
  exact ⟨log, ⟨.inl ⟨rfl, Network.sendsNothing_of_eq (congrArg World.net hstate)⟩, hsame⟩,
    m, ⟨hm, rfl, hturn, hB⟩, rfl, rfl⟩

include hS in
lemma records_look {α : Type} (f : Target → α) :
    Attempt.Records v B AwaitsLast (Behaves v P S)
      (fun m log' e => ∃ l, Found v B n l m ∧ log' = log ∧ e = .ok (f ((v.state l).target id))) (look id f) n log :=
  records_view hS fun w => f (w.target id)

include hS in
/-- What is not there is a fault. -/
lemma records_demand {α : Type} (f : Target → Except Fault α) :
    Attempt.Records v B AwaitsLast (Behaves v P S)
      (fun m log' e => ∃ l, Found v B n l m ∧ log' = log ∧ e = f ((v.state l).target id)) (demand id f) n log := by
  refine .bind (records_look hS f) ?_ ?_
  · rintro m log' x - ⟨l, hl, rfl, hx⟩
    exact ⟨l, hl, rfl, Except.ok.inj hx⟩
  · rintro m log' e - ⟨l, hl, rfl, he⟩
    cases he

include hS in
lemma records_sessionOf :
    Attempt.Records v B AwaitsLast (Behaves v P S)
      (fun m log' e => ∃ l, Found v B n l m ∧ log' = log ∧
        e = .ok ((v.state l).debugger.session ((v.state l).target id).session))
      (sessionOf id) n log :=
  records_view hS fun w : World => w.debugger.session (w.target id).session

/-- A change of the target. -/
lemma records_change {f : Target → Target × List Note} (hf : ∀ w, B w → S w (w.changeTarget id f)) :
    Attempt.Records v B AwaitsLast (Behaves v P S) (fun m log' e => ∃ l, Found v B n l m ∧ log' = log ∧ e = .ok ())
      (change id f) n log := by
  intro m hm hturn hB hstate
  have hchange : S (v.state m) (v.state (m + 1)) := by
    rw [hstate]
    exact hf _ hB
  refine ⟨log, ⟨.inl ⟨rfl, fun c => ?_⟩, hchange⟩, m, ⟨hm, rfl, hturn, hB⟩, rfl, rfl⟩
  show ((v.state (m + 1)).net.channel c).outgoing = _
  rw [hstate]
  rfl

variable (hholds : v.holds = World.holds)

include hS hholds

/-- Work on the network. -/
lemma records_onNet {α : Type} {Q : Nat → List Exchange → α → Prop} {t : Task Wait Network α}
    (h : t.Records (net v) (fun _ => True) AwaitsLast (Extends (net v) P) Q n log) :
    (World.onNet t).Records v B AwaitsLast (Behaves v P S) Q n log := by
  refine Task.Records.zoom (fun _ _ => rfl) (fun _ => rfl) (fun _ _ => by rw [hholds]; rfl)
    (fun m net g g' hstate hG => ?_) h
  refine ⟨hG, ?_⟩
  rw [hstate]
  exact hS _ _

/-- What the adapter advertised when they were asked for. -/
lemma records_features :
    Attempt.Records v B AwaitsLast (Behaves v P S)
      (fun m log' e => ∃ looked l, Found v B n looked (looked + 1) ∧ Found v (fun _ => True) (looked + 1) l m ∧ log' = log ∧
        e = .ok ((v.state l).net.channel (channelAt v id looked)).features)
      (features id) n log := by
  refine .bind (records_sessionOf hS) ?_ ?_
  · rintro m log' s - ⟨looked, hlooked, rfl, hs⟩
    obtain rfl := Except.ok.inj hs
    obtain rfl := hlooked.next
    refine records_onNet hS hholds fun l hl hturn _ hstate => ?_
    exact ⟨_, .inl ⟨rfl, Network.sendsNothing_of_eq hstate⟩, looked, l, hlooked, ⟨hl, rfl, hturn, trivial⟩, rfl, rfl⟩
  · rintro m log' e - ⟨l, hl, rfl, he⟩
    cases he

/-- A request hands over itself if that is justified, and nothing else, and ends as the answer says. -/
lemma records_request (command : String) (arguments : Json)
    (hP : ∀ x, Asks v id n { method := command, params := arguments } x → P log x) :
    Attempt.Records v B AwaitsLast (Behaves v P S)
      (fun m log' e => ∃ asked reply, Found v B n asked (asked + 1) ∧
        Fate (net v) (channelAt v id asked) { method := command, params := arguments } (asked + 1) log m log' reply ∧
        e = reply.mapError (Fault.ofChannel command))
      (request id command arguments) n log := by
  refine .bind (records_sessionOf hS) ?_ ?_
  · rintro m log' s - ⟨asked, hasked, rfl, hs⟩
    obtain rfl := Except.ok.inj hs
    obtain rfl := hasked.next
    show (World.onNet (Session.request _ command arguments).outcome).Records _ _ _ _ _ _ _
    rw [Session.outcome_request]
    refine records_onNet hS hholds (Task.Records.andThen
      (Network.Request.records_request (v := net v) (r := { method := command, params := arguments }) rfl
        fun x hc hr hx _ => hP x ⟨asked, hasked.since, hasked.turn, hx, hc, hr⟩) ?_)
    rintro l log'' reply - hreply
    exact ⟨asked, reply, hasked, hreply, rfl⟩
  · rintro m log' e - ⟨l, hl, rfl, he⟩
    cases he

/-- The same, where the answer has to have a body of a known shape. -/
lemma records_requestAs {α : Type} (shape : Json.Shape α) (command : String) (arguments : Json)
    (hP : ∀ x, Asks v id n { method := command, params := arguments } x → P log x) :
    Attempt.Records v B AwaitsLast (Behaves v P S)
      (fun m log' e => ∃ asked reply, Found v B n asked (asked + 1) ∧
        Fate (net v) (channelAt v id asked) { method := command, params := arguments } (asked + 1) log m log' reply ∧
        e = Session.reading shape command reply)
      (requestAs id shape command arguments) n log := by
  refine .bind (records_sessionOf hS) ?_ ?_
  · rintro m log' s - ⟨asked, hasked, rfl, hs⟩
    obtain rfl := Except.ok.inj hs
    obtain rfl := hasked.next
    show (World.onNet (Session.requestAs _ shape command arguments).outcome).Records _ _ _ _ _ _ _
    rw [Session.outcome_requestAs]
    refine records_onNet hS hholds (Task.Records.andThen
      (Network.Request.records_request (v := net v) (r := { method := command, params := arguments }) rfl
        fun x hc hr hx _ => hP x ⟨asked, hasked.since, hasked.turn, hx, hc, hr⟩) ?_)
    rintro l log'' reply - hreply
    exact ⟨asked, reply, hasked, hreply, rfl⟩
  · rintro m log' e - ⟨l, hl, rfl, he⟩
    cases he

end Accesses

/-- At all times of a run there is a log of what the thread has handed over since `a`. Each request was justified by those
before; the thread waits for nothing but the answer to the last one, and it has ended as it should if it has ended. -/
theorem exists_log {v : Viewpoint Wait World} {B : World → Prop} {P : List Exchange → Exchange → Prop}
    {S : World → World → Prop} {α : Type} {left : Nat → Task Wait World α} {Q : Nat → List Exchange → α → Prop} {a b : Nat}
    (hdoes : v.Does left b) (hwork : (left b).Records v B AwaitsLast (Behaves v P S) Q b [])
    (hstart : Logged (net v) a b []) (hab : a ≤ b) (hB : B (v.state b)) (hS : ∀ w w', S w w' → B w → B w')
    (hothers : ∀ m, b ≤ m → (left m).result? = none → ¬ v.turn m → B (v.state m) → B (v.state (m + 1))) {m : Nat}
    (hm : b ≤ m) : ∃ k log, k ≤ m ∧ Logged (net v) a m log ∧ Justified P log ∧
      (∀ on next, left m = .wait on next → AwaitsLast log on) ∧ ∀ e, left m = .done e → Q k log e := by
  obtain ⟨k, log, hk, hleft, hlogged, hjustified⟩ := hdoes.recorded
    (I := fun m log => Logged (net v) a m log ∧ Justified P log) hwork hB ⟨hstart, Network.justified_nil⟩
    (fun m _ _ hbm hG h => ⟨⟨h.1.1.extends (Nat.le_trans hab hbm) hG.extends_, h.1.2.extends hG.extends_⟩,
      hS _ _ hG.changes h.2⟩)
    (fun m _ _ hstill h =>
      ⟨h.1.still fun hturn => Network.sendsNothing_of_eq (congrArg World.net (hstill hturn)), h.2⟩) hothers hm
  refine ⟨k, log, hk, hlogged, hjustified, fun on next hwait => ?_, fun e hdone => ?_⟩
  · rw [hwait] at hleft
    exact hleft.1
  · rw [hdone] at hleft
    exact hleft

end Switchboard.Debug.Target
