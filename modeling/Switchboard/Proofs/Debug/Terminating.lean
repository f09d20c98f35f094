import Switchboard.Proofs.Debug.Inquiries
import Switchboard.Proofs.Debug.Stepping

/-!
# How a debuggee is ended

* `ending`: the request that ends a debuggee, as its adapter advertises it;
* `AsksEnd`: a request is that one, over the channel of the target;
* `Verdict`: how the action ends on a target that runs;
* `terminate_asks`: whatever others do, the action asks the adapter once, and says that it did when the adapter agrees.

An action that names no thread is about the first suspended one, or else the first one, and looks for it before anything
else, though the end of a debuggee is about no thread. So it fails on a target that runs and of which no thread is known.
-/

namespace Switchboard.Debug.Target

open Course (net)
open Network (Exchange AwaitsLast Logged)
open Network.Request (Fate)

/-- The request that ends a debuggee, as its adapter advertises it. -/
def ending (features : Features) : Network.Request :=
  if Session.supports features "supportsTerminateRequest" then { method := "terminate", params := .obj [] }
  else { method := "disconnect", params := Session.farewell }

/-- The end of a debuggee is asked for as the adapter advertises it. -/
lemma act_terminate (id : Nat) (thread : Int) (frame : Option Nat) :
    act id thread frame .terminate = (do
      let features ← features id
      let _ ← request id (ending features).method (ending features).params
      return ()) := by
  show (features id >>= fun features => _) = _
  congr 1
  funext features
  unfold ending
  split <;> rfl

/-- Such a request waits as long as its channel lets it. -/
lemma ending_eta (features : Features) :
    ({ method := (ending features).method, params := (ending features).params } : Network.Request) = ending features := by
  unfold ending
  split <;> rfl

section

variable (v : Viewpoint Wait World) (id n : Nat)

/-- When a call looked up the session of the target and what its adapter advertises, and then the session again. -/
structure Inquires (looked featured asked : Nat) : Prop where
  since : n ≤ looked
  looked_lt : looked < featured
  featured_lt : featured < asked
  turns : v.turn looked ∧ v.turn featured ∧ v.turn asked

/-- The request that ends the debuggee, as was found at these times. -/
def endingAt (looked featured : Nat) : Network.Request :=
  ending ((v.state featured).net.channel (channelAt v id looked)).features

/-- This is the request that ends the debuggee, over the channel of the target. -/
def AsksEnd (x : Exchange) : Prop :=
  ∃ looked featured asked, Inquires v n looked featured asked ∧ asked < x.enrolled ∧ x.channel = channelAt v id asked ∧
    x.request = endingAt v id looked featured

/-- How the action ends on a target that was found running. -/
inductive Verdict (named : Option Int) (m : Nat) (log : List Exchange) (e : Except Fault Bool) : Prop where
  /-- No thread was named, and none was known. -/
  | threadless (unnamed : named = none) (looked : Nat) (since : n ≤ looked) (lt : looked < m) (turn : v.turn looked)
      (none : ((v.state looked).target id).threads = []) (silent : log = [])
      (failed : e = .error (.noThreads ((v.state looked).target id).id))
  /-- The adapter was asked, and it is said that it was if its answer was good. -/
  | asked (threads : named = none → ∃ l, n ≤ l ∧ l < m ∧ v.turn l ∧ ((v.state l).target id).threads ≠ [])
      (looked featured asked : Nat) (inquires : Inquires v n looked featured asked) (reply : Except Channel.Fault Json)
      (fate : Fate (net v) (channelAt v id asked) (endingAt v id looked featured) (asked + 1) [] m log reply)
      (said : e = (reply.mapError (Fault.ofChannel (endingAt v id looked featured).method)).map fun _ => true)

end

section

variable {v : Viewpoint Wait World} {id n : Nat}

/-- The first suspended thread, or else the first one, is missing only where there are none. -/
lemma defaultThread_cases (t : Target) :
    t.threads = [] ∧ t.defaultThread = .error (.noThreads t.id) ∨ t.threads ≠ [] ∧ ∃ i, t.defaultThread = .ok i := by
  unfold defaultThread
  cases hthreads : t.threads with
  | nil => exact .inl ⟨rfl, rfl⟩
  | cons x rest =>
    refine .inr ⟨List.cons_ne_nil _ _, ?_⟩
    cases (x :: rest).find? (·.isSuspended) <;> exact ⟨_, rfl⟩

/-- The adapter is asked once. -/
lemma records_act_terminate (hholds : v.holds = World.holds) {P : List Exchange → Exchange → Prop}
    (hP : ∀ x, AsksEnd v id n x → P [] x) (thread : Int) (frame : Option Nat) :
    Attempt.Records v (fun _ => True) AwaitsLast (Behaves v P fun _ _ => True)
      (fun m log e => ∃ looked featured asked reply, Inquires v n looked featured asked ∧
        Fate (net v) (channelAt v id asked) (endingAt v id looked featured) (asked + 1) [] m log reply ∧
        e = (reply.mapError (Fault.ofChannel (endingAt v id looked featured).method)).map fun _ => ())
      (act id thread frame .terminate) n [] := by
  rw [act_terminate]
  refine .bind (records_features (fun _ _ => trivial) hholds) ?_ ?_
  · rintro m log features - ⟨looked, featured, hlooked, hfeatured, rfl, hfeatures⟩
    obtain rfl := Except.ok.inj hfeatures
    obtain rfl := hfeatured.next
    have hinquires : ∀ asked, featured + 1 ≤ asked → v.turn asked → Inquires v n looked featured asked :=
      fun asked hasked hturn => ⟨hlooked.since, hfeatured.since, hasked, hlooked.turn, hfeatured.turn, hturn⟩
    have hrequest := records_request (B := fun _ => True) (P := P) (S := fun _ _ => True) (fun _ _ => trivial) hholds
      (endingAt v id looked featured).method (endingAt v id looked featured).params
      fun x ⟨asked, hasked, hturn, hx, hc, hr⟩ =>
        hP x ⟨looked, featured, asked, hinquires asked hasked hturn, hx, hc, hr.trans (ending_eta _)⟩
    refine .bind hrequest ?_ ?_
    · rintro l log body - ⟨asked, reply, hasked, hfate, hbody⟩
      rw [endingAt, ending_eta] at hfate
      refine .pure ⟨looked, featured, asked, reply, hinquires asked hasked.since hasked.turn, hfate, ?_⟩
      rw [← hbody]
      rfl
    · rintro l log e - ⟨asked, reply, hasked, hfate, he⟩
      rw [endingAt, ending_eta] at hfate
      refine ⟨looked, featured, asked, reply, hinquires asked hasked.since hasked.turn, hfate, ?_⟩
      rw [← he]
      rfl
  · rintro m log e - ⟨looked, featured, hlooked, hfeatured, rfl, he⟩
    cases he

/-- What is left of the action once the target was found running. -/
def terminating (id : Nat) (named : Option Int) (frame : Option Nat) : DebugWork Bool := do
  let thread ← match named with
    | some t => pure t
    | none => demand id (·.defaultThread)
  act id thread frame .terminate
  return true

lemma records_terminating (hholds : v.holds = World.holds) {P : List Exchange → Exchange → Prop}
    (hP : ∀ x, AsksEnd v id n x → P [] x) (named : Option Int) (frame : Option Nat) :
    Attempt.Records v (fun _ => True) AwaitsLast (Behaves v P fun _ _ => True) (Verdict v id n named)
      (terminating id named frame) n [] := by
  -- which thread it is makes no difference
  have hact : ∀ thread k, n ≤ k → (named = none → ∃ l, n ≤ l ∧ l < k ∧ v.turn l ∧ ((v.state l).target id).threads ≠ []) →
      Attempt.Records v (fun _ => True) AwaitsLast (Behaves v P fun _ _ => True) (Verdict v id n named)
        (do act id thread frame .terminate; return true) k [] := by
    intro thread k hk hthreads
    have hlater : ∀ {looked featured asked}, Inquires v k looked featured asked → Inquires v n looked featured asked :=
      fun h => { h with since := Nat.le_trans hk h.since }
    have hthreads' : ∀ m, k ≤ m → named = none →
        ∃ l, n ≤ l ∧ l < m ∧ v.turn l ∧ ((v.state l).target id).threads ≠ [] := by
      intro m hm hnone
      obtain ⟨l, hl, hlt, hsome⟩ := hthreads hnone
      exact ⟨l, hl, Nat.lt_of_lt_of_le hlt hm, hsome⟩
    have hasks := records_act_terminate hholds (n := k) (P := P) (fun x ⟨looked, featured, asked, hinquires, hx⟩ =>
      hP x ⟨looked, featured, asked, hlater hinquires, hx⟩) thread frame
    refine .bind hasks ?_ ?_
    · rintro m log _ hm ⟨looked, featured, asked, reply, hinquires, hfate, he⟩
      refine .pure (.asked (hthreads' m hm) looked featured asked (hlater hinquires) reply hfate ?_)
      cases reply with
      | ok body => rfl
      | error fault => cases he
    · rintro m log e hm ⟨looked, featured, asked, reply, hinquires, hfate, he⟩
      refine .asked (hthreads' m hm) looked featured asked (hlater hinquires) reply hfate ?_
      cases reply with
      | ok body => cases he
      | error fault =>
        obtain rfl := Except.error.inj he
        rfl
  cases named with
  | some thread =>
    exact .bind (Q := fun m log e => n ≤ m ∧ log = [] ∧ ∃ x, e = .ok x) (.pure ⟨Nat.le_refl n, rfl, _, rfl⟩)
      (fun m log x _ ⟨hm, hlog, _⟩ => hlog ▸ hact x m hm nofun) (fun _ _ _ _ ⟨_, _, _, he⟩ => nomatch he)
  | none =>
    refine .bind (records_demand (fun _ _ => trivial) _) ?_ ?_
    · rintro m log thread - ⟨looked, ⟨hlooked, rfl, hturn, -⟩, rfl, hthread⟩
      refine hact thread (looked + 1) (Nat.le_succ_of_le hlooked) fun _ =>
        ⟨looked, hlooked, Nat.lt_succ_self looked, hturn, ?_⟩
      rcases defaultThread_cases ((v.state looked).target id) with ⟨-, hfault⟩ | ⟨hsome, -⟩
      · cases hthread.trans hfault
      · exact hsome
    · rintro m log e - ⟨looked, ⟨hlooked, rfl, hturn, -⟩, rfl, he⟩
      rcases defaultThread_cases ((v.state looked).target id) with ⟨hnone, hfault⟩ | ⟨-, i, hi⟩
      · exact .threadless rfl looked hlooked (Nat.lt_succ_self looked) hturn hnone rfl
          (congrArg Except.error (Except.error.inj (he.trans hfault)))
      · cases he.trans hi

lemma Verdict.later {named : Option Int} {m m' : Nat} {log : List Exchange} {e : Except Fault Bool}
    (h : Verdict v id n named m log e) (hm : m ≤ m') : Verdict v id n named m' log e := by
  cases h with
  | threadless unnamed looked since lt turn none silent failed =>
    exact .threadless unnamed looked since (Nat.lt_of_lt_of_le lt hm) turn none silent failed
  | asked threads looked featured asked inquires reply fate said =>
    refine .asked (fun hnone => ?_) looked featured asked inquires reply (fate.later hm) said
    obtain ⟨l, hl, hlt, hsome⟩ := threads hnone
    exact ⟨l, hl, Nat.lt_of_lt_of_le hlt hm, hsome⟩

/-! ## Runs -/

/-- Every action looks first whether the target runs. -/
lemma outcome_perform (id : Nat) (action : Action) (named : Option Int) (frame : Option Nat) :
    (Target.perform id action named frame).outcome = .access (fun w => w) fun w =>
      if (w.target id).state ≠ .running then .done (.ok false)
      else Attempt.outcome do
        let thread ← match named with
          | some t => pure t
          | none => demand id (·.defaultThread)
        act id thread frame action
        return true := by
  show Task.access _ _ = _
  congr 1

variable {left : Nat → Task Wait World (Except Fault Bool)} {b f : Nat}

/-- Whatever others do: on a target that does not run an action does nothing, changes nothing and says so. On a target that
runs the action that ends it hands over one request, which the adapter has advertised, and no other; it waits for nothing
but the answer to that; and it ends as the answer says. It hands over nothing if its channel is closed or takes no more
messages, or if it names no thread and none is known. -/
theorem terminate_asks (hholds : v.holds = World.holds) {action : Action} {named : Option Int} {frame : Option Nat}
    (hdoes : v.Does left b) (hleft : left b = (Target.perform id action named frame).outcome) (hfirst : v.FirstTurn b f) :
    (((v.state f).target id).state ≠ .running →
      (∀ m, f < m → left m = .done (.ok false)) ∧ ∀ m, b ≤ m → v.turn m → v.state (m + 1) = v.state m) ∧
    (((v.state f).target id).state = .running → action = .terminate → ∀ m, f < m →
      ∃ log, Logged (net v) b m log ∧ (∀ x ∈ log, AsksEnd v id (f + 1) x) ∧ log.length ≤ 1 ∧
        (∀ on next, left m = .wait on next → AwaitsLast log on) ∧
        ∀ e, left m = .done e → Verdict v id (f + 1) named m log e) := by
  obtain ⟨hnext, hsame⟩ := hdoes.first (hleft.trans (outcome_perform id action named frame)) hfirst
  have hbf : b ≤ f + 1 := Nat.le_succ_of_le hfirst.since
  refine ⟨fun hstate => ?_, ?_⟩
  · rw [if_pos hstate] at hnext
    refine ⟨fun m hm => (hdoes.ended hbf hnext hm).1, fun m hb hturn => ?_⟩
    rcases Nat.lt_trichotomy m f with hlt | rfl | hgt
    · exact absurd hturn (hfirst.rests m hb hlt)
    · exact hsame
    · exact (hdoes.ended hbf hnext hgt).2 hturn
  · rintro hstate rfl m hm
    rw [if_neg (not_not_intro hstate)] at hnext
    -- a request is justified only if there was none before
    let P : List Exchange → Exchange → Prop := fun log x => log = [] ∧ AsksEnd v id (f + 1) x
    have hwork : (left (f + 1)).Records v (fun _ => True) AwaitsLast (Behaves v P fun _ _ => True)
        (Verdict v id (f + 1) named) (f + 1) [] := by
      rw [hnext]
      exact records_terminating hholds (fun x hx => ⟨rfl, hx⟩) named frame
    have hstart : Logged (net v) b (f + 1) [] := by
      refine ⟨nofun, List.Pairwise.nil, fun m hb hm hturn _ => ?_⟩
      rcases Nat.lt_succ_iff_lt_or_eq.mp hm with hlt | rfl
      · exact absurd hturn (hfirst.rests m hb hlt)
      · exact Network.sendsNothing_of_eq (congrArg World.net hsame)
    obtain ⟨k, log, hk, hlogged, hjustified, hwaits, hends⟩ := exists_log (hdoes.later hbf) hwork hstart hbf trivial
      (fun _ _ _ _ => trivial) (fun _ _ _ _ _ => trivial) hm
    obtain ⟨hasks, honce⟩ := Network.justified_once hjustified
    exact ⟨log, hlogged, hasks, honce, hwaits, fun e hdone => (hends e hdone).later hk⟩

end

/-! ## The course of a target -/

namespace Course

section

variable (id : Nat) (start : World) (schedule : Nat → Turn) (i : Nat)

/-- What is left of a call at a time. -/
def leftOf (n : Nat) : Task Wait World (Except Fault Bool) :=
  ((course id start schedule n).calls[i]?.map (·.2)).getD (.done (.ok false))

end

section

variable {id : Nat} {start : World} {schedule : Nat → Turn} {i b : Nat}

/-- A call that began stays there. -/
lemma underway_later {call : Call} {work : Task Wait World (Except Fault Bool)}
    (hi : (course id start schedule b).calls[i]? = some (call, work)) {n : Nat} (hn : b ≤ n) :
    ∃ left, (course id start schedule n).calls[i]? = some (call, left) := by
  induction n, hn using Nat.le_induction with
  | base => exact ⟨work, hi⟩
  | succ n hn ih =>
    obtain ⟨left, hleft⟩ := ih
    have hlength := (List.getElem?_eq_some_iff.mp hleft).1
    show ∃ left, ((course id start schedule n).after id (schedule n)).calls[i]? = some (call, left)
    cases schedule n with
    | begins other => exact ⟨left, (List.getElem?_append_left hlength).trans hleft⟩
    | event name body | ended | outside world => exact ⟨left, hleft⟩
    | step j =>
      simp only [State.after]
      split
      · exact ⟨left, hleft⟩
      · next other mine hj =>
        split
        · exact ⟨left, hleft⟩
        · next next world htick =>
          by_cases hji : j = i
          · subst hji
            obtain ⟨rfl, -⟩ := Prod.mk.inj (Option.some.inj (hj.symm.trans hleft))
            exact ⟨next, List.getElem?_set_self hlength⟩
          · exact ⟨left, (List.getElem?_set_ne hji).trans hleft⟩

/-- A call of a target does its work, whatever happens around it. -/
theorem does_course {call : Call} {work : Task Wait World (Except Fault Bool)}
    (hi : (course id start schedule b).calls[i]? = some (call, work)) :
    (view id start schedule i).Does (leftOf id start schedule i) b := by
  have hafter : ∀ n, course id start schedule (n + 1) = (course id start schedule n).after id (schedule n) := fun _ => rfl
  refine ⟨fun m hm hturn t s htick => ?_, fun m hm hturn htick => ?_, fun m hm hturn => ?_⟩
  · obtain ⟨left, hleft⟩ := underway_later hi hm
    have hlength := (List.getElem?_eq_some_iff.mp hleft).1
    simp only [leftOf, hleft, Option.map_some, Option.getD_some] at htick
    have hstep := hafter m
    rw [show schedule m = .step i from hturn] at hstep
    have hholds : (view id start schedule i).holds = World.holds := rfl
    have hworld : (view id start schedule i).state m = (course id start schedule m).world := rfl
    simp only [hholds, hworld] at htick
    simp only [State.after, hleft, htick] at hstep
    constructor
    · simp only [leftOf, hstep, List.getElem?_set_self hlength, Option.map_some, Option.getD_some]
    · exact congrArg State.world hstep
  · obtain ⟨left, hleft⟩ := underway_later hi hm
    simp only [leftOf, hleft, Option.map_some, Option.getD_some] at htick
    have hstep := hafter m
    rw [show schedule m = .step i from hturn] at hstep
    have hholds : (view id start schedule i).holds = World.holds := rfl
    have hworld : (view id start schedule i).state m = (course id start schedule m).world := rfl
    simp only [hholds, hworld] at htick
    simp only [State.after, hleft, htick] at hstep
    exact ⟨by simp only [leftOf, hstep], congrArg State.world hstep⟩
  · obtain ⟨left, hleft⟩ := underway_later hi hm
    obtain ⟨left', hleft'⟩ := underway_later hi (Nat.le_succ_of_le hm)
    have hlength := (List.getElem?_eq_some_iff.mp hleft).1
    rcases came hleft' with ⟨-, hlast, -⟩ | ⟨hsame, -⟩ | ⟨-, -, hstep, -⟩
    · omega
    · simp only [leftOf, hleft', hsame]
    · exact absurd hstep hturn

/-- The end of a debuggee is asked for, and some steps later the adapter agrees. -/
def endsAtOnce (thread : Option Int) : List Turn :=
  [.begins (.perform .terminate thread none)] ++ List.replicate 9 (.step 0)
    ++ [.outside { runningTarget with
        net := { channels := [{ dialect := .sequenced, phase := .ready, nextId := 2
                                pending := { next := 1, settled := [(0, .answered (.ok .null))] } }] } }]

/-- Those turns, one after the other, and then those of the call. -/
def endsAtOnceSchedule (thread : Option Int) (n : Nat) : Turn := (endsAtOnce thread).getD n (.step 0)

/-- No thread of the target is known. The action that names one hands over its request and succeeds; the action that names
none fails and hands over nothing. -/
theorem terminate_endsAtOnce :
    (∃ x, AsksEnd (view 1 runningTarget (endsAtOnceSchedule (some 7)) 0) 1 2 x ∧
      Logged (net (view 1 runningTarget (endsAtOnceSchedule (some 7)) 0)) 1 13 [x] ∧
      leftOf 1 runningTarget (endsAtOnceSchedule (some 7)) 0 13 = .done (.ok true)) ∧
    Logged (net (view 1 runningTarget (endsAtOnceSchedule none) 0)) 1 13 [] ∧
      leftOf 1 runningTarget (endsAtOnceSchedule none) 0 13 = .done (.error (.noThreads 1)) := by
  have hfirst : ∀ thread, (view 1 runningTarget (endsAtOnceSchedule thread) 0).FirstTurn 1 1 :=
    fun thread => ⟨Nat.le_refl 1, rfl, fun m hm hlt => by omega⟩
  have hbegun : ∀ thread, (course 1 runningTarget (endsAtOnceSchedule thread) 1).calls[0]?
      = some (.perform .terminate thread none, (Target.perform 1 .terminate thread none).outcome) := fun _ => rfl
  have hwhole : ∀ thread, leftOf 1 runningTarget (endsAtOnceSchedule thread) 0 1
      = (Target.perform 1 .terminate thread none).outcome := fun _ => rfl
  have hasks := fun thread => (terminate_asks rfl (does_course (hbegun thread)) (hwhole thread) (hfirst thread)).2
    rfl rfl 13 (by omega)
  constructor
  · have hdone : leftOf 1 runningTarget (endsAtOnceSchedule (some 7)) 0 13 = .done (.ok true) := rfl
    obtain ⟨log, hlogged, hends, -, -, hverdict⟩ := hasks (some 7)
    rcases hverdict _ hdone with ⟨hnone, -⟩ | ⟨-, _, _, _, -, reply, hfate, hsaid⟩
    · cases hnone
    · rcases hfate with ⟨_, -, -, -, -, ⟨-, hclosed⟩ | ⟨-, hbroken⟩⟩ | ⟨x, -, -, -, -, rfl, -⟩
      · subst hclosed
        cases hsaid
      · subst hbroken
        cases hsaid
      · exact ⟨x, hends x (List.mem_singleton.mpr rfl), hlogged, hdone⟩
  · have hdone : leftOf 1 runningTarget (endsAtOnceSchedule none) 0 13 = .done (.error (.noThreads 1)) := rfl
    obtain ⟨log, hlogged, -, -, -, hverdict⟩ := hasks none
    rcases hverdict _ hdone with ⟨-, _, -, -, -, -, rfl, -⟩ | ⟨hthreads, -⟩
    · exact ⟨hlogged, hdone⟩
    · obtain ⟨l, hl, hlt, -, hsome⟩ := hthreads rfl
      have hnone : ∀ l, l < 13 → (((view 1 runningTarget (endsAtOnceSchedule none) 0).state l).target 1).threads = [] := by
        intro l hl
        interval_cases l <;> rfl
      exact absurd (hnone l hlt) hsome

end

end Course

end Switchboard.Debug.Target
