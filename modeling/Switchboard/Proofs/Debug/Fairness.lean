import Switchboard.Proofs.Debug.Awaiting
import Switchboard.Proofs.Debug.Hearing

/-!
# The event loop of a closed channel gets on

* `Turn.exists_or`: what the loop can do at any time, and what keeps it;
* `Run`, `Run.Fair`: runs in which nobody hinders the loop;
* `Run.work_of_run`: what holds of its work at all times;
* `Run.getsOn`: when the channel has closed the loop makes one access after the other, until it has ended.
-/

namespace Switchboard.Debug.Running.Hearing

variable {x : SessionId} {c : ChannelId} {s s' : State}

namespace Turn

/-- What the loop is at after an access: it has taken work up, or it has gone on with its work. -/
lemma work_cases (h : Turn x c s s') {left : Task Wait World Unit} (hleft : s'.spot.work? = some left) :
    ((∃ event, left = handleEvent x event) ∨ left = sessionClosed x) ∨
      ∃ work, s.spot.work? = some work ∧ work.tick? World.holds s.world = some (left, s'.world) := by
  cases h with
  | takes hasks hfound => exact .inl (.inl ⟨_, (Option.some.inj hleft).symm⟩)
  | stops hasks hnone => exact .inl (.inr (Option.some.inj hleft).symm)
  | overlooks _ | rests _ _ | sees _ _ => cases hleft
  | @works work left' w hat htick =>
    obtain rfl := Option.some.inj ((Spot.work?_goOn hat left').symm.trans hleft)
    exact .inr ⟨work, hat, htick⟩
  | finishes hdone =>
    -- when its work is done the loop has none
    cases hspot : s.spot with
    | handling event work | ending work =>
      rw [hspot] at hleft
      cases hleft
    | polling | checking | trying | ended =>
      rw [hspot] at hdone
      cases hdone

/-- The sessions stay. -/
lemma stays (h : Turn x c s s') (hinforms : ∀ work, s.spot.work? = some work → work.Within World.Informs) :
    s.world.Stays s'.world := by
  cases h with
  | works hat htick =>
    rcases ((hinforms _ hat).tick htick).1 with hw | rfl
    · exact hw.stays
    · exact World.stays_of_eq rfl
  | takes _ _ | overlooks _ | rests _ _ | sees _ _ | stops _ _ | finishes _ => exact World.stays_of_eq rfl

/-- Unless it has ended, or waits for something, the loop can go on. -/
lemma exists_or (x : SessionId) (c : ChannelId) (s : State) :
    (∃ s', Turn x c s s') ∨ s.spot = .ended ∨
      ∃ on next, s.spot.work? = some (.wait on next) ∧ World.holds on s.world = false := by
  cases hspot : s.spot with
  | ended => exact .inr (.inl rfl)
  | polling => exact .inl ⟨_, .overlooks hspot⟩
  | checking =>
    left
    cases hopen : (s.world.channel c).isOpen with
    | true => exact ⟨_, .rests hspot hopen⟩
    | false => exact ⟨_, .sees hspot hopen⟩
  | trying =>
    left
    cases hfound : (s.world.channel c).takeHeard? with
    | some found => exact ⟨_, .takes (.inr hspot) hfound⟩
    | none => exact ⟨_, .stops hspot hfound⟩
  | handling event work | ending work =>
    have hat : s.spot.work? = some work := by
      rw [hspot]
      rfl
    cases work with
    | done u => exact .inl ⟨_, .finishes hat⟩
    | access f next => exact .inl ⟨_, .works hat rfl⟩
    | wait on next =>
      cases hholds : World.holds on s.world with
      | true => exact .inl ⟨_, .works hat (by rw [Task.tick?, if_pos hholds])⟩
      | false => exact .inr (.inr ⟨on, next, rfl, hholds⟩)

end Turn

/-- Nobody else moves the loop. -/
lemma Step.still (h : Step x c s s') (hturn : ¬ Turn x c s s') : s'.spot = s.spot ∧ s'.handled = s.handled := by
  cases h with
  | turn h => exact absurd h hturn
  | read hnext => exact ⟨rfl, rfl⟩
  | aside hhushed => exact ⟨rfl, rfl⟩

/-- What is noted stays noted. -/
lemma Step.mark (h : Step x c s s') {m : Mark} (hm : s.mark = some m) : s'.mark = some m := by
  cases h with
  | turn hturn =>
    cases hturn with
    | works hat htick => exact Invariant.mark_noting.mpr (.inl hm)
    | _ => exact hm
  | read hnext => exact Invariant.mark_noting.mpr (.inl hm)
  | aside hhushed => exact Invariant.mark_noting.mpr (.inl hm)

lemma mark_of_run {m : Mark} (hrun : Relation.ReflTransGen (Step x c) s s') (hm : s.mark = some m) :
    s'.mark = some m := by
  induction hrun with
  | refl => exact hm
  | tail _ hstep ih => exact hstep.mark ih

/-- A run that goes on for ever. -/
structure Run (x : SessionId) (c : ChannelId) (start : State) where
  state : Nat → State
  start : state 0 = start
  step : ∀ n, Step x c (state n) (state (n + 1))

namespace Run

variable {start : State} (r : Run x c start)

/-- The loop makes the next access. -/
def Moves (n : Nat) : Prop := Turn x c (r.state n) (r.state (n + 1))

/-- The run as the loop sees it. -/
def viewpoint : Viewpoint Wait World where
  holds := World.holds
  state n := (r.state n).world
  turn := r.Moves

/-- Nobody hinders the loop: again and again it makes an access or cannot make any, and the others leave its session,
and what comes of its requests, as they are. -/
structure Fair : Prop where
  moves : ∀ n, ∃ k, n ≤ k ∧ (r.Moves k ∨ ∀ s, ¬ Turn x c (r.state k) s)
  stays : ∀ n, ¬ r.Moves n → (r.state n).world.Stays (r.state (n + 1)).world
  obliging : Network.Obliging (r.viewpoint.part Wait.holds (·.net)) c

/-- The loop makes one access after the other, until it has ended. -/
def GetsOn : Prop := ∀ n, (r.state n).spot = .ended ∨ ∃ k, n ≤ k ∧ r.Moves k

section Anywhere

variable {r}

lemma invariant (h : Invariant c start) (n : Nat) : Invariant c (r.state n) := by
  induction n with
  | zero => rwa [r.start]
  | succ n ih => exact ih.step (r.step n)

lemma mark_of_le {m : Mark} {n : Nat} (hm : (r.state n).mark = some m) {k : Nat} (hk : n ≤ k) :
    (r.state k).mark = some m := by
  induction k, hk using Nat.le_induction with
  | base => exact hm
  | succ k _ ih => exact (r.step k).mark ih

/-- Where the loop is when it next makes an access. -/
lemma still_of_rests {n k : Nat} (hrests : r.viewpoint.Rests n k) :
    (r.state k).spot = (r.state n).spot ∧ (r.state k).handled = (r.state n).handled := by
  obtain ⟨hk, hnone⟩ := hrests
  induction k, hk using Nat.le_induction with
  | base => exact ⟨rfl, rfl⟩
  | succ k hk ih =>
    obtain ⟨hspot, hhandled⟩ := (r.step k).still (hnone k hk (Nat.lt_succ_self k))
    obtain ⟨hspot', hhandled'⟩ := ih fun i hi hlt => hnone i hi (Nat.lt_succ_of_lt hlt)
    exact ⟨hspot.trans hspot', hhandled.trans hhandled'⟩

/-- What holds of work that is taken up, and what every access of the loop and of others keeps, holds at all times of
the work that the loop is at. -/
lemma work_of_run {P : Nat → Task Wait World Unit → Prop} (hidle : start.spot.work? = none)
    (htaken : ∀ n event, P n (handleEvent x event)) (hlast : ∀ n, P n (sessionClosed x))
    (htick : ∀ n work left, P n work → r.Moves n →
      work.tick? World.holds (r.state n).world = some (left, (r.state (n + 1)).world) → P (n + 1) left)
    (hrests : ∀ n work, ¬ r.Moves n → P n work → P (n + 1) work) (n : Nat) (work : Task Wait World Unit)
    (hat : (r.state n).spot.work? = some work) : P n work := by
  induction n generalizing work with
  | zero =>
    rw [r.start, hidle] at hat
    cases hat
  | succ n ih =>
    by_cases hturn : r.Moves n
    · rcases hturn.work_cases hat with (⟨event, rfl⟩ | rfl) | ⟨before, hbefore, hstep⟩
      · exact htaken _ event
      · exact hlast _
      · exact htick n before work (ih before hbefore) hturn hstep
    · rw [((r.step n).still hturn).1] at hat
      exact hrests n work hturn (ih work hat)

lemma within_informs (hidle : start.spot.work? = none) (n : Nat) (work : Task Wait World Unit)
    (hat : (r.state n).spot.work? = some work) : work.Within World.Informs :=
  work_of_run (P := fun _ work => work.Within World.Informs) hidle
    (fun _ event => World.allowed_informs.handleEvent x event) (fun _ => World.allowed_informs.sessionClosed x)
    (fun _ _ _ hbefore _ htick => (hbefore.tick htick).2) (fun _ _ _ hbefore => hbefore) n work hat

end Anywhere

variable {w : World} {reader : Channel.Reader.Place} {r : Run x c (.start c w reader)} (hattached : Attached w x c)
include hattached

/-- The session is there, and on its channel. -/
lemma session_channel (hfair : r.Fair) (n : Nat) :
    x < (r.state n).world.debugger.sessions.length ∧ ((r.state n).world.debugger.session x).channel = c := by
  induction n with
  | zero =>
    rw [r.start]
    exact ⟨hattached.registered, hattached.channel⟩
  | succ n ih =>
    have hstays : (r.state n).world.Stays (r.state (n + 1)).world := by
      by_cases hmoves : r.Moves n
      · exact hmoves.stays (within_informs rfl n)
      · exact hfair.stays n hmoves
    obtain ⟨hlater, hsame⟩ := hstays.session ih.1
    have hchannel := congrArg Session.channel hsame
    exact ⟨hlater, hchannel.trans ih.2⟩

/-- When the channel has closed, all that the loop waits for comes. -/
lemma ends_work (hfair : r.Fair) {m : Mark} {n : Nat} (hm : (r.state n).mark = some m) (k : Nat)
    (work : Task Wait World Unit) (hat : (r.state k).spot.work? = some work) : work.Ends r.viewpoint k := by
  have hinvariant := r.invariant (Invariant.start hattached reader)
  have hleaving : Leaving r.viewpoint x c :=
    { holds := rfl
      net :=
        { toObliging := hfair.obliging
          holds := rfl
          present := fun i => (hinvariant i).present
          closes := ⟨n, fun i hi => (hinvariant i).marked.mpr ⟨m, mark_of_le hm hi⟩⟩ }
      session := fun i => (session_channel hattached hfair i).2 }
  exact work_of_run (P := fun i work => work.Ends r.viewpoint i) rfl
    (fun i event => hleaving.ends_handleEvent event i) (fun i => hleaving.ends_sessionClosed i)
    (fun i _ _ hends hmoves htick => hends.tick hmoves htick)
    (fun i _ hmoves hends => hends.later (Viewpoint.rests_succ hmoves)) k work hat

/-- So it makes one access after the other. -/
theorem getsOn (hfair : r.Fair) {m : Mark} {n : Nat} (hm : (r.state n).mark = some m) : r.GetsOn := by
  intro i
  by_contra hnone
  obtain ⟨hlive, hrests⟩ := not_or.mp hnone
  have hall : ∀ k, i ≤ k → r.viewpoint.Rests i k := fun k hk => ⟨hk, fun j hj _ hmoves => hrests ⟨j, hj, hmoves⟩⟩
  -- whenever it cannot go on it waits, and always for the same
  have hwaits : ∀ l, ∃ k on next, i ≤ k ∧ l ≤ k ∧ (r.state i).spot.work? = some (.wait on next) ∧
      World.holds on (r.state k).world = false := by
    intro l
    obtain ⟨k, hk, hmoves | hstuck⟩ := hfair.moves (max i l)
    · exact absurd ⟨k, Nat.le_trans (Nat.le_max_left i l) hk, hmoves⟩ hrests
    · have hik := Nat.le_trans (Nat.le_max_left i l) hk
      have hsame := (still_of_rests (hall k hik)).1
      rcases Turn.exists_or x c (r.state k) with ⟨s, hturn⟩ | hended | ⟨on, next, hat, hholds⟩
      · exact absurd hturn (hstuck s)
      · exact absurd (hsame.symm.trans hended) hlive
      · exact ⟨k, on, next, hik, Nat.le_trans (Nat.le_max_right i l) hk, hsame ▸ hat, hholds⟩
  obtain ⟨-, on, next, -, -, hat, -⟩ := hwaits 0
  obtain ⟨l, hl⟩ := (ends_work hattached hfair hm i _ hat).1
  obtain ⟨k, on', next', hik, hlk, hat', hholds⟩ := hwaits l
  obtain ⟨rfl, -⟩ := Task.wait.inj (Option.some.inj (hat.symm.trans hat'))
  have hcomes : World.holds on (r.state k).world = true := hl k hlk (hall k hik)
  rw [hcomes] at hholds
  cases hholds

end Run

end Switchboard.Debug.Running.Hearing
