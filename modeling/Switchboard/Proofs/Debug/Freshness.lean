import Switchboard.Proofs.Debug.Fetch
import Switchboard.Proofs.Debug.Threads

/-!
# How fresh kept frames are

* `State`, `Action`, `perform`, `trace`: one target with any number of fetches of frames, events, resumptions
  and everything around them, in any order of single accesses;
* `Origin`, `Origin.Explains`: the fetch from which kept frames come, with the times of its steps;
* `keptFrames_fresh_iff`: kept frames belong to the stop that their thread is in, unless the thread went and
  came back while they were fetched.

The number of a stop is counted by the thread itself. A thread that comes back counts from the start, and a
fetch that began before can then take its stop for the one it remembers.
-/

namespace Switchboard.Debug.Target.Freshness

open DebugThread (Later Steady Carries)
open Fetch (Stage question debugger_next)

/-! ## Runs -/

/-- The world, and fetches with their threads and what is left to do of them. -/
structure State where
  world : World
  fetches : List (Int × Task Wait World (Except Fault (List Stack.Frame))) := []

/-- Whose turn it is, and what is new. -/
inductive Action where
  | fetch (thread : Int)
  | step (i : Nat)
  /-- The adapter says something. -/
  | event (name : String) (body : Json)
  /-- An editor resumed a thread. -/
  | resumed (thread : Int) (all : Bool) (detail : String)
  /-- The adapter listed its threads. -/
  | listed (threads : List ThreadInfo)
  | ended
  /-- Anything about the target changes, but for its threads. -/
  | aside (target : Target)
  /-- Anything changes, but for the targets. -/
  | outside (world : World)

variable (id : Nat)

/-- One action; what is not possible changes nothing. -/
def State.perform (s : State) : Action → State
  | .fetch thread => { s with fetches := s.fetches ++ [(thread, (stack id thread).outcome)] }
  | .step i =>
    match s.fetches[i]? with
    | none => s
    | some (thread, work) =>
      match work.tick? World.holds s.world with
      | none => s
      | some (work, world) => { world, fetches := s.fetches.set i (thread, work) }
  | .event name body =>
    { s with world := s.world.changeTarget id fun t =>
      ((t.process_ name body).1, (t.process_ name body).2.1) }
  | .resumed thread all detail => { s with world := s.world.changeTarget id (·.applyResume thread all detail) }
  | .listed threads => { s with world := s.world.changeTarget id (·.mergeThreads threads) }
  | .ended => { s with world := s.world.changeTarget id terminate }
  | .aside target =>
    { s with world := s.world.changeTarget id fun t => ({ target with id := t.id, threads := t.threads }, []) }
  | .outside world =>
    { s with world := { world with debugger := { world.debugger with targets := s.world.debugger.targets } } }

/-- The state after `n` actions. -/
def trace (start : World) (schedule : Nat → Action) : Nat → State
  | 0 => { world := start }
  | n + 1 => (trace start schedule n).perform id (schedule n)

/-- A thread of the target. -/
def State.thread? (s : State) (thread : Int) : Option DebugThread := (s.world.target id).thread? thread

/-- The thread is in a stop. -/
def State.InStop (s : State) (thread : Int) (stop : Nat) : Prop :=
  ∃ x, s.thread? id thread = some x ∧ x.isIn stop = true

/-! ## Where frames come from -/

/-- A fetch: which one it is, what it remembers, and when it took its steps. -/
structure Origin where
  index : Nat
  stop : Nat := 0
  channel : ChannelId := 0
  number : Int := 0
  ticket : Nat := 0
  body : StackTraceBody := default
  checked : Nat := 0
  asked : Nat := 0
  enrolled : Nat := 0
  sent : Nat := 0
  waited : Nat := 0
  answered : Nat := 0
  placed : Nat := 0
  kept : Nat := 0

namespace Origin

variable (start : World) (schedule : Nat → Action) (thread : Int) (f : Origin)

/-- The fetch began with the stop that its thread was in. -/
def Checked : Prop :=
  schedule f.checked = .step f.index ∧
    (trace id start schedule f.checked).fetches[f.index]? = some (thread, (stack id thread).outcome) ∧
    ((trace id start schedule f.checked).world.target id).currentStop thread = .ok f.stop

/-- It asked on the channel of the target. -/
def Asked : Prop :=
  f.Checked id start schedule thread ∧ f.checked < f.asked ∧ schedule f.asked = .step f.index ∧
    ((trace id start schedule f.asked).world.debugger.session
      ((trace id start schedule f.asked).world.target id).session).channel = f.channel

/-- Its request took a number. -/
def Enrolled : Prop :=
  f.Asked id start schedule thread ∧ f.asked < f.enrolled ∧ schedule f.enrolled = .step f.index ∧
    ((trace id start schedule f.enrolled).world.net.updateWith f.channel Channel.enroll).1 = (f.number, f.ticket)

/-- Its request was handed over. -/
def Sent : Prop :=
  f.Enrolled id start schedule thread ∧ f.enrolled < f.sent ∧ schedule f.sent = .step f.index ∧
    (trace id start schedule f.sent).world.net.updateWith f.channel
        (fun ch => ch.ask f.number (question thread).method (question thread).params)
      = (.ok (), (trace id start schedule (f.sent + 1)).world.net)

/-- Its wait was over. -/
def Waited : Prop :=
  f.Sent id start schedule thread ∧ f.sent < f.waited ∧ schedule f.waited = .step f.index

/-- It found the answer to its request. -/
def Answered : Prop :=
  f.Waited id start schedule thread ∧ f.waited < f.answered ∧ schedule f.answered = .step f.index ∧
    ∃ body, ((trace id start schedule f.answered).world.net.channel f.channel).pending.settlement? f.ticket
        = some (.answered (.ok body)) ∧ StackTraceBody.shape body = .ok f.body

/-- It placed the frames of the answer in their files. -/
def Placed (frames : List Stack.Frame) : Prop :=
  f.Answered id start schedule thread ∧ f.answered < f.placed ∧ schedule f.placed = .step f.index ∧
    frames = placeFrames (trace id start schedule f.placed).world id f.body.stackFrames

/-- It kept them, and they are still there, as its thread is still in the stop. -/
structure Explains (frames : List Stack.Frame) (n : Nat) : Prop where
  placed : f.Placed id start schedule thread frames
  placed_lt : f.placed < f.kept
  kept_lt : f.kept < n
  turn : schedule f.kept = .step f.index
  stays : ∀ m, f.kept ≤ m → m ≤ n → (trace id start schedule m).InStop id thread f.stop
  same : ∀ m, f.kept < m → m ≤ n →
    ((trace id start schedule m).world.target id).keptFrames? thread = some frames

end Origin

section Proofs

variable {id : Nat} {start : World} {schedule : Nat → Action}

/-! ## Fetches under way -/

/-- What is known of a fetch at a stage. -/
def Reached (id : Nat) (start : World) (schedule : Nat → Action) (i : Nat) (thread : Int) (n : Nat) :
    Stage → Prop
  | .checking | .ended _ => True
  | .looking stop | .asking stop =>
    ∃ f : Origin, f.index = i ∧ f.stop = stop ∧ f.Checked id start schedule thread ∧ f.checked < n
  | .requesting stop channel k =>
    match k with
    | .starting | .enrolling =>
      ∃ f : Origin, f.index = i ∧ f.stop = stop ∧ f.channel = channel ∧ f.Asked id start schedule thread ∧ f.asked < n
    | .verifying number ticket | .posting number ticket =>
      ∃ f : Origin, f.index = i ∧ f.stop = stop ∧ f.channel = channel ∧ f.number = number ∧ f.ticket = ticket ∧
        f.Enrolled id start schedule thread ∧ f.enrolled < n
    | .timing number ticket | .waiting number ticket _ _ =>
      ∃ f : Origin, f.index = i ∧ f.stop = stop ∧ f.channel = channel ∧ f.number = number ∧ f.ticket = ticket ∧
        f.Sent id start schedule thread ∧ f.sent < n
    | .fetching number ticket _ =>
      ∃ f : Origin, f.index = i ∧ f.stop = stop ∧ f.channel = channel ∧ f.number = number ∧ f.ticket = ticket ∧
        f.Waited id start schedule thread ∧ f.waited < n
    | .withdrawing _ _ _ | .ended _ => True
  | .placing stop body =>
    ∃ f : Origin, f.index = i ∧ f.stop = stop ∧ f.body = body ∧ f.Answered id start schedule thread ∧ f.answered < n
  | .keeping stop frames =>
    ∃ f : Origin, f.index = i ∧ f.stop = stop ∧ f.Placed id start schedule thread frames ∧ f.placed < n

lemma Reached.succ {i : Nat} {thread : Int} {n : Nat} {k : Stage} (h : Reached id start schedule i thread n k) :
    Reached id start schedule i thread (n + 1) k := by
  cases k with
  | checking | ended result => trivial
  | looking stop | asking stop =>
    obtain ⟨f, hi, hstop, hf, hlt⟩ := h
    exact ⟨f, hi, hstop, hf, Nat.lt_succ_of_lt hlt⟩
  | requesting stop channel k =>
    cases k with
    | withdrawing number ticket fault | ended reply => trivial
    | starting | enrolling =>
      obtain ⟨f, hi, hstop, hc, hf, hlt⟩ := h
      exact ⟨f, hi, hstop, hc, hf, Nat.lt_succ_of_lt hlt⟩
    | _ =>
      obtain ⟨f, hi, hstop, hc, hnumber, hticket, hf, hlt⟩ := h
      exact ⟨f, hi, hstop, hc, hnumber, hticket, hf, Nat.lt_succ_of_lt hlt⟩
  | placing stop body =>
    obtain ⟨f, hi, hstop, hbody, hf, hlt⟩ := h
    exact ⟨f, hi, hstop, hbody, hf, Nat.lt_succ_of_lt hlt⟩
  | keeping stop frames =>
    obtain ⟨f, hi, hstop, hf, hlt⟩ := h
    exact ⟨f, hi, hstop, hf, Nat.lt_succ_of_lt hlt⟩

/-- An answer that could be read has the body that was read. -/
lemma shape_of_reading {v : Json} {body : StackTraceBody} (h : Fetch.reading (.ok v) = .ok body) :
    StackTraceBody.shape v = .ok body := by
  unfold Fetch.reading Session.reading at h
  split at h
  · cases h
  · next heq =>
    obtain rfl := Except.ok.inj heq
    split at h
    · next hshape => exact hshape.trans (congrArg _ (Except.ok.inj h))
    · cases h

/-- A step of its request leads to what is known at the next stage. -/
lemma Reached.next_request {i : Nat} {thread : Int} {n stop : Nat} {channel : ChannelId}
    {k k' : Network.Request.Stage} {net : Network}
    (h : Reached id start schedule i thread n (.requesting stop channel k)) (hturn : schedule n = .step i)
    (hnext : k.next channel (question thread) (trace id start schedule n).world.net = some (k', net))
    (hnet : (trace id start schedule (n + 1)).world.net = net) :
    Reached id start schedule i thread (n + 1) (Stage.ofRequest stop channel k') := by
  cases k with
  | starting =>
    obtain ⟨rfl, rfl⟩ := Prod.mk.inj (Option.some.inj hnext)
    split
    · exact Reached.succ h
    · trivial
  | enrolling =>
    obtain ⟨rfl, rfl⟩ := Prod.mk.inj (Option.some.inj hnext)
    obtain ⟨f, rfl, rfl, rfl, hasked, hlt⟩ := h
    exact ⟨{ f with number := _, ticket := _, enrolled := n }, rfl, rfl, rfl, rfl, rfl,
      ⟨hasked, hlt, hturn, rfl⟩, Nat.lt_succ_self n⟩
  | verifying number ticket =>
    obtain ⟨rfl, rfl⟩ := Prod.mk.inj (Option.some.inj hnext)
    split
    · exact Reached.succ h
    · trivial
  | posting number ticket =>
    simp only [Network.Request.Stage.next] at hnext
    split at hnext
    · next hok =>
      obtain ⟨rfl, rfl⟩ := Prod.mk.inj (Option.some.inj hnext)
      obtain ⟨f, rfl, rfl, rfl, rfl, rfl, henrolled, hlt⟩ := h
      exact ⟨{ f with sent := n }, rfl, rfl, rfl, rfl, rfl,
        ⟨henrolled, hlt, hturn, Prod.ext hok hnet.symm⟩, Nat.lt_succ_self n⟩
    · obtain ⟨rfl, rfl⟩ := Prod.mk.inj (Option.some.inj hnext)
      trivial
  | timing number ticket =>
    obtain ⟨rfl, rfl⟩ := Prod.mk.inj (Option.some.inj hnext)
    exact Reached.succ h
  | waiting number ticket limit deadline =>
    simp only [Network.Request.Stage.next] at hnext
    split at hnext
    · obtain ⟨rfl, rfl⟩ := Prod.mk.inj (Option.some.inj hnext)
      obtain ⟨f, rfl, rfl, rfl, rfl, rfl, hsent, hlt⟩ := h
      exact ⟨{ f with waited := n }, rfl, rfl, rfl, rfl, rfl, ⟨hsent, hlt, hturn⟩, Nat.lt_succ_self n⟩
    · cases hnext
  | fetching number ticket limit =>
    obtain ⟨f, rfl, rfl, rfl, rfl, rfl, hwaited, hlt⟩ := h
    simp only [Network.Request.Stage.next, Network.fetch] at hnext
    cases hs : ((trace id start schedule n).world.net.channel f.channel).pending.settlement? f.ticket with
    | none =>
      simp only [hs] at hnext
      obtain ⟨rfl, rfl⟩ := Prod.mk.inj (Option.some.inj hnext)
      trivial
    | some settlement =>
      simp only [hs] at hnext
      obtain ⟨rfl, -⟩ := Prod.mk.inj (Option.some.inj hnext)
      rcases settlement with ⟨r | v⟩ | -
      · trivial
      · show Reached id start schedule f.index thread (n + 1) (Stage.ofReply f.stop (.ok v))
        cases hread : Fetch.reading (.ok v) with
        | error e =>
          simp only [Stage.ofReply, hread]
          trivial
        | ok body =>
          simp only [Stage.ofReply, hread]
          exact ⟨{ f with body := body, answered := n }, rfl, rfl, rfl,
            ⟨hwaited, hlt, hturn, v, hs, shape_of_reading hread⟩, Nat.lt_succ_self n⟩
      · trivial
  | withdrawing number ticket fault =>
    obtain ⟨rfl, rfl⟩ := Prod.mk.inj (Option.some.inj hnext)
    trivial
  | ended reply => cases hnext

/-- A step leads to what is known at the next stage. -/
lemma Reached.next {i : Nat} {thread : Int} {n : Nat} {k k' : Stage} {w' : World}
    (h : Reached id start schedule i thread n k) (hturn : schedule n = .step i)
    (hi : (trace id start schedule n).fetches[i]? = some (thread, k.work id thread))
    (hnext : k.next id thread (trace id start schedule n).world = some (k', w'))
    (hworld : (trace id start schedule (n + 1)).world = w') :
    Reached id start schedule i thread (n + 1) k' := by
  cases k with
  | checking =>
    simp only [Stage.next] at hnext
    split at hnext
    · next stop hstop =>
      obtain ⟨rfl, rfl⟩ := Prod.mk.inj (Option.some.inj hnext)
      exact ⟨{ index := i, stop, checked := n }, rfl, rfl, ⟨hturn, hi, hstop⟩, Nat.lt_succ_self n⟩
    · obtain ⟨rfl, rfl⟩ := Prod.mk.inj (Option.some.inj hnext)
      trivial
  | looking stop =>
    simp only [Stage.next] at hnext
    split at hnext
    · obtain ⟨rfl, rfl⟩ := Prod.mk.inj (Option.some.inj hnext)
      trivial
    · -- no frames are kept, so they are asked for
      obtain ⟨rfl, rfl⟩ := Prod.mk.inj (Option.some.inj hnext)
      exact h.succ
  | asking stop =>
    obtain ⟨rfl, rfl⟩ := Prod.mk.inj (Option.some.inj hnext)
    obtain ⟨f, rfl, rfl, hchecked, hlt⟩ := h
    exact ⟨{ f with channel := _, asked := n }, rfl, rfl, rfl, ⟨hchecked, hlt, hturn, rfl⟩, Nat.lt_succ_self n⟩
  | requesting stop channel k =>
    obtain ⟨⟨k₂, net⟩, hk₂, heq⟩ := Option.map_eq_some_iff.mp hnext
    obtain ⟨rfl, rfl⟩ := Prod.mk.inj heq
    exact h.next_request hturn hk₂ (congrArg World.net hworld)
  | placing stop body =>
    obtain ⟨rfl, rfl⟩ := Prod.mk.inj (Option.some.inj hnext)
    obtain ⟨f, rfl, rfl, rfl, hanswered, hlt⟩ := h
    exact ⟨{ f with placed := n }, rfl, rfl, ⟨hanswered, hlt, hturn, rfl⟩, Nat.lt_succ_self n⟩
  | keeping stop frames =>
    obtain ⟨rfl, rfl⟩ := Prod.mk.inj (Option.some.inj hnext)
    trivial
  | ended result => cases hnext

/-! ## The invariant -/

/-- What holds after every number of actions. -/
structure Invariant (id : Nat) (start : World) (schedule : Nat → Action) (n : Nat) : Prop where
  present : ((trace id start schedule n).world.debugger.target? id).isSome = true
  underWay : ∀ (i : Nat) (thread : Int) work, (trace id start schedule n).fetches[i]? = some (thread, work) →
    ∃ k : Stage, work = k.work id thread ∧ k.Proper ∧ Reached id start schedule i thread n k
  explained : ∀ thread frames, ((trace id start schedule n).world.target id).keptFrames? thread = some frames →
    ∃ f : Origin, f.Explains id start schedule thread frames n

/-- What an action does to the target: threads stay, are new or are gone, or frames are kept. -/
inductive Change (id : Nat) (start : World) (schedule : Nat → Action) (n : Nat) : Prop where
  | moves (h : ((trace id start schedule n).world.target id).Moves
      ((trace id start schedule (n + 1)).world.target id))
  | keeps (thread : Int) (frames : List Stack.Frame) (f : Origin)
      (placed : f.Placed id start schedule thread frames) (placed_lt : f.placed < n)
      (turn : schedule n = .step f.index)
      (h : (trace id start schedule (n + 1)).world.target id
        = ((trace id start schedule n).world.target id).keepFrames thread f.stop frames)

namespace Invariant

variable {n : Nat}

/-- A change of the target that is made in one action. -/
lemma changed (h : Invariant id start schedule n) {f : Target → Target × List Note}
    (hf : ∀ t : Target, t.Moves (f t).1)
    (hworld : (trace id start schedule (n + 1)).world = (trace id start schedule n).world.changeTarget id f) :
    ((trace id start schedule (n + 1)).world.debugger.target? id).isSome = true ∧ Change id start schedule n := by
  have hid := (hf ((trace id start schedule n).world.target id)).1
  refine ⟨?_, .moves ?_⟩
  · rw [hworld, target?_changeTarget h.present hid]
    rfl
  · rw [hworld, target_changeTarget h.present hid]
    exact hf _

/-- An action that leaves the targets alone. -/
lemma unchanged (h : Invariant id start schedule n)
    (htargets : (trace id start schedule (n + 1)).world.debugger.targets
      = (trace id start schedule n).world.debugger.targets) :
    ((trace id start schedule (n + 1)).world.debugger.target? id).isSome = true ∧ Change id start schedule n := by
  have heq : (trace id start schedule (n + 1)).world.debugger.target? id
      = (trace id start schedule n).world.debugger.target? id := by
    simp only [Debugger.target?, htargets]
  refine ⟨heq ▸ h.present, .moves ?_⟩
  rw [show (trace id start schedule (n + 1)).world.target id = (trace id start schedule n).world.target id from
    congrArg (·.getD default) heq]
  exact (Steadies.refl _).moves

/-- What happens to the target. -/
lemma change (h : Invariant id start schedule n) :
    ((trace id start schedule (n + 1)).world.debugger.target? id).isSome = true ∧ Change id start schedule n := by
  have hstep : trace id start schedule (n + 1) = (trace id start schedule n).perform id (schedule n) := rfl
  cases haction : schedule n with
  | fetch thread =>
    rw [haction] at hstep
    exact h.unchanged (by rw [hstep]; rfl)
  | step i =>
    rw [haction] at hstep
    cases hi : (trace id start schedule n).fetches[i]? with
    | none => exact h.unchanged (by rw [hstep]; simp only [State.perform, hi])
    | some r =>
      obtain ⟨thread, work⟩ := r
      obtain ⟨k, rfl, hproper, hreached⟩ := h.underWay i thread work hi
      cases hnext : k.next id thread (trace id start schedule n).world with
      | none =>
        exact h.unchanged (by rw [hstep]; simp only [State.perform, hi, Fetch.tick_work hproper, hnext, Option.map_none])
      | some r =>
        obtain ⟨k', w'⟩ := r
        have hworld : (trace id start schedule (n + 1)).world = w' := by
          rw [hstep]
          simp only [State.perform, hi, Fetch.tick_work hproper, hnext, Option.map_some]
        -- of all steps of a fetch only the one that keeps its frames touches the target
        rcases debugger_next hnext with hsame | ⟨stop, frames, rfl, rfl⟩
        · exact h.unchanged (by rw [hworld, hsame])
        · obtain ⟨f, rfl, rfl, hplaced, hlt⟩ := hreached
          have hid := id_keepFrames ((trace id start schedule n).world.target id) thread f.stop frames
          refine ⟨?_, .keeps thread frames f hplaced hlt haction ?_⟩
          · rw [hworld, target?_changeTarget h.present hid]
            rfl
          · rw [hworld, target_changeTarget h.present hid]
  | event name body =>
    rw [haction] at hstep
    exact h.changed (f := fun t => ((t.process_ name body).1, (t.process_ name body).2.1))
      (fun t => moves_process t name body) (congrArg State.world hstep)
  | resumed thread all detail =>
    rw [haction] at hstep
    exact h.changed (fun t => (steadies_applyResume t thread all detail).moves) (congrArg State.world hstep)
  | listed threads =>
    rw [haction] at hstep
    exact h.changed (fun t => (steadies_mergeThreads t threads).moves) (congrArg State.world hstep)
  | ended =>
    rw [haction] at hstep
    exact h.changed moves_terminate (congrArg State.world hstep)
  | aside target =>
    rw [haction] at hstep
    exact h.changed (f := fun t => ({ target with id := t.id, threads := t.threads }, []))
      (fun t => moves_of_threads_eq rfl rfl) (congrArg State.world hstep)
  | outside world =>
    rw [haction] at hstep
    exact h.unchanged (by rw [hstep]; rfl)

/-- Fetches that are under way stay so. -/
lemma underWay_succ (h : Invariant id start schedule n) (i : Nat) (thread : Int)
    (work : Task Wait World (Except Fault (List Stack.Frame)))
    (hi : (trace id start schedule (n + 1)).fetches[i]? = some (thread, work)) :
    ∃ k : Stage, work = k.work id thread ∧ k.Proper ∧ Reached id start schedule i thread (n + 1) k := by
  have hstep : trace id start schedule (n + 1) = (trace id start schedule n).perform id (schedule n) := rfl
  have hold : (trace id start schedule n).fetches[i]? = some (thread, work) →
      ∃ k : Stage, work = k.work id thread ∧ k.Proper ∧ Reached id start schedule i thread (n + 1) k := by
    intro hi
    obtain ⟨k, hk, hproper, hreached⟩ := h.underWay i thread work hi
    exact ⟨k, hk, hproper, hreached.succ⟩
  cases haction : schedule n with
  | fetch other =>
    rw [hstep, haction] at hi
    simp only [State.perform, List.getElem?_append] at hi
    split at hi
    · exact hold hi
    · obtain ⟨rfl, rfl⟩ := Prod.mk.inj (List.mem_singleton.mp (List.mem_of_getElem? hi))
      exact ⟨.checking, rfl, trivial, trivial⟩
  | step j =>
    rw [hstep, haction] at hi
    cases hj : (trace id start schedule n).fetches[j]? with
    | none => exact hold (by simpa only [State.perform, hj] using hi)
    | some r =>
      obtain ⟨other, work'⟩ := r
      obtain ⟨k, rfl, hproper, hreached⟩ := h.underWay j other work' hj
      cases hnext : k.next id other (trace id start schedule n).world with
      | none => exact hold (by simpa only [State.perform, hj, Fetch.tick_work hproper, hnext, Option.map_none] using hi)
      | some r =>
        obtain ⟨k', w'⟩ := r
        have hworld : (trace id start schedule (n + 1)).world = w' := by
          rw [hstep, haction]
          simp only [State.perform, hj, Fetch.tick_work hproper, hnext, Option.map_some]
        simp only [State.perform, hj, Fetch.tick_work hproper, hnext, Option.map_some] at hi
        -- the fetch whose turn it is goes on, and the others stay where they are
        by_cases hji : j = i
        · subst hji
          rw [List.getElem?_set_self (List.getElem?_eq_some_iff.mp hj).1] at hi
          obtain ⟨rfl, rfl⟩ := Prod.mk.inj (Option.some.inj hi)
          exact ⟨k', rfl, Fetch.proper_next hnext, hreached.next haction hj hnext hworld⟩
        · rw [List.getElem?_set_ne hji] at hi
          exact hold hi
  | event name body | resumed other all detail | listed threads | ended | aside target | outside world =>
    rw [hstep, haction] at hi
    exact hold hi

/-- Frames that stay are explained as before. -/
lemma explained_of_same {thread : Int} {frames : List Stack.Frame} {f : Origin}
    (hf : f.Explains id start schedule thread frames n) {x y : DebugThread}
    (hx : (trace id start schedule n).thread? id thread = some x)
    (hy : (trace id start schedule (n + 1)).thread? id thread = some y) (hframes : y.frames = some frames)
    (hstop : x.stop = y.stop) (hsuspended : x.isSuspended = y.isSuspended) :
    f.Explains id start schedule thread frames (n + 1) where
  placed := hf.placed
  placed_lt := hf.placed_lt
  kept_lt := Nat.lt_succ_of_lt hf.kept_lt
  turn := hf.turn
  stays m hm hmn := by
    rcases Nat.lt_or_eq_of_le hmn with hlt | rfl
    · exact hf.stays m hm (Nat.le_of_lt_succ hlt)
    · obtain ⟨x', hx', hin⟩ := hf.stays n (Nat.le_of_lt hf.kept_lt) (Nat.le_refl n)
      obtain rfl := Option.some.inj (hx.symm.trans hx')
      refine ⟨y, hy, ?_⟩
      unfold DebugThread.isIn at hin ⊢
      rwa [← hstop, ← hsuspended]
  same m hm hmn := by
    rcases Nat.lt_or_eq_of_le hmn with hlt | rfl
    · exact hf.same m hm (Nat.le_of_lt_succ hlt)
    · show ((trace id start schedule (n + 1)).thread? id thread).bind (·.frames) = _
      rw [hy]
      exact hframes

/-- Frames that are there after an action were there before, or are kept by it. -/
lemma explained_succ (h : Invariant id start schedule n) (hchange : Change id start schedule n) (thread : Int)
    (frames : List Stack.Frame)
    (hkept : ((trace id start schedule (n + 1)).world.target id).keptFrames? thread = some frames) :
    ∃ f : Origin, f.Explains id start schedule thread frames (n + 1) := by
  obtain ⟨y, hy, hframes⟩ := Option.bind_eq_some_iff.mp hkept
  have hexplained : ∀ x, (trace id start schedule n).thread? id thread = some x → x.frames = some frames →
      ∃ f : Origin, f.Explains id start schedule thread frames n := fun x hx hxf =>
    h.explained thread frames (Option.bind_eq_some_iff.mpr ⟨x, hx, hxf⟩)
  cases hchange with
  | moves hmoves =>
    rcases hmoves.2 thread with hsteady | hgone
    · rw [hy] at hsteady
      cases hx : ((trace id start schedule n).world.target id).thread? thread with
      | none =>
        rw [hx] at hsteady
        exact absurd (hframes.symm.trans hsteady) nofun
      | some x =>
        rw [hx] at hsteady
        obtain ⟨hxf, hstop, hsuspended⟩ := Carries.frames hsteady frames hframes
        obtain ⟨f, hf⟩ := hexplained x hx hxf
        exact ⟨f, explained_of_same hf hx hy hframes hstop hsuspended⟩
    · rw [hgone] at hy
      cases hy
  | keeps other fresh f hplaced hlt hturn htarget =>
    rcases thread?_keepFrames ((trace id start schedule n).world.target id) other f.stop fresh thread with
      hsame | ⟨rfl, x, hx, hin, hnew⟩
    · rw [htarget, hsame] at hy
      obtain ⟨g, hg⟩ := hexplained y hy hframes
      refine ⟨g, explained_of_same hg hy ?_ hframes rfl rfl⟩
      show ((trace id start schedule (n + 1)).world.target id).thread? thread = some y
      rw [htarget, hsame, hy]
    · rw [htarget, hnew] at hy
      -- these are the frames that the fetch whose turn it was has brought
      obtain rfl := Option.some.inj hy
      obtain rfl := Option.some.inj hframes
      have hthread : (trace id start schedule (n + 1)).thread? id thread = some { x with frames := some fresh } := by
        show ((trace id start schedule (n + 1)).world.target id).thread? thread = _
        rw [htarget, hnew]
      refine ⟨{ f with kept := n }, hplaced, hlt, Nat.lt_succ_self n, hturn, fun m hm hmn => ?_, fun m hm hmn => ?_⟩
      · rcases Nat.lt_or_eq_of_le hmn with hlt' | rfl
        · obtain rfl : n = m := Nat.le_antisymm hm (Nat.le_of_lt_succ hlt')
          exact ⟨x, hx, hin⟩
        · exact ⟨_, hthread, hin⟩
      · obtain rfl : m = n + 1 := Nat.le_antisymm hmn hm
        show ((trace id start schedule (n + 1)).thread? id thread).bind (·.frames) = _
        rw [hthread]
        rfl

end Invariant

/-- The invariant holds at every time. -/
theorem invariant (hpresent : (start.debugger.target? id).isSome = true) (hthreads : (start.target id).threads = [])
    (n : Nat) : Invariant id start schedule n := by
  induction n with
  | zero =>
    refine ⟨hpresent, nofun, fun thread frames hkept => ?_⟩
    have hnone : (start.target id).keptFrames? thread = none := by simp [keptFrames?, thread?, hthreads]
    cases hkept.symm.trans hnone
  | succ n ih => exact ⟨ih.change.1, ih.underWay_succ, ih.explained_succ ih.change.2⟩

/-! ## Stops over time -/

/-- From one time to the next a thread that is there never goes back to an earlier stop. -/
lemma Change.later {n : Nat} (h : Change id start schedule n) {thread : Int} {x y : DebugThread}
    (hx : (trace id start schedule n).thread? id thread = some x)
    (hy : (trace id start schedule (n + 1)).thread? id thread = some y) : x.Later y := by
  have hx : ((trace id start schedule n).world.target id).thread? thread = some x := hx
  have hy : ((trace id start schedule (n + 1)).world.target id).thread? thread = some y := hy
  cases h with
  | moves hmoves =>
    rcases hmoves.2 thread with hsteady | hgone
    · rw [hx, hy] at hsteady
      exact Carries.later hsteady
    · rw [hgone] at hy
      cases hy
  | keeps other fresh f hplaced hlt hturn htarget =>
    rw [htarget] at hy
    rcases thread?_keepFrames ((trace id start schedule n).world.target id) other f.stop fresh thread with
      hsame | ⟨rfl, z, hz, -, hnew⟩
    · rw [hsame, hx] at hy
      obtain rfl := Option.some.inj hy
      exact .refl x
    · rw [hnew] at hy
      obtain rfl := Option.some.inj (hx.symm.trans hz)
      obtain rfl := Option.some.inj hy
      exact .inr ⟨rfl, fun h => h⟩

/-- A thread that is there all the time and in one stop at both ends is in it in between. -/
lemma inStop_of_present (hinv : ∀ n, Invariant id start schedule n) {thread : Int} {stop a m b : Nat}
    (ham : a ≤ m) (hmb : m ≤ b)
    (hthere : ∀ l, a ≤ l → l ≤ b → (trace id start schedule l).thread? id thread ≠ none)
    (ha : (trace id start schedule a).InStop id thread stop)
    (hb : (trace id start schedule b).InStop id thread stop) :
    (trace id start schedule m).InStop id thread stop :=
  DebugThread.isIn_of_present (fun n _ _ hx hy => (hinv n).change.2.later hx hy) ham hmb hthere ha hb

end Proofs

/-! ## Freshness -/

/-- Ever since the request was handed over, the thread has been in the stop. -/
def Origin.Fresh (start : World) (schedule : Nat → Action) (thread : Int) (n : Nat) (f : Origin) : Prop :=
  ∀ m, f.sent ≤ m → m ≤ n → (trace id start schedule m).InStop id thread f.stop

/-- Whatever the order in which fetches, events and everything around a target take their steps: frames that are
kept come from a request for the frames of their thread, made by a fetch that found the thread in the stop that
it is in now. They belong to this stop, unless the thread was gone in the meantime: after the request was
handed over, or before that and then it had not yet come back to a stop of that number. -/
theorem keptFrames_fresh_iff {start : World} (hpresent : (start.debugger.target? id).isSome = true)
    (hthreads : (start.target id).threads = []) (schedule : Nat → Action) (n : Nat) (thread : Int)
    (frames : List Stack.Frame)
    (hkept : ((trace id start schedule n).world.target id).keptFrames? thread = some frames) :
    ∃ f : Origin, f.Explains id start schedule thread frames n ∧
      (f.Fresh id start schedule thread n ↔
        ∀ m, f.checked ≤ m → m ≤ n → (trace id start schedule m).thread? id thread = none →
          m < f.sent ∧ (trace id start schedule f.sent).InStop id thread f.stop) := by
  have hinv : ∀ m, Invariant id start schedule m := invariant hpresent hthreads
  obtain ⟨f, hf⟩ := (hinv n).explained thread frames hkept
  obtain ⟨⟨⟨⟨⟨⟨⟨-, -, hstop⟩, hca, -, -⟩, hae, -, -⟩, hes, -, -⟩, hsw, -⟩, hwa, -, -⟩, hap, -, -⟩ := hf.placed
  have hcs : f.checked ≤ f.sent := by omega
  have hsn : f.sent ≤ n := by
    have := hf.placed_lt
    have := hf.kept_lt
    omega
  have hnow := hf.stays n (Nat.le_of_lt hf.kept_lt) (Nat.le_refl n)
  refine ⟨f, hf, ?_, ?_⟩
  · intro hfresh m hcm hmn hgone
    refine ⟨Nat.lt_of_not_le fun hsm => ?_, hfresh f.sent (Nat.le_refl _) hsn⟩
    obtain ⟨x, hx, -⟩ := hfresh m hsm hmn
    rw [hgone] at hx
    cases hx
  · intro hgone m hsm hmn
    have hthere : ∀ l, f.sent ≤ l → l ≤ n → (trace id start schedule l).thread? id thread ≠ none :=
      fun l hl hln hnone => Nat.not_lt_of_le hl (hgone l (Nat.le_trans hcs hl) hln hnone).1
    have hsent : (trace id start schedule f.sent).InStop id thread f.stop := by
      by_cases hever : ∃ l, f.checked ≤ l ∧ l ≤ n ∧ (trace id start schedule l).thread? id thread = none
      · obtain ⟨l, hcl, hln, hnone⟩ := hever
        exact (hgone l hcl hln hnone).2
      · -- the thread was there all the time, so its stops only counted on
        exact inStop_of_present hinv hcs hsn (fun l hl hln hnone => hever ⟨l, hl, hln, hnone⟩)
          (isIn_of_currentStop hstop) hnow
    exact inStop_of_present hinv hsm hmn hthere hsent hnow

/-! ### A thread that comes back -/

/-- A target on a channel that is open. -/
def oneTarget : World where
  net := { channels := [{ dialect := .sequenced, phase := .ready }] }
  debugger := { placesFrames := false, sessions := [default], targets := [{ id := 1, launch := default, session := 0 }] }

/-- The answer to the first request, which tells of a function that the thread was in. -/
def firstReply : Json :=
  .obj [("stackFrames", .arr [.obj [("id", .int 7), ("name", "old"), ("line", .int 1), ("column", .int 1)]])]

/-- The thread stops, its frames are asked for, it exits, a thread of the same id stops, and the answer comes. -/
def comesBack : List Action :=
  [.event "stopped" (.obj [("reason", "breakpoint"), ("threadId", .int 1)]), .fetch 1]
    ++ List.replicate 8 (.step 0)
    ++ [.event "thread" (.obj [("reason", "exited"), ("threadId", .int 1)]),
      .event "stopped" (.obj [("reason", "breakpoint"), ("threadId", .int 1)]),
      .outside { oneTarget with
        net := { channels := [{ dialect := .sequenced, phase := .ready, nextId := 2
                                pending := { next := 1, settled := [(0, .answered (.ok firstReply))] } }] } }]
    ++ List.replicate 4 (.step 0)

/-- Those actions, one after the other. -/
def comesBackSchedule (n : Nat) : Action := comesBack.getD n .ended

/-- The function that the answer tells of. -/
def oldFrame : Stack.Frame := { index := 0, id := 7, name := "old", synthetic := false }

/-- The frames that are kept for the thread that came back are those of the one that is gone. -/
theorem stale_frames_comesBack :
    ((trace 1 oneTarget comesBackSchedule 17).world.target 1).keptFrames? 1 = some [oldFrame] ∧
      ∃ f : Origin, f.Explains 1 oneTarget comesBackSchedule 1 [oldFrame] 17 ∧
        ¬ f.Fresh 1 oneTarget comesBackSchedule 1 17 := by
  have hkept : ((trace 1 oneTarget comesBackSchedule 17).world.target 1).keptFrames? 1 = some [oldFrame] := by
    decide +kernel
  have hgone : (trace 1 oneTarget comesBackSchedule 11).thread? 1 1 = none := by decide +kernel
  obtain ⟨f, hf, hiff⟩ := keptFrames_fresh_iff 1 (by decide) rfl comesBackSchedule 17 1 [oldFrame] hkept
  refine ⟨hkept, f, hf, fun hfresh => ?_⟩
  obtain ⟨⟨⟨⟨⟨⟨-, hca, -, -⟩, hae, -, -⟩, hes, hsent, -⟩, hsw, -⟩, hwa, -, -⟩, hap, -, -⟩ := hf.placed
  have hpk := hf.placed_lt
  have hkn := hf.kept_lt
  -- four steps follow the one that hands the request over
  have hle : f.sent ≤ 12 := by omega
  have hlt := (hiff.mp hfresh 11 (by omega) (by omega) hgone).1
  obtain heq : f.sent = 12 := by omega
  rw [heq] at hsent
  cases hsent

end Switchboard.Debug.Target.Freshness
