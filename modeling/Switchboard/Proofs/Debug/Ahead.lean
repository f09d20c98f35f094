import Switchboard.Proofs.Concurrency.Ensemble
import Switchboard.Proofs.Debug.Fetch
import Switchboard.Proofs.Debug.Transitions

/-!
# Fetching frames ahead, access by access

* `labour`: what a worker does with the job that came first;
* `Progress`: how far it is, one place for each access; `Progress.work`, `Progress.next`, `tick_work`;
* `Call`, `Place`: requests and workers, and where they are; the events of adapters are followed until frames are put off;
* `rush`: any number of them at once, and anything that happens to all but targets and what was put off;
* `play_rush`: these are the requests and the workers as they run.
-/

namespace Switchboard.Debug.Ahead

open Target (Fetch.Stage)

/-! ## Workers -/

/-- A worker that is free takes the job that came first. -/
def take (w : World) : Option (Deferred.Job Prefetch) × World :=
  match w.debugger.pool.take? with
  | some (job, pool) => (some job, { w with debugger := { w.debugger with pool } })
  | none => (none, w)

/-- It is free again. -/
def release (w : World) : World := { w with debugger := { w.debugger with pool := w.debugger.pool.release } }

/-- What a worker does with the job that came first, if there is one that it can take. -/
def labour : Task Wait World Unit := do
  match ← Task.act take with
  | some job => do
    Running.prefetch job
    Task.modify release
  | none => pure ()

/-- How far a worker is. -/
inductive Progress where
  /-- Before a job is taken. -/
  | taking
  /-- Before the clock is read. -/
  | timing (job : Deferred.Job Prefetch)
  | delaying (job : Deferred.Job Prefetch) (due : Nat)
  /-- The delay is over, and the version is not checked yet. -/
  | checking (job : Deferred.Job Prefetch)
  | fetching (job : Deferred.Job Prefetch) (k : Fetch.Stage) (proper : k.Proper)
  /-- The job is done or was dropped. -/
  | releasing
  | finished

namespace Progress

/-- What is left to do when the delay is over. -/
def checkingWork (job : Deferred.Job Prefetch) : Task Wait World Unit :=
  .access id fun w => Task.andThen
    (if (w.target job.work.target).stamp = job.version then
      (Target.stack job.work.target job.work.thread).outcome.andThen fun _ => .done ()
    else .done ())
    fun _ => Task.modify release

/-- What is left to do. -/
def work : Progress → Task Wait World Unit
  | taking => labour
  | timing job => (Running.prefetch job).andThen fun _ => Task.modify release
  | delaying job due => .wait (.time due) (checkingWork job)
  | checking job => checkingWork job
  | fetching job k _ => (k.work job.work.target job.work.thread).andThen fun _ => Task.modify release
  | releasing => Task.modify release
  | finished => .done ()

/-- One step, if there is one. -/
def next (w : World) : Progress → Option (Progress × World)
  | taking => some (((take w).1.map timing).getD finished, (take w).2)
  | timing job => some (delaying job (w.net.now + job.delay.getD 0), w)
  | delaying job due => if World.holds (.time due) w then some (checking job, w) else none
  | checking job =>
    some (if (w.target job.work.target).stamp = job.version then fetching job .checking trivial else releasing, w)
  | fetching _ (.ended _) _ => some (finished, release w)
  | fetching job k _ => (k.next job.work.target job.work.thread w).pmap
    (fun r hr => (fetching job r.1 hr, r.2)) fun _ hr => Target.Fetch.proper_next hr
  | releasing => some (finished, release w)
  | finished => none

/-- A fetch that is not over makes a step of its own. -/
lemma next_fetching {job : Deferred.Job Prefetch} {k : Fetch.Stage} {w : World} (proper : k.Proper)
    (hk : ∀ result, k ≠ .ended result) : (fetching job k proper).next w = (k.next job.work.target job.work.thread w).pmap
      (fun r hr => (fetching job r.1 hr, r.2)) fun _ hr => Target.Fetch.proper_next hr := by
  cases k with
  | ended result => exact absurd rfl (hk result)
  | _ => rfl

/-- A step of the work that is left leads to what is left next. -/
theorem tick_work (a : Progress) (w : World) :
    a.work.tick? World.holds w = (a.next w).map fun r => (r.1.work, r.2) := by
  cases a with
  | taking =>
    show some (_, (take w).2) = some (((take w).1.map timing |>.getD finished).work, (take w).2)
    congr 2
    show (Task.done (take w).1).andThen _ = _
    cases (take w).1 <;> rfl
  | timing job => rfl
  | delaying job due =>
    show (if World.holds (.time due) w then some (checkingWork job, w) else none)
      = (if World.holds (.time due) w then some (checking job, w) else none).map fun r => (r.1.work, r.2)
    split <;> rfl
  | checking job =>
    show some (Task.andThen (if _ then _ else _) _, w)
      = some (work (if (w.target job.work.target).stamp = job.version then fetching job .checking trivial else releasing), w)
    split
    · rw [Task.andThen_assoc]
      rfl
    · rfl
  | fetching job k proper =>
    by_cases hk : ∃ result, k = .ended result
    · obtain ⟨result, rfl⟩ := hk
      rfl
    · have hunfinished : ∀ result, k ≠ .ended result := fun result h => hk ⟨result, h⟩
      rw [next_fetching proper hunfinished, work, Task.tick?_andThen (Target.Fetch.Stage.result?_work proper hunfinished),
        Target.Fetch.tick_work proper, Option.map_map, Option.map_pmap]
      exact (Option.pmap_eq_map _ (fun r : Fetch.Stage × World =>
        ((r.1.work job.work.target job.work.thread).andThen fun _ => Task.modify release, r.2)) _ _).symm
  | releasing => rfl
  | finished => rfl

end Progress

/-! ## Requests and workers -/

/-- What the debugger takes up, and workers that look for a job. Nothing is fetched ahead but by workers. -/
inductive Call where
  | request (r : Bustle.Request) (unhurried : ∀ job, r ≠ .prefetch job)
  | worker

lemma Call.unhurried_command (c : Command) (job : Deferred.Job Prefetch) :
    Bustle.Request.command c ≠ .prefetch job := fun h => by cases h

lemma Call.unhurried_event (s : SessionId) (e : Channel.Event) (job : Deferred.Job Prefetch) :
    Bustle.Request.event s e ≠ .prefetch job := fun h => by cases h

/-- What is done for a call. -/
def Call.work : Call → Task Wait World Unit
  | request r _ => r.work
  | worker => labour

/-- Where a call is. -/
inductive Place where
  /-- This is left to do, and it puts nothing off. -/
  | rest (work : Task Wait World Unit)
  /-- Before an event is applied to the target on a session. -/
  | hearing (s : SessionId) (e : Channel.Event) (applies : e.name ≠ "initialized")
  /-- Before the frames of threads that stopped are put off. -/
  | stopped (target : Nat) (threads : List Int)
  | ahead (a : Progress)

namespace Place

/-- What is left to do. -/
def work : Place → Task Wait World Unit
  | rest work => work
  | hearing s e _ => Running.handleEvent s e
  | stopped target threads => Task.modify fun w => w.schedulePrefetch target threads
  | ahead a => a.work

/-- What is left to do when an event was applied. -/
def ofEffect (s : SessionId) : Option (Nat × Target.Effect) → Place
  | some (target, .stopped threads) => stopped target threads
  | some (_, .terminated) => rest (Running.retire s)
  | _ => rest (.done ())

/-- One step, if there is one. -/
def next (w : World) : Place → Option (Place × World)
  | rest work => (work.tick? World.holds w).map fun r => (rest r.1, r.2)
  | hearing s e _ => some (ofEffect s (w.applyDebugEvent s e).1, (w.applyDebugEvent s e).2)
  | stopped target threads => some (rest (.done ()), w.schedulePrefetch target threads)
  | ahead a => (a.next w).map fun r => (ahead r.1, r.2)

/-- Where a call begins. -/
def first : Call → Place
  | .request (.event s e) _ => if h : e.name = "initialized" then rest (Running.configure s) else hearing s e h
  | .request r _ => rest r.work
  | .worker => ahead .taking

lemma work_ofEffect (s : SessionId) (effect : Option (Nat × Target.Effect)) :
    (ofEffect s effect).work = match effect with
      | some (target, .stopped threads) => Task.modify fun w => w.schedulePrefetch target threads
      | some (_, .terminated) => Running.retire s
      | _ => pure () := by
  unfold ofEffect
  split <;> rfl

/-- A step leads to what is left at the next place. -/
theorem tick_work (p : Place) (w : World) :
    p.work.tick? World.holds w = (p.next w).map fun r => (r.1.work, r.2) := by
  cases p with
  | rest work =>
    rw [next, Option.map_map]
    exact (congrFun Option.map_id _).symm
  | hearing s e applies =>
    rw [next, Option.map_some, work_ofEffect, work, Running.handleEvent, if_neg applies]
    rfl
  | stopped target threads => rfl
  | ahead a =>
    rw [work, next, a.tick_work, Option.map_map]
    rfl

lemma work_first (call : Call) : (first call).work = call.work := by
  cases call with
  | request r unhurried =>
    cases r with
    | event s e =>
      show (if h : e.name = "initialized" then rest (Running.configure s) else hearing s e h).work = _
      split
      · next h =>
        show Running.configure s = Running.handleEvent s e
        rw [Running.handleEvent, if_pos h]
      · rfl
    | _ => rfl
  | worker => rfl

end Place

/-! ## Runs -/

/-- Anything happens, but not to targets, and nothing is put off or taken up. -/
def elsewhere (f : World → World) (w : World) : World :=
  { f w with debugger := { (f w).debugger with
    targets := w.debugger.targets, nextTarget := w.debugger.nextTarget, pool := w.debugger.pool } }

/-- Any number of requests and workers, access by access, and anything that happens around them. -/
def rush : Ensemble World Call Place (World → World) where
  start := Place.first
  step _ p w := p.next w
  around := elsewhere

/-- These are the requests and the workers as they run. -/
theorem play_rush (start : World) (schedule : Nat → Ensemble.Turn Call (World → World)) (n : Nat) :
    (Ensemble.ofWork World.holds Call.work elsewhere).play start schedule n
      = (rush.play start schedule n).told fun _ p => p.work := by
  have hwork : Call.work = fun call => (rush.start call).work := funext fun call => (Place.work_first call).symm
  rw [hwork]
  exact Ensemble.play_followed (x := rush) (fun _ p => p.work) (fun _ p w => p.tick_work w) start schedule n

end Switchboard.Debug.Ahead
