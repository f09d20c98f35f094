import Switchboard.Proofs.Concurrency.Ensemble
import Switchboard.Proofs.Debug.Fetch
import Switchboard.Proofs.Debug.Threads
import Switchboard.Proofs.Debug.Touches

/-!
# Calls that need the frames of a thread, access by access

* `Call`: frames are asked for, looked into, evaluated in or fetched ahead;
* `Place`: how far a call is, with the fetches of frames stage by stage; `Place.work`, `Place.next`, `tick_work`;
* `Elsewhere`, `gathering`: any number of calls at once, and anything that leaves one thread as it is;
* `play_gathering`: these are the calls as they run;
* `Place.Modest`: besides its fetches a call asks for no frames and keeps none;
* `next_tends`, `next_hands`: what a step does to a thread, and where a request for frames is handed over.
-/

namespace Switchboard.Debug.Onlookers

open Target (Fetch.Stage)

/-! ## Calls -/

/-- What needs the frames of a thread. -/
inductive Call where
  | stack (id : Nat) (thread : Int)
  /-- The variables of a frame. -/
  | contents (id : Nat) (thread : Int) (index : Nat)
  | evaluate (project : Option String) (expression : String) (thread : Option Int) (frame : Option Nat)
  | prefetch (job : Deferred.Job Prefetch)

/-- What is done for a call. -/
def Call.work : Call → Task Wait World Unit
  | stack id thread => (Target.stack id thread).outcome.andThen fun _ => .done ()
  | contents id thread index => (Target.frameVariables id thread index).outcome.andThen fun _ => .done ()
  | evaluate project expression thread frame =>
    (Running.evaluateExpression project expression thread frame).outcome.andThen fun _ => .done ()
  | prefetch job => Running.prefetch job

/-- What is left to do for the variables of a frame when the frames are known. -/
def opening (id : Nat) (thread : Int) (index : Nat) (frames : List Stack.Frame) : DebugWork (List Stack.Variable) := do
  let stop ← Target.demand id fun t => t.currentStop thread
  let frame ← Attempt.ofExcept (Target.frameAt thread index frames)
  match frame.contents with
  | some l => return l
  | none =>
    if frame.synthetic then return []
    else do
      let rules := Rules.ofFeatures (← Target.features id)
      let body ← Target.requestAs id ScopesBody.shape "scopes" (ScopesArguments.toJson { frameId := frame.id })
      let scopes := body.scopes.map rules.scope
      let l ← Target.expandScopes id rules scopes
      Target.change id fun t => (t.keepContents thread stop index scopes l, [])
      return l

/-- The same, where frames may be missing. -/
def opened (id : Nat) (thread : Int) (index : Nat) : Except Fault (List Stack.Frame) → Task Wait World Unit
  | .ok frames => (opening id thread index frames).outcome.andThen fun _ => .done ()
  | .error _ => .done ()

/-- The targets in which an expression can be evaluated. -/
def candidates (project : Option String) (w : World) : List Nat :=
  (w.debugger.targets.filter fun t => t.state = .running && project.all (· = t.launch.project)).map (·.id)

/-- The suspended threads of a target, or the one that is meant. -/
def suspended (target : Nat) (thread : Option Int) (w : World) : List Int :=
  (w.target target).suspendedThreads.filter fun id => thread.all (· = id)

/-! ## Places -/

/-- How far a call is. -/
inductive Place where
  /-- This is left to do, and no frames are asked for in it. -/
  | aside (work : Task Wait World Unit)
  /-- Before something is looked up. -/
  | view (next : World → Place)
  | await (on : Wait) (rest : Place)
  /-- The frames of a thread are being fetched, and the call goes on with the outcome. -/
  | fetch (id : Nat) (thread : Int) (k : Fetch.Stage) (going : k.Going) (rest : Except Fault (List Stack.Frame) → Place)

namespace Place

/-- What is left to do. -/
def work : Place → Task Wait World Unit
  | aside work => work
  | view next => .access id fun w => (next w).work
  | await on rest => .wait on rest.work
  | fetch id thread k _ rest => (k.work id thread).andThen fun result => (rest result).work

/-- The place to which a stage of a fetch leads: where the fetch is over the call goes on with its outcome. -/
def onward (id : Nat) (thread : Int) (rest : Except Fault (List Stack.Frame) → Place) (k : Fetch.Stage)
    (proper : k.Proper) : Place :=
  match hk : k.result? with
  | some result => rest result
  | none => fetch id thread k ⟨proper, hk⟩ rest

/-- One step, if there is one. -/
def next (w : World) : Place → Option (Place × World)
  | aside work => (work.tick? World.holds w).map fun r => (aside r.1, r.2)
  | view next => some (next w, w)
  | await on rest => if World.holds on w then some (rest, w) else none
  | fetch id thread k _ rest => (k.next id thread w).pmap (fun r proper => (onward id thread rest r.1 proper, r.2))
    fun _ hr => Target.Fetch.proper_next hr

/-- Evaluate in the first of some threads that has the frame, or go on. -/
def evaluateIn (target index : Nat) (expression : String) (otherwise : Place) : List Int → Place
  | [] => otherwise
  | thread :: rest => fetch target thread .checking .checking fun
    | .ok frames =>
      match frames[index]? with
      | some f => aside ((Target.evaluate target f.id expression).outcome.andThen fun _ => .done ())
      | none => evaluateIn target index expression otherwise rest
    | .error _ => evaluateIn target index expression otherwise rest

/-- Evaluate in the first of some targets that has a suspended thread with the frame. -/
def evaluateAmong (thread : Option Int) (index : Nat) (expression : String) : List Nat → Place
  | [] => aside (.done ())
  | target :: rest => view fun w =>
    evaluateIn target index expression (evaluateAmong thread index expression rest) (suspended target thread w)

/-- Where a call begins. -/
def first : Call → Place
  | .stack id thread => fetch id thread .checking .checking fun _ => aside (.done ())
  | .contents id thread index => fetch id thread .checking .checking fun result => aside (opened id thread index result)
  | .evaluate project expression thread frame =>
    view fun w => evaluateAmong thread (frame.getD 0) expression (candidates project w)
  | .prefetch job => view fun w => await (.time (w.net.now + job.delay.getD 0)) <| view fun w =>
    if (w.target job.work.target).stamp = job.version then
      fetch job.work.target job.work.thread .checking .checking fun _ => aside (.done ())
    else aside (.done ())

lemma work_onward (id : Nat) (thread : Int) (rest : Except Fault (List Stack.Frame) → Place) (k : Fetch.Stage)
    (proper : k.Proper) :
    (onward id thread rest k proper).work = (k.work id thread).andThen fun result => (rest result).work := by
  unfold onward
  split
  · next result hk =>
    obtain rfl := Target.Fetch.eq_ended_of_result? hk
    rfl
  · rfl

/-- A step leads to what is left at the next place. -/
theorem tick_work (p : Place) (w : World) :
    p.work.tick? World.holds w = (p.next w).map fun r => (r.1.work, r.2) := by
  cases p with
  | aside work =>
    rw [next, Option.map_map]
    exact (congrFun Option.map_id _).symm
  | view next => rfl
  | await on rest =>
    show (if World.holds on w then some (rest.work, w) else none) = _
    rw [next]
    split <;> rfl
  | fetch id thread k going rest =>
    rw [work, next, Task.tick?_andThen (Target.Fetch.Stage.result?_work going.proper going.ne_ended),
      Target.Fetch.tick_work going.proper, Option.map_map, Option.map_pmap]
    simp only [work_onward]
    exact (Option.pmap_eq_map _ (fun r : Fetch.Stage × World =>
      ((r.1.work id thread).andThen fun result => (rest result).work, r.2)) _ _).symm

/-- How a look through some threads goes on. -/
def concluding (otherwise : Task Wait World Unit) : Except Fault (Option EvaluateBody) → Task Wait World Unit
  | .ok none => otherwise
  | _ => .done ()

lemma work_evaluateIn (target index : Nat) (expression : String) (otherwise : Place) (threads : List Int) :
    (evaluateIn target index expression otherwise threads).work
      = (Running.evaluateIn target index expression threads).outcome.andThen (concluding otherwise.work) := by
  induction threads with
  | nil => rfl
  | cons thread rest ih =>
    show (Target.stack target thread).outcome.andThen _ = (((Target.stack target thread).outcome.andThen _).andThen _
      |>.andThen _).andThen _
    simp only [Task.andThen_assoc]
    congr 1
    funext result
    cases result with
    | error e => exact ih
    | ok frames =>
      dsimp only
      cases hframe : frames[index]? with
      | none => exact ih
      | some f =>
        show (Target.evaluate target f.id expression).outcome.andThen _
          = ((Target.evaluate target f.id expression).outcome.andThen _).andThen _
        rw [Task.andThen_assoc]
        congr 1
        funext result
        cases result <;> rfl

lemma work_evaluateAmong (thread : Option Int) (index : Nat) (expression : String) (targets : List Nat) :
    (evaluateAmong thread index expression targets).work
      = (Running.evaluateAmong thread index expression targets).outcome.andThen fun _ => .done () := by
  induction targets with
  | nil => rfl
  | cons target rest ih =>
    show Task.access id (fun w => (evaluateIn target index expression (evaluateAmong thread index expression rest)
      (suspended target thread w)).work) = _
    simp only [work_evaluateIn]
    show _ = Task.access id fun w =>
      ((Running.evaluateIn target index expression (suspended target thread w)).outcome.andThen _).andThen _
    simp only [Task.andThen_assoc]
    congr 1
    funext w
    congr 1
    funext result
    match result with
    | .ok none => exact ih
    | .ok (some body) => rfl
    | .error e => rfl

theorem work_first (call : Call) : (first call).work = call.work := by
  cases call with
  | stack id thread => rfl
  | contents id thread index =>
    show (Target.stack id thread).outcome.andThen _ = ((Target.stack id thread).outcome.andThen _).andThen _
    rw [Task.andThen_assoc]
    congr 1
    funext result
    cases result <;> rfl
  | evaluate project expression thread frame =>
    show Task.access id (fun w => (evaluateAmong thread (frame.getD 0) expression (candidates project w)).work) = _
    simp only [work_evaluateAmong]
    rfl
  | prefetch job =>
    have hchecked : ∀ w : World, work (if (w.target job.work.target).stamp = job.version then
          fetch job.work.target job.work.thread .checking .checking fun _ => aside (.done ())
        else aside (.done ()))
      = if (w.target job.work.target).stamp = job.version then
          (Target.stack job.work.target job.work.thread).outcome.andThen fun _ => .done ()
        else .done () := fun w => by split <;> rfl
    show Task.access id (fun w => Task.wait (.time (w.net.now + job.delay.getD 0)) (.access id fun w => work _)) = _
    simp only [hchecked]
    rfl

end Place

/-! ## Runs -/

/-- Something else happens, and a thread of a target stays as it is. -/
structure Elsewhere (id : Nat) (thread : Int) where
  act : World → World
  spares : ∀ w, ((act w).target id).thread? thread = (w.target id).thread? thread

/-- Any number of calls, access by access, and anything else that leaves a thread of a target as it is. -/
def gathering (id : Nat) (thread : Int) : Ensemble World Call Place (Elsewhere id thread) where
  start := Place.first
  step _ p w := p.next w
  around e w := e.act w

/-- These are the calls as they run. -/
theorem play_gathering (id : Nat) (thread : Int) (start : World)
    (schedule : Nat → Ensemble.Turn Call (Elsewhere id thread)) (n : Nat) :
    (Ensemble.ofWork World.holds Call.work fun (e : Elsewhere id thread) w => e.act w).play start schedule n
      = ((gathering id thread).play start schedule n).told fun _ p => p.work := by
  have hwork : Call.work = fun call => ((gathering id thread).start call).work :=
    funext fun call => (Place.work_first call).symm
  rw [hwork]
  exact Ensemble.play_followed (x := gathering id thread) (fun _ p => p.work) (fun _ p w => p.tick_work w) start schedule n

/-! ## What is done besides fetches -/

/-- What is asked for besides frames. -/
def questions : List String := ["scopes", "variables", "evaluate"]

/-- An access that has nothing to do with frames but for their contents: something else is asked, or contents are kept. -/
inductive Furnishes (w : World) : World → Prop where
  | speech (c : ChannelId) (n : Network) (said : Network.Says c questions w.net n) : Furnishes w { w with net := n }
  | contents (id : Nat) (thread : Int) (stop index : Nat) (scopes : List Stack.Scope) (l : List Stack.Variable) :
    Furnishes w (w.changeTarget id fun t => (t.keepContents thread stop index scopes l, []))

lemma speaks_furnishes : Target.Speaks questions Furnishes := fun _ c n said => .speech c n said

lemma within_opening (id : Nat) (thread : Int) (index : Nat) (frames : List Stack.Frame) :
    Attempt.Within Furnishes (opening id thread index frames) := by
  refine .bind (speaks_furnishes.demand _) ?_
  intro stop
  refine .bind (.ofExcept _) ?_
  intro frame
  split
  · exact .pure _
  · split
    · exact .pure _
    · refine .bind speaks_furnishes.features ?_
      intro f
      refine .bind (speaks_furnishes.requestAs _ _ (by decide)) ?_
      intro body
      refine .bind (speaks_furnishes.expandScopes (by decide) _ _) ?_
      intro l
      exact .bind (.ofTask (.modify fun _ => .contents id thread stop index _ l)) fun _ => .pure _

namespace Place

/-- If a fetch is due it has not begun yet. -/
def AtStart : Place → Prop
  | fetch _ _ k _ _ => k = .checking
  | _ => True

/-- Besides its fetches, each of which begins at the start, the call asks for no frames and keeps none. -/
def Modest : Place → Prop
  | aside work => work.Within Furnishes
  | view next => ∀ w, (next w).AtStart ∧ (next w).Modest
  | await _ rest => rest.AtStart ∧ rest.Modest
  | fetch _ _ _ _ rest => ∀ result, (rest result).AtStart ∧ (rest result).Modest

lemma modest_evaluateIn (target index : Nat) (expression : String) {otherwise : Place}
    (h : otherwise.AtStart ∧ otherwise.Modest) (threads : List Int) :
    (evaluateIn target index expression otherwise threads).AtStart ∧
      (evaluateIn target index expression otherwise threads).Modest := by
  induction threads with
  | nil => exact h
  | cons thread rest ih =>
    refine ⟨rfl, fun result => ?_⟩
    cases result with
    | error e => exact ih
    | ok frames =>
      dsimp only
      split
      · exact ⟨trivial, .andThen (speaks_furnishes.requestAs _ _ (by decide)) fun _ => trivial⟩
      · exact ih

lemma modest_evaluateAmong (thread : Option Int) (index : Nat) (expression : String) (targets : List Nat) :
    (evaluateAmong thread index expression targets).AtStart ∧
      (evaluateAmong thread index expression targets).Modest := by
  induction targets with
  | nil => exact ⟨trivial, trivial⟩
  | cons target rest ih => exact ⟨trivial, fun w => modest_evaluateIn target index expression ih _⟩

lemma modest_first (call : Call) : (first call).AtStart ∧ (first call).Modest := by
  cases call with
  | stack id thread => exact ⟨rfl, fun _ => ⟨trivial, trivial⟩⟩
  | contents id thread index =>
    refine ⟨rfl, fun result => ⟨trivial, ?_⟩⟩
    cases result with
    | ok frames => exact .andThen (within_opening id thread index frames) fun _ => trivial
    | error e => exact trivial
  | evaluate project expression thread frame => exact ⟨trivial, fun w => modest_evaluateAmong thread _ expression _⟩
  | prefetch job =>
    refine ⟨trivial, fun w => ⟨trivial, trivial, fun w => ?_⟩⟩
    dsimp only
    split
    · exact ⟨rfl, fun _ => ⟨trivial, trivial⟩⟩
    · exact ⟨trivial, trivial⟩

variable {id : Nat} {thread : Int} {p p' : Place} {w w' : World}

/-- A fetch goes on, or the call begins with what comes next. -/
lemma onward_cases (rest : Except Fault (List Stack.Frame) → Place) (k : Fetch.Stage) (proper : k.Proper) :
    (∃ result, k.result? = some result ∧ onward id thread rest k proper = rest result) ∨
      ∃ going, onward id thread rest k proper = fetch id thread k going rest := by
  unfold onward
  split
  · next result hk => exact .inl ⟨result, hk, rfl⟩
  · next hk => exact .inr ⟨⟨proper, hk⟩, rfl⟩

/-- A step of a fetch, and where the call is then. -/
lemma next_fetch {k : Fetch.Stage} {going : k.Going} {rest : Except Fault (List Stack.Frame) → Place}
    (h : (fetch id thread k going rest).next w = some (p', w')) :
    ∃ k' proper, k.next id thread w = some (k', w') ∧ p' = onward id thread rest k' proper := by
  rw [next] at h
  obtain ⟨⟨k', v⟩, hv, hnext, heq⟩ := Option.pmap_eq_some_iff.mp h
  obtain ⟨rfl, rfl⟩ := Prod.mk.inj heq
  exact ⟨k', _, hnext, rfl⟩

lemma next_of_fetch {k k' : Fetch.Stage} {going : k.Going} {rest : Except Fault (List Stack.Frame) → Place}
    (h : k.next id thread w = some (k', w')) : (fetch id thread k going rest).next w
      = some (onward id thread rest k' (Target.Fetch.proper_next h), w') := by
  simp only [next, h, Option.pmap_some]

lemma Modest.next (h : p.Modest) (hnext : p.next w = some (p', w')) : p'.Modest := by
  cases p with
  | aside work =>
    obtain ⟨⟨work', v⟩, htick, heq⟩ := Option.map_eq_some_iff.mp hnext
    obtain ⟨rfl, -⟩ := Prod.mk.inj heq
    exact (Task.Within.tick h htick).2
  | view next =>
    obtain ⟨rfl, -⟩ := Prod.mk.inj (Option.some.inj hnext)
    exact (h w).2
  | await on rest =>
    simp only [Place.next] at hnext
    split at hnext
    · obtain ⟨rfl, -⟩ := Prod.mk.inj (Option.some.inj hnext)
      exact h.2
    · cases hnext
  | fetch i t k going rest =>
    obtain ⟨k', proper, -, rfl⟩ := next_fetch hnext
    rcases onward_cases rest k' proper with ⟨result, -, heq⟩ | ⟨going', heq⟩
    · rw [heq]
      exact (h result).2
    · rw [heq]
      exact h

end Place

/-! ## What becomes of a thread -/

/-- A thread stays as it is, but for the contents of a frame. -/
inductive Tends (id : Nat) (thread : Int) (w w' : World) : Prop where
  | same (same : (w'.target id).thread? thread = (w.target id).thread? thread)
  | fills (x : DebugThread) (frames : List Stack.Frame) (index : Nat) (scopes : List Stack.Scope) (l : List Stack.Variable)
      (there : (w.target id).thread? thread = some x) (kept : x.frames = some frames)
      (filled : (w'.target id).thread? thread = some { x with
        frames := some (frames.modify index fun f => { f with scopes := some scopes, contents := some l }) })

section Steps

variable {id : Nat} {thread : Int} {p p' : Place} {w w' : World}

lemma tends_furnishes (hid : 0 < id) (hpresent : (w.debugger.target? id).isSome = true) (h : Furnishes w w') :
    Tends id thread w w' := by
  cases h with
  | speech c n said => exact .same rfl
  | contents changed other stop index scopes l =>
    by_cases hchanged : changed = id
    · subst hchanged
      have htarget := Target.target_changeTarget (f := fun t => (t.keepContents other stop index scopes l, [])) hpresent
        (Target.id_keepContents ..)
      rcases Target.thread?_keepContents (w.target changed) other stop index scopes l thread with hsame |
        ⟨-, x, frames, there, kept, -, filled⟩
      · exact .same (by rw [htarget, hsame])
      · exact .fills x frames index scopes l there kept (by rw [htarget, filled])
    · refine .same ?_
      rw [Target.target_changeTarget_of_ne hid hchanged (Target.id_keepContents ..)]

/-- A step of a call leaves the thread as it is but for contents, or it keeps frames. -/
theorem next_tends (hid : 0 < id) (hpresent : (w.debugger.target? id).isSome = true) (hp : p.Modest)
    (h : p.next w = some (p', w')) : Tends id thread w w' ∨ ∃ stop frames going rest,
      p = .fetch id thread (.keeping stop frames) going rest ∧
      w' = w.changeTarget id fun t => (t.keepFrames thread stop frames, []) := by
  cases p with
  | aside work =>
    obtain ⟨⟨work', v⟩, htick, heq⟩ := Option.map_eq_some_iff.mp h
    obtain ⟨-, rfl⟩ := Prod.mk.inj heq
    rcases (Task.Within.tick hp htick).1 with hfurnishes | rfl
    · exact .inl (tends_furnishes hid hpresent hfurnishes)
    · exact .inl (.same rfl)
  | view next =>
    obtain ⟨-, rfl⟩ := Prod.mk.inj (Option.some.inj h)
    exact .inl (.same rfl)
  | await on rest =>
    simp only [Place.next] at h
    split at h
    · obtain ⟨-, rfl⟩ := Prod.mk.inj (Option.some.inj h)
      exact .inl (.same rfl)
    · cases h
  | fetch i t k going rest =>
    obtain ⟨k', proper, hnext, -⟩ := Place.next_fetch h
    rcases Target.Fetch.debugger_next hnext with hsame | ⟨stop, frames, rfl, rfl⟩
    · exact .inl (.same (by rw [World.target, hsame, World.target]))
    · -- frames of another thread or target are none of this one
      by_cases hi : i = id
      · subst hi
        rcases Target.thread?_keepFrames (w.target i) t stop frames thread with hsame | ⟨rfl, -⟩
        · refine .inl (.same ?_)
          rw [Target.target_changeTarget hpresent (Target.id_keepFrames ..), hsame]
        · exact .inr ⟨stop, frames, going, rest, rfl, rfl⟩
      · refine .inl (.same ?_)
        rw [Target.target_changeTarget_of_ne hid hi (Target.id_keepFrames ..)]

/-- A request for frames is handed over where a fetch posts it. -/
theorem next_hands (hp : p.Modest) (h : p.next w = some (p', w')) (hhands : Network.Hands ["stackTrace"] w.net w'.net) :
    ∃ id thread stop channel number ticket going rest,
      p = .fetch id thread (.requesting stop channel (.posting number ticket)) going rest ∧
      w.net.updateWith channel (fun ch => ch.ask number (Target.Fetch.question thread).method
        (Target.Fetch.question thread).params) = (.ok (), w'.net) := by
  cases p with
  | aside work =>
    obtain ⟨⟨work', v⟩, htick, heq⟩ := Option.map_eq_some_iff.mp h
    obtain ⟨-, rfl⟩ := Prod.mk.inj heq
    rcases (Task.Within.tick hp htick).1 with hfurnishes | rfl
    · cases hfurnishes with
      | speech c n said =>
        obtain ⟨name, hname, hmem⟩ := said.mem_of_hands hhands
        obtain rfl := List.mem_singleton.mp hname
        exact absurd hmem (by decide)
      | contents => exact absurd hhands (Network.not_hands_refl _ _)
    · exact absurd hhands (Network.not_hands_refl _ _)
  | view next =>
    obtain ⟨-, rfl⟩ := Prod.mk.inj (Option.some.inj h)
    exact absurd hhands (Network.not_hands_refl _ _)
  | await on rest =>
    simp only [Place.next] at h
    split at h
    · obtain ⟨-, rfl⟩ := Prod.mk.inj (Option.some.inj h)
      exact absurd hhands (Network.not_hands_refl _ _)
    · cases h
  | fetch i t k going rest =>
    obtain ⟨k', proper, hnext, -⟩ := Place.next_fetch h
    cases k with
    | requesting stop channel k =>
      obtain ⟨⟨k', net⟩, hstep, hr⟩ := Option.map_eq_some_iff.mp hnext
      obtain ⟨-, rfl⟩ := Prod.mk.inj hr
      -- of the stages of a request only one writes to the channel
      obtain ⟨f, rfl, -, -, ⟨hsame, -⟩ | ⟨number, ticket, rfl, -⟩⟩ := Network.Request.next_changes hstep
      · refine absurd hhands (Network.not_hands_of_eq _ fun d => ?_)
        rcases Network.channel_update_cases w.net channel f d with hd | ⟨rfl, hd⟩
        · exact congrArg Channel.outgoing hd
        · exact (congrArg Channel.outgoing hd).trans hsame
      · obtain ⟨rfl, hasked⟩ := Network.Request.posting_of_next_timing hstep
        exact ⟨i, t, stop, channel, number, ticket, going, rest, rfl, hasked⟩
    | checking | looking stop =>
      simp only [Fetch.Stage.next] at hnext
      split at hnext <;>
      · obtain ⟨-, rfl⟩ := Prod.mk.inj (Option.some.inj hnext)
        exact absurd hhands (Network.not_hands_refl _ _)
    | asking stop | placing stop body | keeping stop frames =>
      obtain ⟨-, rfl⟩ := Prod.mk.inj (Option.some.inj hnext)
      exact absurd hhands (Network.not_hands_refl _ _)
    | ended result => cases hnext

end Steps

end Switchboard.Debug.Onlookers
