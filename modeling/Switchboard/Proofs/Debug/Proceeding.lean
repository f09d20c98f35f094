import Switchboard.Debug.Running
import Switchboard.Proofs.Debug.Synchronizing
import Switchboard.Proofs.Debug.Touches

/-!
# Work on sessions and targets, access by access

All work on sessions and targets that are there is made of few kinds of accesses: those of calls on a target and of
sending breakpoints, an event of an adapter, the end of a target, and what happens to the table of sessions.

* `Running.AllowedCalls`: a relation allows each of these kinds, but for events of adapters;
* `AllowedCalls.shutdown`, `evaluateExpression` and so on: what such a relation then allows;
* `Running.Allowed`: it allows events and what follows them as well; `Allowed.handleEvent`;
* `AllowedPursuits`: it allows what a run does as well; `AllowedPursuits.pursuing`, `control`: and so all of it;
* `AllowedRuns`: it allows all of this.

What brings a session or a target is not among them: a claim, and the two accesses by which a session is inserted.
-/

namespace Switchboard.Debug.Running

/-- Work on sessions and targets that are there is allowed, but for events of adapters. -/
structure AllowedCalls (R : World → World → Prop) : Prop extends Sync.Allowed R where
  touches : ∀ {id : Nat} {names : List String} {w w' : World}, (∀ name ∈ Target.launchings, name ∉ names) →
    Target.Touches id names w w' → R w w'
  ends : ∀ (w : World) (id : Nat), R w (w.changeTarget id Target.terminate)
  forget : ∀ (w : World) (s : SessionId), R w { w with debugger := w.debugger.forget s }
  clear : ∀ w : World, R w { w with debugger := { w.debugger with current := [] } }

/-- Work on sessions and targets that are there is allowed. -/
structure Allowed (R : World → World → Prop) : Prop extends AllowedCalls R where
  event : ∀ (w : World) (s : SessionId) (e : Channel.Event), R w (w.applyDebugEvent s e).2
  putOff : ∀ (w : World) (target : Nat) (threads : List Int), R w (w.schedulePrefetch target threads)

/-- What a run does once it has claimed its target is allowed as well, but not events. -/
structure AllowedPursuits (R : World → World → Prop) : Prop extends AllowedCalls R where
  launches : ∀ {id : Nat} {names : List String} {w w' : World}, Target.Touches id names w w' → R w w'
  introduces : ∀ (w : World) (n : Network), Network.Steady w.net n → R w { w with net := n }

/-- All that was said is allowed. -/
structure AllowedRuns (R : World → World → Prop) : Prop extends toProceeding : Allowed R, AllowedPursuits R

/-- What is left of a run that has claimed its target. -/
def pursuing (root : Option Path) (target : Target) : DebugWork Nat := do
  let session ← Target.sessionOf target.id
  match ← Attempt.ofTask (World.call session.introduce).outcome with
  | .ok () => do
    Target.start target.id root
    return target.id
  | .error e => do
    Attempt.ofTask (Target.markTerminated target.id)
    throw e

namespace AllowedCalls

variable {R : World → World → Prop}

/-! ## Targets -/

/-- Calls on a target that launch nothing. -/
lemma target (h : AllowedCalls R) {α : Type} {id : Nat} {names : List String} {a : DebugWork α}
    (hnames : ∀ name ∈ Target.launchings, name ∉ names) (ha : Attempt.Within (Target.Touches id names) a) :
    Attempt.Within R a :=
  Task.Within.mono (fun _ _ => h.touches hnames) ha

lemma requestAs (h : AllowedCalls R) {α : Type} (id : Nat) (shape : Json.Shape α) (command : String) (arguments : Json)
    (hcommand : ∀ name ∈ Target.launchings, name ∉ [command]) :
    Attempt.Within R (Target.requestAs id shape command arguments) :=
  h.target hcommand (Target.within_requestAs shape arguments (List.mem_singleton_self command))

lemma markTerminated (h : AllowedCalls R) (id : Nat) : (Target.markTerminated id).Within R := .modify fun w => h.ends w id

lemma withTarget (h : AllowedCalls R) {α : Type} (id : Nat) {work : DebugWork α} (hwork : Attempt.Within R work) :
    Attempt.Within R (Running.withTarget id work) := by
  refine .bind (.ofTask (.view h.refl)) ?_
  intro known
  split
  · exact hwork
  · exact .throw _

/-! ## Sessions -/

lemma close (h : AllowedCalls R) (s : SessionId) : (Running.close s).Within R := by
  refine .andThen (.view h.refl) ?_
  intro session
  exact h.onNet (session.within_civil_shutdown (by decide))

lemma retire (h : AllowedCalls R) (s : SessionId) : (Running.retire s).Within R := by
  refine .andThen (t := Task.await _) trivial ?_
  intro _
  refine .andThen (.modify fun w => h.forget w s) ?_
  intro _
  exact h.close s

lemma configure (h : AllowedCalls R) (s : SessionId) : (Running.configure s).Within R := by
  refine .andThen (h.everything s) ?_
  intro _
  refine .andThen (.view h.refl) ?_
  intro session
  exact .andThen (h.call (session.within_civil_finishConfiguration (by decide))) fun _ => trivial

/-- A session is gone. -/
lemma sessionClosed (h : AllowedCalls R) (s : SessionId) : (Running.sessionClosed s).Within R := by
  have hforgets : ((do
      Task.await .table
      Task.modify fun w => { w with debugger := w.debugger.forget s }) : Task Wait World Unit).Within R :=
    .andThen (t := Task.await _) trivial fun _ => .modify fun w => h.forget w s
  refine .andThen (.view h.refl) ?_
  intro live
  cases live with
  | none => exact hforgets
  | some t => exact .andThen (h.markTerminated t.id) fun _ => hforgets

/-- Everything ends. -/
lemma shutdown (h : AllowedCalls R) : Running.shutdown.Within R := by
  refine .andThen (t := Task.await _) trivial ?_
  intro _
  refine .andThen (.act h.clear) ?_
  intro sessions
  refine .andThen (.forEach h.close sessions) ?_
  intro _
  refine .andThen (.view h.refl) ?_
  intro targets
  exact .forEach h.markTerminated targets

/-! ## Inspection -/

lemma prefetch (h : AllowedCalls R) (job : Deferred.Job Prefetch) : (Running.prefetch job).Within R := by
  refine .andThen (.view h.refl) ?_
  intro now
  refine .andThen (t := Task.await _) trivial ?_
  intro _
  refine .andThen (.view h.refl) ?_
  intro stamp
  split
  · exact .andThen (h.target Target.not_mem_questions (Target.within_stack _)) fun _ => trivial
  · exact trivial

lemma threads (h : AllowedCalls R) (id : Nat) : Attempt.Within R (Running.threads id) := by
  have hlook : ∀ {α : Type} (f : Target → α), Attempt.Within R (Target.look id f) := fun f => .ofTask (.view h.refl)
  refine h.withTarget id ?_
  refine .bind (hlook _) ?_
  intro state
  split
  · refine .bind (.ofTask (h.target Target.not_mem_questions Target.within_refreshThreads)) ?_
    intro outcome
    cases outcome with
    | ok l => exact .pure l
    | error e => exact hlook _
  · exact hlook _

lemma children (h : AllowedCalls R) (id : Nat) (reference : Int) : Attempt.Within R (Target.children id reference) := by
  unfold Target.children
  split
  · exact .pure []
  · have hfeatures : Attempt.Within (Target.Touches id []) (Target.features id) := Target.within_features
    refine .bind (h.target (by decide) hfeatures) ?_
    intro f
    exact .bind (h.requestAs id _ _ _ (by decide)) fun body => .pure _

lemma evaluateIn (h : AllowedCalls R) (target index : Nat) (expression : String) (threads : List Int) :
    Attempt.Within R (Running.evaluateIn target index expression threads) := by
  induction threads with
  | nil => exact .pure none
  | cons thread rest ih =>
    rw [Running.evaluateIn]
    refine .bind (.ofTask (.andThen (h.target Target.not_mem_questions (Target.within_stack thread)) ?_)) ?_
    · intro outcome
      cases outcome with
      | ok frames => exact trivial
      | error e => exact trivial
    intro frame
    cases frame with
    | none => exact ih
    | some f => exact .bind (h.requestAs target _ _ _ (by decide)) fun body => .pure _

lemma evaluateExpression (h : AllowedCalls R) (project : Option String) (expression : String) (thread : Option Int)
    (frame : Option Nat) : Attempt.Within R (Running.evaluateExpression project expression thread frame) := by
  have hamong : ∀ (index : Nat) (targets : List Nat),
      Attempt.Within R (evaluateAmong thread index expression targets) := by
    intro index targets
    induction targets with
    | nil => exact .throw _
    | cons target rest ih =>
      rw [evaluateAmong]
      refine .bind (.ofTask (.view h.refl)) ?_
      intro suspended
      refine .bind (h.evaluateIn target index expression _) ?_
      intro found
      cases found with
      | none => exact ih
      | some body => exact .pure body
  refine .bind (.ofTask (.view h.refl)) ?_
  intro running
  exact hamong _ running

end AllowedCalls

/-- An event of an adapter is taken up. -/
lemma Allowed.handleEvent {R : World → World → Prop} (h : Allowed R) (s : SessionId) (e : Channel.Event) :
    (Running.handleEvent s e).Within R := by
  unfold Running.handleEvent
  split
  · exact h.configure s
  · refine .andThen (.act fun w => h.event w s e) ?_
    intro effect
    split
    · exact .modify fun w => h.putOff w _ _
    · exact h.retire s
    · exact trivial

/-! ## Runs -/

namespace AllowedPursuits

variable {R : World → World → Prop}

lemma control (h : AllowedPursuits R) (id : Nat) (call : Target.Course.Call) : Attempt.Within R (call.work id) :=
  Task.Within.mono (fun _ _ => h.launches) call.within_work

/-- A run pursues what it has claimed. -/
lemma pursuing (h : AllowedPursuits R) (root : Option Path) (target : Target) :
    Attempt.Within R (Running.pursuing root target) := by
  refine .bind (.ofTask (.view h.refl)) ?_
  intro session
  refine .bind (.ofTask (.zoom h.introduces session.within_steady_introduce)) ?_
  intro outcome
  cases outcome with
  | ok _ =>
    exact .bind (Task.Within.mono (fun _ _ => h.launches) (Target.within_start root)) fun _ => .pure target.id
  | error e => exact .bind (.ofTask (h.markTerminated target.id)) fun _ => .throw e

end AllowedPursuits

end Switchboard.Debug.Running
