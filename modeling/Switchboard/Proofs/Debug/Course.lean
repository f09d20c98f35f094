import Switchboard.Debug.Running
import Switchboard.Proofs.Channel.Exchange
import Switchboard.Proofs.Debug.Requests
import Switchboard.Proofs.Debug.Threads

/-!
# The course of a target

* `Call`, `Turn`, `course`: one target with any number of calls, events and everything around them, in any order
  of single accesses;
* `view`: the run as one of the calls sees it;
* `Deed`: what a call can do to the target.
-/

namespace Switchboard

/-- Is this said of a thread of the target? -/
def Message.isOfThreads (id : Nat) : Message → Bool
  | .debug (.thread target _ _ _ _) => target = id
  | _ => false

/-- Does the action let its thread go on? -/
def Debug.Action.resumes : Debug.Action → Bool
  | .suspend | .terminate => false
  | .resume | .stepInto | .stepOver | .stepReturn | .dropToFrame => true

namespace Debug.Target

/-- What an event of the adapter does to the target and what is told of it. -/
def heard (name : String) (body : Json) (t : Target) : Target × List Note :=
  ((t.process_ name body).1, (t.process_ name body).2.1)

/-- The event loop of a session does to the target on it what the event says. -/
lemma applyDebugEvent_eq {w : World} {s : SessionId} {t : Target} (hlive : w.debugger.liveTarget? s = some t)
    (htarget : w.target t.id = t) (e : Channel.Event) :
    (w.applyDebugEvent s e).2 = w.changeTarget t.id (heard e.name e.body) := by
  simp only [World.applyDebugEvent, hlive, World.changeTarget, htarget, heard]

namespace Course

/-! ## Runs -/

/-- What an editor, or work that was put off, asks of a target. -/
inductive Call where
  | start (root : Option Path)
  | perform (action : Action) (thread : Option Int) (frame : Option Nat)
  | refresh
  | stack (thread : Int)
  | inspect (thread : Int) (index : Nat)

/-- The work of a call. It says whether something was done; what else it gives does not matter here. -/
def Call.work (id : Nat) : Call → DebugWork Bool
  | start root => do
    Target.start id root
    return true
  | perform action thread frame => Target.perform id action thread frame
  | refresh => do
    let _ ← refreshThreads id
    return true
  | stack thread => do
    let _ ← Target.stack id thread
    return true
  | inspect thread index => do
    let _ ← frameVariables id thread index
    return true

/-- The world, and calls with what is left to do of them. -/
structure State where
  world : World
  calls : List (Call × Task Wait World (Except Fault Bool)) := []

/-- Whose turn it is, and what is new. -/
inductive Turn where
  | begins (call : Call)
  /-- A call makes one access, or passes a wait that is over. -/
  | step (i : Nat)
  /-- The adapter says something. -/
  | event (name : String) (body : Json)
  /-- The target ends without the adapter's word. -/
  | ended
  /-- Anything changes, but for the targets, and anything is told, but not of the threads of this one. -/
  | outside (world : World)

variable (id : Nat)

/-- One turn; what is not possible changes nothing. -/
def State.after (s : State) : Turn → State
  | .begins call => { s with calls := s.calls ++ [(call, (call.work id).outcome)] }
  | .step i =>
    match s.calls[i]? with
    | none => s
    | some (call, work) =>
      match work.tick? World.holds s.world with
      | none => s
      | some (work, world) => { world, calls := s.calls.set i (call, work) }
  | .event name body => { s with world := s.world.changeTarget id (heard name body) }
  | .ended => { s with world := s.world.changeTarget id terminate }
  | .outside world =>
    { s with
      world := { world with
        debugger := { world.debugger with targets := s.world.debugger.targets }
        told := s.world.told ++ world.told.filter fun m => !m.isOfThreads id } }

/-- The target. -/
def State.target (s : State) : Target := s.world.target id

/-- The state after `n` turns. -/
def course (start : World) (schedule : Nat → Turn) : Nat → State
  | 0 => { world := start }
  | n + 1 => (course start schedule n).after id (schedule n)

/-- The run as a call sees it. -/
def view (start : World) (schedule : Nat → Turn) (i : Nat) : Viewpoint Wait World where
  holds := World.holds
  state n := (course id start schedule n).world
  turn n := schedule n = .step i

/-! ## Deeds -/

/-- What a call can do to the target. -/
inductive Deed where
  | begins
  | launches
  | fails
  | lists (threads : List ThreadInfo)
  | resumes (thread : Int) (all : Bool) (detail : String)
  | keepsFrames (thread : Int) (stop : Nat) (frames : List Stack.Frame)
  | keepsContents (thread : Int) (stop index : Nat) (scopes : List Stack.Scope) (contents : List Stack.Variable)

/-- What becomes of the target, and what is told of it. -/
def Deed.apply : Deed → Target → Target × List Note
  | begins => fun t => ({ t with state := .launching }, [.target .change { t with state := .launching }])
  | launches => launched
  | fails => launchFailed
  | lists threads => fun t => t.mergeThreads threads
  | resumes thread all detail => fun t => t.applyResume thread all detail
  | keepsFrames thread stop frames => fun t => (t.keepFrames thread stop frames, [])
  | keepsContents thread stop index scopes contents => fun t => (t.keepContents thread stop index scopes contents, [])

/-- A deed leaves the target the same one. -/
lemma Deed.id_apply (deed : Deed) (t : Target) : (deed.apply t).1.id = t.id := by
  cases deed with
  | begins | fails => rfl
  | launches =>
    show (launched t).1.id = t.id
    unfold launched
    split <;> rfl
  | lists threads => exact (steadies_mergeThreads t threads).1
  | resumes thread all detail => exact (steadies_applyResume t thread all detail).1
  | keepsFrames thread stop frames => exact id_keepFrames t thread stop frames
  | keepsContents thread stop index scopes contents => exact id_keepContents t thread stop index scopes contents

end Course

end Debug.Target

end Switchboard
