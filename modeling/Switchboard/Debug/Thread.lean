import Switchboard.Debug.Stack

/-!
# Threads of a debuggee

* `DebugThread`: a thread, why it stopped, and its frames once they were fetched;
* `DebugThread.suspend`, `resume`, `terminate`: transitions;
* `DebugThread.storeFrames`, `storeContents`: results of a fetch, taken only if the thread has not moved on
  since the fetch began.

Every stop has a number of its own, so a fetch that began before a later stop can be told from one after it.
-/

namespace Switchboard.Debug

/-- What a thread does. -/
inductive DebugThread.State where
  | running
  | suspended
  | terminated
deriving DecidableEq, Repr, Inhabited

/-- The name of a state. -/
def DebugThread.State.name : DebugThread.State → String
  | running => "running"
  | suspended => "suspended"
  | terminated => "terminated"

/-- A thread. -/
structure DebugThread where
  id : Int
  name : String
  state : DebugThread.State := .running
  /-- Why it stopped last. -/
  reason : Option String := none
  description : Option String := none
  /-- The number of its last stop. -/
  stop : Nat := 0
  /-- Its frames, once fetched during this stop. -/
  frames : Option (List Stack.Frame) := none
deriving DecidableEq, Repr, Inhabited

namespace DebugThread

/-- A thread that was only met in an event. -/
def unnamed (id : Int) : DebugThread := { id, name := "Thread #" ++ toString id }

/-- Is it suspended? -/
def isSuspended (t : DebugThread) : Bool := t.state = .suspended

/-- A stop. -/
def suspend (t : DebugThread) (reason : String) (description : Option String) : DebugThread :=
  { t with state := .suspended, reason := some reason, description, stop := t.stop + 1, frames := none }

/-- It goes on, unless it has ended. -/
def resume (t : DebugThread) : DebugThread :=
  if t.state = .terminated then t
  else { t with state := .running, reason := none, description := none, frames := none }

/-- It ends. -/
def terminate (t : DebugThread) : DebugThread := { t with state := .terminated, frames := none }

/-- Is it still in that stop? -/
def isIn (t : DebugThread) (stop : Nat) : Bool := t.isSuspended && t.stop = stop

/-- Keep frames fetched during a stop. Says whether they were kept. -/
def storeFrames (t : DebugThread) (stop : Nat) (frames : List Stack.Frame) : Bool × DebugThread :=
  if t.isIn stop then (true, { t with frames := some frames }) else (false, t)

/-- Keep the scopes and variables of a frame, fetched during a stop. Says whether they were kept. -/
def storeContents (t : DebugThread) (stop index : Nat) (scopes : List Stack.Scope)
    (contents : List Stack.Variable) : Bool × DebugThread :=
  match t.frames with
  | some frames =>
    if t.isIn stop ∧ index < frames.length then
      (true, { t with frames := some (frames.modify index fun f =>
        { f with scopes := some scopes, contents := some contents }) })
    else (false, t)
  | none => (false, t)

/-- What an editor sees of a thread. -/
def toJson (t : DebugThread) : Json :=
  .record [("id", some (.int t.id)), ("name", some t.name), ("state", some t.state.name),
    ("reason", t.reason.map .str), ("description", t.description.map .str),
    ("frame_count", t.frames.map fun f => .nat f.length)]

end DebugThread

end Switchboard.Debug
