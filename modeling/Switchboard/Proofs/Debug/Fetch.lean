import Switchboard.Proofs.Debug.Requests

/-!
# The stages of fetching frames

* `Fetch.Stage`: how far a fetch of the frames of a thread got, one stage for each access to the world;
* `Fetch.Stage.work`, `Fetch.Stage.next`: what is left to do at a stage, and one step of it;
* `Fetch.Does`: what one step does to the world;
* `Fetch.tick_work`: a step of `Target.stack` is a step from stage to stage.
-/

namespace Switchboard.Debug.Target.Fetch

/-- What is asked for the frames of a thread. -/
def question (thread : Int) : Network.Request where
  method := "stackTrace"
  params := StackTraceArguments.toJson { threadId := thread, startFrame := some 0 }

/-- What a fetch makes of the outcome of its request. -/
def reading : Except Channel.Fault Json → Except Fault StackTraceBody :=
  Session.reading StackTraceBody.shape "stackTrace"

/-- How far a fetch got. -/
inductive Stage where
  /-- Before the stop is looked up. -/
  | checking
  /-- Before the kept frames are looked up. -/
  | looking (stop : Nat)
  /-- Before the session is looked up. -/
  | asking (stop : Nat)
  | requesting (stop : Nat) (channel : ChannelId) (k : Network.Request.Stage)
  /-- Before frames are placed in their files. -/
  | placing (stop : Nat) (body : StackTraceBody)
  /-- Before frames are kept. -/
  | keeping (stop : Nat) (frames : List Stack.Frame)
  | ended (result : Except Fault (List Stack.Frame))

namespace Stage

variable (id : Nat) (thread : Int)

/-- What is left to do when the frames are known. -/
def keepingCall (stop : Nat) (frames : List Stack.Frame) : DebugWork (List Stack.Frame) := do
  change id fun t => (t.keepFrames thread stop frames, [])
  return frames

/-- What is left to do when the adapter has answered. -/
def placingCall (stop : Nat) (body : StackTraceBody) : DebugWork (List Stack.Frame) := do
  let frames ← Attempt.ofTask (Task.view fun w => placeFrames w id body.stackFrames)
  keepingCall id thread stop frames

/-- What is left to do when no frames were kept. -/
def askingCall (stop : Nat) : DebugWork (List Stack.Frame) := do
  let body ← requestAs id StackTraceBody.shape "stackTrace" (question thread).params
  placingCall id thread stop body

/-- What is left to do when the stop is known. -/
def lookingCall (stop : Nat) : DebugWork (List Stack.Frame) := do
  match ← look id fun t => t.keptFrames? thread with
  | some frames => return frames
  | none => askingCall id thread stop

/-- What is left to do when it is known what the adapter answered. -/
def repliedTask (stop : Nat) (reply : Except Channel.Fault Json) : Task Wait World (Except Fault (List Stack.Frame)) :=
  match reading reply with
  | .ok body => (placingCall id thread stop body).outcome
  | .error e => .done (.error e)

/-- What is left to do at a stage. -/
def work : Stage → Task Wait World (Except Fault (List Stack.Frame))
  | checking => (stack id thread).outcome
  | looking stop => (lookingCall id thread stop).outcome
  | asking stop => (askingCall id thread stop).outcome
  | requesting stop channel k =>
    (World.onNet (k.work channel (question thread))).andThen (repliedTask id thread stop)
  | placing stop body => (placingCall id thread stop body).outcome
  | keeping stop frames => (keepingCall id thread stop frames).outcome
  | ended result => .done result

/-- The stage at which an answer leaves a fetch. -/
def ofReply (stop : Nat) (reply : Except Channel.Fault Json) : Stage :=
  match reading reply with
  | .ok body => placing stop body
  | .error e => ended (.error e)

/-- The stage at which a request leaves a fetch. -/
def ofRequest (stop : Nat) (channel : ChannelId) : Network.Request.Stage → Stage
  | .ended reply => ofReply stop reply
  | k => requesting stop channel k

/-- One step, if the stage allows one. -/
def next (w : World) : Stage → Option (Stage × World)
  | checking =>
    match (w.target id).currentStop thread with
    | .ok stop => some (looking stop, w)
    | .error e => some (ended (.error e), w)
  | looking stop =>
    match (w.target id).keptFrames? thread with
    | some frames => some (ended (.ok frames), w)
    | none => some (asking stop, w)
  | asking stop => some (requesting stop (w.debugger.session (w.target id).session).channel .starting, w)
  | requesting stop channel k =>
    (k.next channel (question thread) w.net).map fun (k, net) => (ofRequest stop channel k, { w with net })
  | placing stop body => some (keeping stop (placeFrames w id body.stackFrames), w)
  | keeping stop frames =>
    some (ended (.ok frames), w.changeTarget id fun t => (t.keepFrames thread stop frames, []))
  | ended _ => none

/-- The request of a fetch that is under way is not over. -/
def Proper : Stage → Prop
  | requesting _ _ (.ended _) => False
  | _ => True

/-- The outcome of a fetch that is over. -/
def result? : Stage → Option (Except Fault (List Stack.Frame))
  | ended result => some result
  | _ => none

/-- A fetch is under way. -/
structure Going (k : Stage) : Prop where
  proper : k.Proper
  unended : k.result? = none

lemma Going.checking : Going .checking := ⟨trivial, rfl⟩

lemma Going.ne_ended {k : Stage} (h : k.Going) (result : Except Fault (List Stack.Frame)) : k ≠ .ended result := by
  rintro rfl
  cases h.unended

end Stage

variable {id : Nat} {thread : Int}

lemma eq_ended_of_result? {k : Stage} {result : Except Fault (List Stack.Frame)} (h : k.result? = some result) :
    k = .ended result := by
  cases k with
  | ended r => exact congrArg _ (Option.some.inj h)
  | _ => cases h

/-! ## Steps -/

/-- When the session is known the request begins. -/
lemma call_requestAs_bind (stop : Nat) (s : Session) :
    (World.call (s.requestAs StackTraceBody.shape "stackTrace" (question thread).params)
        >>= Stage.placingCall id thread stop : DebugWork (List Stack.Frame)).outcome
      = (Stage.requesting stop s.channel .starting).work id thread := by
  show (World.call (s.requestAs StackTraceBody.shape "stackTrace" (question thread).params)).outcome.andThen _ = _
  rw [Session.outcome_call_requestAs_andThen]
  show _ = (World.onNet (Network.request s.channel "stackTrace" (question thread).params).outcome).andThen
    (Stage.repliedTask id thread stop)
  congr 1
  funext reply
  show ExceptT.bindCont _ (reading reply) = _
  unfold Stage.repliedTask
  cases reading reply <;> rfl

lemma result?_work {c : ChannelId} {r : Network.Request} {k : Network.Request.Stage}
    (hk : ∀ reply, k ≠ .ended reply) : (k.work c r).result? = none := by
  cases k with
  | ended reply => exact absurd rfl (hk reply)
  | _ => rfl

/-- A fetch that is not over can go on or waits. -/
lemma Stage.result?_work {k : Stage} (proper : k.Proper) (hk : ∀ result, k ≠ .ended result) :
    (k.work id thread).result? = none := by
  cases k with
  | requesting stop channel k =>
    refine Task.result?_andThen (Task.result?_zoom.trans (Fetch.result?_work ?_)) _
    rintro reply rfl
    exact proper
  | ended result => exact absurd rfl (hk result)
  | _ => rfl

lemma proper_ofRequest (stop : Nat) (channel : ChannelId) (k : Network.Request.Stage) :
    (Stage.ofRequest stop channel k).Proper := by
  cases k with
  | ended reply =>
    show (Stage.ofReply stop reply).Proper
    unfold Stage.ofReply
    split <;> trivial
  | _ => trivial

lemma proper_next {k k' : Stage} {w w' : World} (h : k.next id thread w = some (k', w')) : k'.Proper := by
  cases k with
  | checking | looking stop =>
    simp only [Stage.next] at h
    split at h <;>
    · obtain ⟨rfl, rfl⟩ := Prod.mk.inj (Option.some.inj h)
      trivial
  | requesting stop channel k =>
    obtain ⟨r, -, hr⟩ := Option.map_eq_some_iff.mp h
    obtain ⟨rfl, rfl⟩ := Prod.mk.inj hr
    exact proper_ofRequest stop channel r.1
  | asking stop | placing stop body | keeping stop frames =>
    obtain ⟨rfl, rfl⟩ := Prod.mk.inj (Option.some.inj h)
    trivial
  | ended result => cases h

/-- What one step of a fetch does to the world. -/
inductive Does (id : Nat) (thread : Int) (w : World) : World → Prop
  | looks : Does id thread w w
  | asks (channel : ChannelId) (k k' : Network.Request.Stage) (net : Network)
      (steps : k.next channel (question thread) w.net = some (k', net)) : Does id thread w { w with net }
  | keeps (stop : Nat) (frames : List Stack.Frame) :
    Does id thread w (w.changeTarget id fun t => (t.keepFrames thread stop frames, []))

lemma does_next {k k' : Stage} {w w' : World} (h : k.next id thread w = some (k', w')) : Does id thread w w' := by
  cases k with
  | checking | looking stop =>
    simp only [Stage.next] at h
    split at h <;>
    · obtain ⟨-, rfl⟩ := Prod.mk.inj (Option.some.inj h)
      exact .looks
  | requesting stop channel k =>
    obtain ⟨⟨k', net⟩, hnext, hr⟩ := Option.map_eq_some_iff.mp h
    obtain ⟨-, rfl⟩ := Prod.mk.inj hr
    exact .asks channel k k' net hnext
  | asking stop | placing stop body =>
    obtain ⟨-, rfl⟩ := Prod.mk.inj (Option.some.inj h)
    exact .looks
  | keeping stop frames =>
    obtain ⟨-, rfl⟩ := Prod.mk.inj (Option.some.inj h)
    exact .keeps stop frames
  | ended result => cases h

/-- A step of a fetch leaves the debugger alone until it keeps the frames. -/
lemma debugger_next {k k' : Stage} {w w' : World} (h : k.next id thread w = some (k', w')) :
    w'.debugger = w.debugger ∨ ∃ stop frames, k = .keeping stop frames ∧
      w' = w.changeTarget id fun t => (t.keepFrames thread stop frames, []) := by
  cases k with
  | checking | looking stop =>
    simp only [Stage.next] at h
    split at h <;>
    · obtain ⟨rfl, rfl⟩ := Prod.mk.inj (Option.some.inj h)
      exact .inl rfl
  | requesting stop channel k =>
    obtain ⟨r, -, hr⟩ := Option.map_eq_some_iff.mp h
    obtain ⟨rfl, rfl⟩ := Prod.mk.inj hr
    exact .inl rfl
  | asking stop | placing stop body =>
    obtain ⟨rfl, rfl⟩ := Prod.mk.inj (Option.some.inj h)
    exact .inl rfl
  | keeping stop frames =>
    obtain ⟨rfl, rfl⟩ := Prod.mk.inj (Option.some.inj h)
    exact .inr ⟨stop, frames, rfl, rfl⟩
  | ended result => cases h

/-- Where the request is over the fetch goes on with its outcome. -/
lemma work_ofRequest (stop : Nat) (channel : ChannelId) (k : Network.Request.Stage) :
    (Stage.ofRequest stop channel k).work id thread
      = (World.onNet (k.work channel (question thread))).andThen (Stage.repliedTask id thread stop) := by
  cases k with
  | ended reply =>
    show (Stage.ofReply stop reply).work id thread = Stage.repliedTask id thread stop reply
    unfold Stage.ofReply Stage.repliedTask
    cases reading reply <;> rfl
  | _ => rfl

/-- A step of the work that is left at a stage leads to the work that is left at the next one. -/
theorem tick_work {k : Stage} (hk : k.Proper) (w : World) :
    (k.work id thread).tick? World.holds w
      = (k.next id thread w).map fun (k, w) => (k.work id thread, w) := by
  cases k with
  | checking =>
    have hlook : (Stage.work id thread .checking).tick? World.holds w
        = some (((Attempt.ofExcept ((w.target id).currentStop thread)) >>= Stage.lookingCall id thread :
          DebugWork (List Stack.Frame)).outcome, w) := rfl
    rw [hlook]
    simp only [Stage.next]
    cases (w.target id).currentStop thread <;> rfl
  | looking stop =>
    have hlook : (Stage.work id thread (.looking stop)).tick? World.holds w
        = some ((match (w.target id).keptFrames? thread with
          | some frames => pure frames
          | none => Stage.askingCall id thread stop : DebugWork (List Stack.Frame)).outcome, w) := rfl
    rw [hlook]
    simp only [Stage.next]
    cases (w.target id).keptFrames? thread <;> rfl
  | asking stop =>
    have hask : (Stage.work id thread (.asking stop)).tick? World.holds w
        = some ((World.call ((w.debugger.session (w.target id).session).requestAs StackTraceBody.shape "stackTrace"
          (question thread).params) >>= Stage.placingCall id thread stop : DebugWork (List Stack.Frame)).outcome, w) := rfl
    rw [hask, call_requestAs_bind]
    rfl
  | requesting stop channel k =>
    have hover : ∀ reply, k ≠ .ended reply := by
      rintro reply rfl
      exact hk
    have hundone : (World.onNet (k.work channel (question thread))).result? = none :=
      Task.result?_zoom.trans (result?_work hover)
    rw [Stage.work, Task.tick?_andThen hundone, World.tick?_onNet, Network.Request.tick_work]
    simp only [Stage.next, Option.map_map]
    congr 1
    funext r
    simp only [Function.comp, work_ofRequest]
  | placing stop body => rfl
  | keeping stop frames => rfl
  | ended result => rfl

end Switchboard.Debug.Target.Fetch
