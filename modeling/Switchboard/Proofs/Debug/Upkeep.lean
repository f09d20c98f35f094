import Switchboard.Proofs.Channel.Asking
import Switchboard.Proofs.Concurrency.Ensemble
import Switchboard.Proofs.Debug.Errands

/-!
# Keeping adapters informed, access by access

* `Chore`: what a command on breakpoints still has to do, in pieces of one access or one request each;
* `Chore.work`, `Chore.next`: all of it, and one step of it, which leads to other chores;
* `tick_works`: a step of the first chore of a list is a step of their work;
* `Job`, `upkeep`: any number of commands at once, and anything that happens to all but the breakpoints;
* `play_upkeep`: the commands are those that run.
-/

namespace Switchboard.Debug.Upkeep

open Network (Request)
open Network.Request (Stage)

/-! ## Chores -/

/-- What a session is asked: to take these breakpoints of a file, each with its id, or the exception filters. -/
inductive Question where
  | file (path : Path) (sent : List (Nat × SourceBreakpoint))
  | exceptions (filters : List String)

/-- The request by which it is asked. -/
def Question.request : Question → Request
  | file path sent => { method := "setBreakpoints", params := Sync.fileArguments path (sent.map (·.2)) }
  | exceptions filters =>
    { method := "setExceptionBreakpoints", params := SetExceptionBreakpointsArguments.toJson { filters } }

/-- Something left to do. -/
inductive Chore where
  /-- To make the change of a call. -/
  | change (call : Editing.Call)
  /-- To list the files of which a session is told everything. -/
  | list (s : SessionId)
  | errand (e : Errand)
  /-- To look up the sessions for an errand. -/
  | choose (e : Errand)
  /-- To tell a session of a topic if it is ready. -/
  | check (s : SessionId) (t : Topic)
  | tell (s : SessionId) (t : Topic)
  /-- To look up what there is to send for a file. -/
  | read (s : SessionId) (path : Path)
  /-- To go on with a request that has come to a stage. -/
  | ask (q : Question) (c : ChannelId) (stage : Stage) (live : stage.reply? = none)
  /-- To record what was answered for the breakpoints that were sent. -/
  | record (sent : List (Nat × SourceBreakpoint)) (responses : List BreakpointResponse)

/-- What is left to do when a request is over. -/
def Question.heard : Question → Except Channel.Fault Json → List Chore
  | file _ sent, reply =>
    match Session.reading SetBreakpointsBody.shape "setBreakpoints" reply with
    | .ok body => [.record sent body.breakpoints]
    | .error _ => []
  | exceptions _, _ => []

/-- What is left to do of a request that has come to a stage. -/
def Question.resume (q : Question) (c : ChannelId) (stage : Stage) : List Chore :=
  match live : stage.reply? with
  | none => [.ask q c stage live]
  | some reply => q.heard reply

/-- The work that is left when a request is over. -/
def Question.heardWork : Question → Except Channel.Fault Json → Task Wait World Unit
  | file _ sent, reply =>
    match Session.reading SetBreakpointsBody.shape "setBreakpoints" reply with
    | .ok body => Task.modify fun w => w.verify (sent.map (·.1)) body.breakpoints
    | .error _ => .done ()
  | exceptions _, _ => .done ()

/-- The work of a request that has come to a stage, and of what follows it. -/
def Question.work (q : Question) (c : ChannelId) (stage : Stage) : Task Wait World Unit :=
  (World.onNet (stage.work c q.request)).andThen q.heardWork

/-- The question about a file that goes to a session. -/
def fileQuestion (w : World) (path : Path) : Question := .file path (w.debugger.sourceBreakpoints path)

/-- The question about the exception filters that goes to a session. -/
def exceptionsQuestion (w : World) (s : SessionId) : Question :=
  .exceptions (Session.exceptionFilters (w.channel (w.debugger.session s).channel).features
    w.debugger.exceptionFlags.1 w.debugger.exceptionFlags.2)

namespace Chore

/-- All that there is to do. -/
def work : Chore → Task Wait World Unit
  | change call => .access (fun w => (call.change w).2) fun w => Errand.works (call.change w).1
  | list s => Sync.everything s
  | errand e => e.work
  | choose e => .access id fun w => Task.forEach (Sync.ifReady fun s => e.topic.send s) (w.sessionsFor (e.language w))
  | check s t => Sync.ifReady (fun s => t.send s) s
  | tell s t => t.send s
  | read s path => .access id fun w => (fileQuestion w path).work (w.debugger.session s).channel .starting
  | ask q c stage _ => q.work c stage
  | record sent responses => Task.modify fun w => w.verify (sent.map (·.1)) responses

/-- One step, if there is one: the chores that are left in place of this one, and the world after it. -/
def next (w : World) : Chore → Option (List Chore × World)
  | change call => some ((call.change w).1.map errand, (call.change w).2)
  | list s =>
    let files := w.debugger.filesFor (w.debugger.session s).language
    some (files.map (fun path => tell s (.file path)) ++ [tell s .exceptions], w)
  | errand e => if World.holds .table w then some ([choose e], w) else none
  | choose e => some ((w.sessionsFor (e.language w)).map fun s => check s e.topic, w)
  | check s t => some (if w.isSessionReady s then [tell s t] else [], w)
  | tell s (.file path) => some ([read s path], w.relocate path)
  | tell s .exceptions =>
    some ([ask (exceptionsQuestion w s) (w.debugger.session s).channel .starting Stage.reply?_starting], w)
  | read s path => some ([ask (fileQuestion w path) (w.debugger.session s).channel .starting Stage.reply?_starting], w)
  | ask q c stage _ => (stage.next c q.request w.net).map fun r => (q.resume c r.1, { w with net := r.2 })
  | record sent responses => some ([], w.verify (sent.map (·.1)) responses)

end Chore

/-- All chores in order. -/
def works (l : List Chore) : Task Wait World Unit := Task.forEach Chore.work l

/-! ## Steps -/

lemma works_singleton (ch : Chore) : works [ch] = ch.work := Task.andThen_done ch.work

lemma works_append (l m : List Chore) : works (l ++ m) = (works l).andThen fun _ => works m := Task.forEach_append ..

lemma works_heard (q : Question) (reply : Except Channel.Fault Json) : works (q.heard reply) = q.heardWork reply := by
  cases q with
  | file path sent =>
    rw [Question.heard, Question.heardWork]
    cases Session.reading SetBreakpointsBody.shape "setBreakpoints" reply with
    | error e => rfl
    | ok body => exact works_singleton _
  | exceptions filters => rfl

lemma works_resume (q : Question) (c : ChannelId) (stage : Stage) : works (q.resume c stage) = q.work c stage := by
  unfold Question.resume
  split
  · exact works_singleton _
  · next reply h =>
    rw [works_heard, Question.work]
    cases stage with
    | ended result =>
      obtain rfl := Option.some.inj h
      rfl
    | _ => cases h

/-- The breakpoints of a file are sent after they were sent to where their anchors are. -/
lemma work_tell_file (s : SessionId) (path : Path) :
    (Chore.tell s (.file path)).work = .access (fun w => w.relocate path) fun _ => (Chore.read s path).work := by
  have hfile : Sync.fileWith s path = .access (fun w => w.relocate path) fun _ => .access id fun w =>
      (World.call ((w.debugger.session s).requestAs SetBreakpointsBody.shape "setBreakpoints"
        (Sync.fileArguments path ((w.debugger.sourceBreakpoints path).map (·.2))))).outcome.andThen fun outcome =>
          match outcome with
          | .ok body => Task.modify fun v => v.verify ((w.debugger.sourceBreakpoints path).map (·.1)) body.breakpoints
          | .error _ => .done () := rfl
  show Sync.fileWith s path = _
  rw [hfile]
  congr 1
  funext _
  show Task.access id _ = Task.access id _
  congr 1
  funext w
  rw [Session.outcome_call_requestAs_andThen]
  rfl

lemma work_tell_exceptions (s : SessionId) :
    (Chore.tell s .exceptions).work = .access id fun w =>
      (exceptionsQuestion w s).work (w.debugger.session s).channel .starting := by
  have hexceptions : Sync.exceptionsWith s = .access id fun w =>
      (World.call ((w.debugger.session s).request "setExceptionBreakpoints"
        (SetExceptionBreakpointsArguments.toJson {
          filters := Session.exceptionFilters (w.channel (w.debugger.session s).channel).features
            w.debugger.exceptionFlags.1 w.debugger.exceptionFlags.2 }))).outcome.andThen fun _ => .done () := rfl
  show Sync.exceptionsWith s = _
  rw [hexceptions]
  congr 1
  funext w
  rw [Session.outcome_call_request_andThen]
  rfl

/-- A session is told of everything once its files are listed. -/
lemma work_list (s : SessionId) :
    (Chore.list s).work = .access id fun w =>
      works ((w.debugger.filesFor (w.debugger.session s).language).map (fun path => .tell s (.file path))
        ++ [.tell s .exceptions]) := by
  show Task.access id _ = Task.access id _
  congr 1
  funext w
  rw [works_append, works_singleton, works, Task.forEach_map]
  rfl

lemma result?_work (ch : Chore) : ch.work.result? = none := by
  cases ch with
  | ask q c stage live =>
    apply Task.result?_andThen
    rw [World.onNet, Task.result?_zoom]
    exact Stage.result?_work c q.request live
  | errand e => cases e <;> rfl
  | tell s t => cases t <;> rfl
  | _ => rfl

/-- A step of a chore leaves the work of other chores. -/
theorem tick_work (ch : Chore) (w : World) :
    ch.work.tick? World.holds w = (ch.next w).map fun r => (works r.1, r.2) := by
  cases ch with
  | change call =>
    rw [Chore.next, Option.map_some, works, Task.forEach_map]
    rfl
  | list s =>
    rw [work_list]
    rfl
  | errand e =>
    rw [Chore.work, Errand.work_eq, Chore.next]
    show (if World.holds .table w then some _ else none) = _
    split
    · rw [Option.map_some, works_singleton]
      rfl
    · rfl
  | choose e =>
    rw [Chore.next, Option.map_some, works, Task.forEach_map]
    rfl
  | check s t =>
    show some (if w.isSessionReady s = true then t.send s else .done (), w) = _
    rw [Chore.next, Option.map_some]
    split
    · rw [works_singleton]
      rfl
    · rfl
  | tell s t =>
    cases t with
    | file path =>
      rw [work_tell_file, Chore.next, Option.map_some, works_singleton]
      rfl
    | exceptions =>
      rw [work_tell_exceptions, Chore.next, Option.map_some, works_singleton]
      rfl
  | read s path =>
    rw [Chore.next, Option.map_some, works_singleton]
    rfl
  | ask q c stage live =>
    have hlive : (World.onNet (stage.work c q.request)).result? = none := by
      rw [World.onNet, Task.result?_zoom]
      exact Stage.result?_work c q.request live
    rw [Chore.work, Question.work, Task.tick?_andThen hlive, World.tick?_onNet, Network.Request.tick_work, Chore.next,
      Option.map_map, Option.map_map, Option.map_map]
    congr 1
    funext r
    simp only [Function.comp, works_resume]
    rfl
  | record sent responses => rfl

/-- The first chore of a list, if it can be gone on with. -/
def goOn (l : List Chore) (w : World) : Option (List Chore × World) :=
  match l with
  | [] => none
  | ch :: rest => (ch.next w).map fun r => (r.1 ++ rest, r.2)

/-- A step of the work is one of the first chore. -/
theorem tick_works (l : List Chore) (w : World) :
    (works l).tick? World.holds w = (goOn l w).map fun r => (works r.1, r.2) := by
  cases l with
  | nil => rfl
  | cons ch rest =>
    rw [works, Task.forEach, Task.tick?_andThen (result?_work ch), tick_work, goOn, Option.map_map, Option.map_map]
    congr 1
    funext r
    simp only [Function.comp, works_append]
    rfl

/-! ## Runs -/

/-- Commands that tell adapters of breakpoints: an editor changes some, or a session is told of all. -/
inductive Job where
  | edit (call : Editing.Call)
  | everything (s : SessionId)

/-- What the command does. -/
def Job.work : Job → Task Wait World Unit
  | edit call => call.work
  | everything s => Sync.everything s

instance : (call : Editing.Call) → Decidable call.Acts
  | .add _ _ line _ => inferInstanceAs (Decidable (line ≠ 0))
  | .edit _ _ | .clear | .setException _ _ => .isTrue trivial

/-- What there is to do at first. -/
def Job.chores : Job → List Chore
  | edit call => if call.Acts then [.change call] else []
  | everything s => [.list s]

lemma Job.works_chores (job : Job) : works job.chores = job.work := by
  cases job with
  | edit call =>
    rw [chores]
    split
    · next hacts => rw [works_singleton, Job.work, Editing.Call.work_of_acts hacts, Chore.work]
    · next hacts => exact (Editing.Call.work_of_not_acts hacts).symm
  | everything s => exact works_singleton _

/-- Anything happens, but not to the breakpoints. -/
def elsewhere (f : World → World) (w : World) : World := (f w).setBreakpoints w.debugger.breakpoints

/-- Any number of commands, chore by chore, and anything that happens around them. -/
def upkeep : Ensemble World Job (List Chore) (World → World) where
  start := Job.chores
  step _ := goOn
  around := elsewhere

/-- These are the commands as they run, one access at a time. -/
theorem play_upkeep (start : World) (schedule : Nat → Ensemble.Turn Job (World → World)) (n : Nat) :
    (Ensemble.ofWork World.holds Job.work elsewhere).play start schedule n
      = (upkeep.play start schedule n).told fun _ l => works l := by
  have hwork : Job.work = fun job => works (upkeep.start job) := funext fun job => job.works_chores.symm
  rw [hwork]
  exact Ensemble.play_followed (x := upkeep) (fun _ l => works l) (fun _ l w => tick_works l w) start schedule n

end Switchboard.Debug.Upkeep
