import Switchboard.Proofs.Debug.Course

/-!
# What calls on a target do

* `Served`: a request of the target's session that was answered;
* `Brought`, `Source`: frames that a call fetched, or else found kept;
* `Visit`: a call that looked into a frame, with what it found there;
* `Listing`, `Granted`: the adapter listed threads, or agreed to let some of them go on;
* `Deed.Justified`: what has to have happened before a deed;
* `Call.upholds_work`: whatever happens around it, a call does only deeds that are justified.
-/

namespace Switchboard.Debug.Target.Course

open Network (Exchange)

variable (v : Viewpoint Wait World) (id : Nat)

/-- The network in a run. -/
abbrev net (v : Viewpoint Wait World) : Viewpoint Wait Network := v.part Wait.holds World.net

/-! ## What a call has to have done -/

/-- A request of the target's session that was answered. The session was looked up at the time `asked`. -/
structure Served (command : String) (arguments : Json) (x : Exchange) (asked : Nat) (body : Json) : Prop where
  turn : v.turn asked
  channel : ((v.state asked).debugger.session ((v.state asked).target id).session).channel = x.channel
  request : x.request = { method := command, params := arguments }
  asked_lt : asked < x.enrolled
  took : x.Took (net v) body

lemma Served.asked_lt_sent {v : Viewpoint Wait World} {id : Nat} {command : String} {arguments : Json} {x : Exchange}
    {asked : Nat} {body : Json} (h : Served v id command arguments x asked body) : asked < x.sent :=
  Nat.lt_trans h.asked_lt h.took.1.1.2.1

lemma Served.sent_lt_answered {v : Viewpoint Wait World} {id : Nat} {command : String} {arguments : Json} {x : Exchange}
    {asked : Nat} {body : Json} (h : Served v id command arguments x asked body) : x.sent < x.answered :=
  Nat.lt_trans h.took.1.2.1 h.took.2.1

/-- Frames of a thread that came with the answer to a request made from the time `n` on, and were placed in
their files before the time `m`. -/
def Brought (thread : Int) (frames : List Stack.Frame) (n m : Nat) : Prop :=
  ∃ (x : Exchange) (asked : Nat) (answer : Json) (body : StackTraceBody) (placed : Nat),
    n ≤ asked ∧
      Served v id "stackTrace" (StackTraceArguments.toJson { threadId := thread, startFrame := some 0 }) x asked answer ∧
      StackTraceBody.shape answer = .ok body ∧ x.answered < placed ∧ v.turn placed ∧ placed < m ∧
      frames = placeFrames (v.state placed) id body.stackFrames

/-- How a call came by the frames of a thread: it found them kept, or else it had looked for them in vain, fetched
them and offered them to the thread. -/
inductive Source where
  | found (time : Nat)
  | fetched (looked kept : Nat)

namespace Source

/-- When the call looked for kept frames. -/
def first : Source → Nat
  | found time => time
  | fetched looked _ => looked

/-- When the call had the frames. -/
def last : Source → Nat
  | found time => time
  | fetched _ kept => kept

/-- The call came by these frames in this way. -/
def Gave (thread : Int) (frames : List Stack.Frame) : Source → Prop
  | found time => v.turn time ∧ ((v.state time).target id).keptFrames? thread = some frames
  | fetched looked kept =>
    v.turn looked ∧ ((v.state looked).target id).keptFrames? thread = none ∧ looked < kept ∧ v.turn kept ∧
      (∃ stop, v.state (kept + 1) = (v.state kept).changeTarget id (Deed.keepsFrames thread stop frames).apply) ∧
      Brought v id thread frames (looked + 1) kept

end Source

lemma Brought.later {thread : Int} {frames : List Stack.Frame} {n m m' : Nat} (h : Brought v id thread frames n m)
    (hm : m ≤ m') : Brought v id thread frames n m' := by
  obtain ⟨x, asked, answer, body, placed, hasked, hserved, hshape, hlt, hturn, hplaced, hframes⟩ := h
  exact ⟨x, asked, answer, body, placed, hasked, hserved, hshape, hlt, hturn, Nat.lt_of_lt_of_le hplaced hm, hframes⟩

lemma Brought.sooner {thread : Int} {frames : List Stack.Frame} {n n' m : Nat} (h : Brought v id thread frames n m)
    (hn : n' ≤ n) : Brought v id thread frames n' m := by
  obtain ⟨x, asked, answer, body, placed, hasked, hserved, hshape, hlt, hturn, hplaced, hframes⟩ := h
  exact ⟨x, asked, answer, body, placed, Nat.le_trans hn hasked, hserved, hshape, hlt, hturn, hplaced, hframes⟩

/-- The thread was found in a stop. -/
def Checked (thread : Int) (stop checked : Nat) : Prop :=
  v.turn checked ∧ ((v.state checked).target id).currentStop thread = .ok stop

/-- Variables of scopes, gathered between two times: of a scope that can be delayed the one that stands for it,
and of any other scope those that came with the answer to a request under its reference. -/
def Gathered (rules : Rules) : List Stack.Scope → List Stack.Variable → Nat → Nat → Prop
  | [], l, n, m => l = [] ∧ n ≤ m
  | s :: rest, l, n, m => ∃ own more k, l = own ++ more ∧ Gathered rules rest more k m ∧
      if s.delayable then own = [s.placeholder] ∧ n ≤ k
      else ∃ (x : Exchange) (asked : Nat) (answer : Json) (body : VariablesBody), n ≤ asked ∧
        Served v id "variables" (VariablesArguments.toJson { variablesReference := s.reference }) x asked answer ∧
        VariablesBody.shape answer = .ok body ∧ x.answered < k ∧
        own = body.contents.map fun y => rules.variable_ y s.class_

lemma Gathered.later {rules : Rules} {scopes : List Stack.Scope} {l : List Stack.Variable} {n m m' : Nat}
    (h : Gathered v id rules scopes l n m) (hm : m ≤ m') : Gathered v id rules scopes l n m' := by
  induction scopes generalizing l n with
  | nil => exact ⟨h.1, Nat.le_trans h.2 hm⟩
  | cons s rest ih =>
    obtain ⟨own, more, k, hl, hmore, hown⟩ := h
    exact ⟨own, more, k, hl, ih hmore, hown⟩

/-- A call that looks into a frame: the frames it came by, the frame it looks into, the stop in which it found the
thread after that, and its request for the scopes. -/
structure Visit where
  source : Source
  frames : List Stack.Frame
  frame : Stack.Frame
  stop : Nat
  checked : Nat
  rules : Rules := ⟨[], [], [], []⟩
  asked : Nat := 0
  exchange : Exchange := { channel := 0, request := { method := "", params := .null } }
  body : ScopesBody := default

namespace Visit

variable (thread : Int) (index : Nat) (visit : Visit)

/-- Having come by frames the call found the thread in a stop; the frame has contents yet to be fetched. -/
structure Found : Prop where
  gave : visit.source.Gave v id thread visit.frames
  last_lt : visit.source.last < visit.checked
  checked : Checked v id thread visit.stop visit.checked
  frame : visit.frames[index]? = some visit.frame
  empty : visit.frame.contents = none
  real : visit.frame.synthetic = false

/-- After that it asked for the scopes of the frame, and got an answer. -/
structure Asked : Prop extends Found v id thread index visit where
  checked_lt : visit.checked < visit.asked
  rules : ∃ ruled channel, visit.checked < ruled ∧ ruled < visit.asked ∧
    visit.rules = .ofFeatures ((v.state ruled).net.channel channel).features
  served : ∃ answer,
    Served v id "scopes" (ScopesArguments.toJson { frameId := visit.frame.id }) visit.exchange visit.asked answer ∧
      ScopesBody.shape answer = .ok visit.body

/-- It made scopes of the answer and gathered their variables. -/
def Filled (scopes : List Stack.Scope) (contents : List Stack.Variable) (m : Nat) : Prop :=
  visit.Asked v id thread index ∧ scopes = visit.body.scopes.map visit.rules.scope ∧
    ∃ n, visit.exchange.answered < n ∧ Gathered v id visit.rules scopes contents n m

end Visit

/-- The adapter agreed to the request for the launch. -/
def Agreed (m : Nat) : Prop :=
  ∃ (looked asked : Nat) (arguments : Json) (x : Exchange) (answer : Json), v.turn looked ∧ looked < asked ∧
    Served v id ((v.state looked).target id).launch.mode.name arguments x asked answer ∧ x.answered < m

/-- The adapter listed these threads when it was asked for them. -/
def Listing (threads : List ThreadInfo) (m : Nat) : Prop :=
  ∃ (x : Exchange) (asked : Nat) (answer : Json) (body : ThreadsBody), Served v id "threads" .null x asked answer ∧
    ThreadsBody.shape answer = .ok body ∧ threads = body.threads ∧ x.answered < m

/-- By this time it was settled which thread an action is about: the one that was named, or else the default. -/
def Chosen (thread : Option Int) (i : Int) (m : Nat) : Prop :=
  thread = some i ∨ thread = none ∧ ∃ l, l < m ∧ v.turn l ∧ ((v.state l).target id).defaultThread = .ok i

/-- The request with which an action lets a thread go on. -/
inductive Releases (thread : Int) : Action → String → Json → Prop where
  | resume : Releases thread .resume "continue" (ThreadArguments.toJson { threadId := thread })
  | stepInto : Releases thread .stepInto "stepIn" (ThreadArguments.toJson { threadId := thread })
  | stepOver : Releases thread .stepOver "next" (ThreadArguments.toJson { threadId := thread })
  | stepReturn : Releases thread .stepReturn "stepOut" (ThreadArguments.toJson { threadId := thread })
  | dropToFrame (frame : Int) :
    Releases thread .dropToFrame "restartFrame" (RestartFrameArguments.toJson { frameId := frame })

/-- The adapter agreed to let a thread go on, or all of them, which it can say only when it is asked to resume one. -/
def Granted (action : Action) (thread : Int) (all : Bool) (m : Nat) : Prop :=
  ∃ (command : String) (arguments : Json) (x : Exchange) (asked : Nat) (answer : Json),
    Releases thread action command arguments ∧ Served v id command arguments x asked answer ∧ x.answered < m ∧
      if action = .resume then resumesAll answer = .ok all else all = false

/-- What has to have happened before a deed of a call. -/
def Deed.Justified (call : Call) (m : Nat) : Deed → Prop
  | .begins => (∃ root, call = .start root) ∧ ((v.state m).target id).state = .created
  | .launches => (∃ root, call = .start root) ∧ Agreed v id m
  | .fails => ∃ root, call = .start root
  | .lists threads => call = .refresh ∧ Listing v id threads m
  | .resumes thread all _ => ∃ action named frame,
    call = .perform action named frame ∧ Chosen v id named thread m ∧ Granted v id action thread all m
  | .keepsFrames thread stop frames =>
    ∃ checked, Checked v id thread stop checked ∧ Brought v id thread frames (checked + 1) m
  | .keepsContents thread stop index scopes contents =>
    call = .inspect thread index ∧ ∃ visit : Visit, visit.stop = stop ∧ visit.Filled v id thread index scopes contents m

/-- The last access of a call, made just before this time, let a thread go on. -/
def Resumed (thread : Int) (m : Nat) : Prop :=
  ∃ (all : Bool) (detail : String) (r : Nat), m = r + 1 ∧ v.turn r ∧
    v.state m = (v.state r).changeTarget id fun t => t.applyResume thread all detail

/-- At this time the call leaves the target and what is told alone, or does a deed that is justified. -/
def Deeds (call : Call) (m : Nat) : Prop :=
  ((v.state (m + 1)).debugger.targets = (v.state m).debugger.targets ∧ (v.state (m + 1)).told = (v.state m).told) ∨
    ∃ deed : Deed, deed.Justified v id call m ∧ v.state (m + 1) = (v.state m).changeTarget id deed.apply

/-! ## Single accesses -/

section Accesses

variable {v : Viewpoint Wait World} {id : Nat} {call : Call} {n : Nat}

lemma deeds_of_eq {m : Nat} (h : v.state (m + 1) = v.state m) : Deeds v id call m :=
  .inl ⟨congrArg (·.debugger.targets) h, congrArg World.told h⟩

/-- A look at the target. -/
lemma upholds_look {α : Type} {Q : Nat → α → Prop} {f : Target → α}
    (h : ∀ m, n ≤ m → v.turn m → Q (m + 1) (f ((v.state m).target id))) :
    Attempt.Upholds v (Deeds v id call) Q (look id f) n :=
  .ofTask (Task.upholds_view (fun _ => deeds_of_eq) fun m hm hturn _ => h m hm hturn)

/-- A look at the target, where what is not there is a fault. -/
lemma upholds_demand {α : Type} {Q : Nat → α → Prop} {f : Target → Except Fault α}
    (h : ∀ m a, n ≤ m → v.turn m → f ((v.state m).target id) = .ok a → Q (m + 1) a) :
    Attempt.Upholds v (Deeds v id call) Q (demand id f) n :=
  .bind (Q := fun m e => ∃ l, m = l + 1 ∧ n ≤ l ∧ v.turn l ∧ f ((v.state l).target id) = e)
    (upholds_look fun m hm hturn => ⟨m, rfl, hm, hturn, rfl⟩)
    (by
      rintro m e - ⟨l, rfl, hl, hturn, he⟩
      exact .ofExcept fun a ha => h l a hl hturn (he.trans ha))

/-- A deed. -/
lemma upholds_change {Q : Nat → Unit → Prop} (deed : Deed) (h : ∀ m, n ≤ m → v.turn m →
    v.state (m + 1) = (v.state m).changeTarget id deed.apply → deed.Justified v id call m ∧ Q (m + 1) ()) :
    Attempt.Upholds v (Deeds v id call) Q (change id deed.apply) n :=
  .ofTask fun m hm hturn hstate => ⟨.inr ⟨deed, (h m hm hturn hstate).1, hstate⟩, (h m hm hturn hstate).2⟩

/-- Whatever is chosen by some time is chosen later on. -/
lemma Chosen.later {thread : Option Int} {i : Int} {m m' : Nat} (h : Chosen v id thread i m) (hm : m ≤ m') :
    Chosen v id thread i m' :=
  h.imp_right fun ⟨hnone, l, hl, hturn, hi⟩ => ⟨hnone, l, Nat.lt_of_lt_of_le hl hm, hturn, hi⟩

/-- The last access of work that lets a thread go on. -/
lemma upholds_resumed {action : Action} {chosen : Option Int} {frame : Option Nat} {thread : Int} {all : Bool}
    (hchosen : Chosen v id chosen thread n) (hgranted : ∀ m, n ≤ m → Granted v id action thread all m) (detail : String) :
    Attempt.Upholds v (Deeds v id (.perform action chosen frame)) (fun m _ => Resumed v id thread m)
      (resumed id thread all detail) n :=
  upholds_change (.resumes thread all detail) fun m hm hturn hstate =>
    ⟨⟨action, chosen, frame, rfl, hchosen.later hm, hgranted m hm⟩, all, detail, m, rfl, hturn, hstate⟩

/-- The beginning of a launch, which a target refuses that is not new. -/
lemma upholds_beginLaunch (root : Option Path) :
    Attempt.Upholds v (Deeds v id (.start root)) (fun _ _ => True) (tryChange id beginLaunch) n := by
  intro m hm hturn hstate
  refine ⟨?_, fun _ _ => trivial⟩
  by_cases hcreated : ((v.state m).target id).state = .created
  · refine .inr ⟨.begins, ⟨⟨root, rfl⟩, hcreated⟩, hstate.trans ?_⟩
    simp only [beginLaunch, hcreated, if_true]
    rfl
  · refine deeds_of_eq (hstate.trans ?_)
    simp only [beginLaunch, hcreated, if_false]
    rfl

/-- Work on the network leaves the target alone. -/
lemma upholds_onNet {α : Type} (hholds : v.holds = World.holds) {Q : Nat → α → Prop} {t : Task Wait Network α}
    (h : t.Upholds (net v) (fun _ => True) Q n) : (World.onNet t).Upholds v (Deeds v id call) Q n :=
  Task.Upholds.zoom (fun _ _ => rfl) (fun _ _ => by rw [hholds]; rfl)
    (fun _ _ hstate => .inl ⟨by rw [hstate], by rw [hstate]⟩) h

/-- The session of the target. -/
lemma upholds_sessionOf : Attempt.Upholds v (Deeds v id call)
    (fun m s => ∃ asked, m = asked + 1 ∧ n ≤ asked ∧ v.turn asked ∧
      s = (v.state asked).debugger.session ((v.state asked).target id).session) (sessionOf id) n :=
  .ofTask (Task.upholds_view (fun _ => deeds_of_eq) fun m hm hturn _ => ⟨m, rfl, hm, hturn, rfl⟩)

end Accesses

/-! ## Requests -/

section Requests

variable {v : Viewpoint Wait World} {id : Nat} {call : Call} {n : Nat}

/-- What a request of the target's session that was read brought. -/
def Read {α : Type} (v : Viewpoint Wait World) (id : Nat) (shape : Json.Shape α) (command : String) (arguments : Json)
    (n m : Nat) (a : α) : Prop :=
  ∃ (x : Exchange) (asked : Nat) (answer : Json), n ≤ asked ∧ Served v id command arguments x asked answer ∧
    shape answer = .ok a ∧ x.answered < m

/-- An answer that could be read has the shape that was demanded. -/
lemma shape_of_reading {α : Type} {shape : Json.Shape α} {command : String} {reply : Except Channel.Fault Json} {a : α}
    (h : Session.reading shape command reply = .ok a) : ∃ answer, reply = .ok answer ∧ shape answer = .ok a := by
  unfold Session.reading at h
  split at h
  · cases h
  · next answer =>
    split at h
    · next hshape =>
      obtain rfl := Except.ok.inj h
      exact ⟨answer, rfl, hshape⟩
    · cases h

/-- A request whose answer has a body of a known shape. -/
lemma upholds_requestAs (hholds : v.holds = World.holds) {α : Type} (shape : Json.Shape α) (command : String)
    (arguments : Json) :
    Attempt.Upholds v (Deeds v id call) (Read v id shape command arguments n) (requestAs id shape command arguments) n := by
  refine .bind upholds_sessionOf ?_
  rintro m s - ⟨asked, rfl, hn, hturn, rfl⟩
  show (World.onNet (Session.requestAs _ shape command arguments).outcome).Upholds _ _ _ _
  rw [Session.outcome_requestAs]
  refine upholds_onNet hholds (Task.Upholds.andThen
    (Network.Request.upholds_request (net v) rfl _ { method := command, params := arguments } _) ?_)
  intro l reply hl hreply a ha
  obtain ⟨answer, hanswer, hshape⟩ := shape_of_reading ha
  obtain ⟨x, hc, hr, hen, htook, hlt⟩ := hreply answer hanswer
  exact ⟨x, asked, answer, hn, ⟨hturn, hc.symm, hr, hen, htook⟩, hshape, hlt⟩

/-- What the adapter advertised when they were asked for. -/
lemma upholds_features (hholds : v.holds = World.holds) :
    Attempt.Upholds v (Deeds v id call) (fun m features => ∃ ruled channel, n ≤ ruled ∧ ruled < m ∧
      features = ((v.state ruled).net.channel channel).features) (features id) n := by
  refine .bind upholds_sessionOf ?_
  rintro m s - ⟨asked, rfl, hn, hturn, rfl⟩
  exact upholds_onNet hholds (Attempt.Upholds.ofTask (Task.upholds_view (fun _ _ => trivial)
    fun l hl _ _ => ⟨l, _, by omega, Nat.lt_succ_self l, rfl⟩))

/-- A request whose answer may have any body. -/
lemma upholds_request (hholds : v.holds = World.holds) (command : String) (arguments : Json) :
    Attempt.Upholds v (Deeds v id call) (fun m answer => ∃ (x : Exchange) (asked : Nat), n ≤ asked ∧
        Served v id command arguments x asked answer ∧ x.answered < m)
      (request id command arguments) n := by
  refine .bind upholds_sessionOf ?_
  rintro m s - ⟨asked, rfl, hn, hturn, rfl⟩
  show (World.onNet (Session.request _ command arguments).outcome).Upholds _ _ _ _
  rw [Session.outcome_request]
  refine upholds_onNet hholds (Task.Upholds.andThen
    (Network.Request.upholds_request (net v) rfl _ { method := command, params := arguments } _) ?_)
  intro l reply _ hreply answer hanswer
  cases reply with
  | error e => cases hanswer
  | ok body =>
    obtain rfl := Except.ok.inj hanswer
    obtain ⟨x, hc, hr, hen, htook, hlt⟩ := hreply body rfl
    exact ⟨x, asked, hn, ⟨hturn, hc.symm, hr, hen, htook⟩, hlt⟩

end Requests

/-! ## Calls -/

section Calls

variable {v : Viewpoint Wait World} (hholds : v.holds = World.holds) {id : Nat} {call : Call} {n : Nat}

include hholds

/-- A call comes by the frames of a thread: it finds them kept, or it fetches them. -/
lemma upholds_stack (thread : Int) :
    Attempt.Upholds v (Deeds v id call)
      (fun m frames => ∃ s : Source, n ≤ s.first ∧ s.last < m ∧ s.Gave v id thread frames) (Target.stack id thread) n := by
  -- the stop is looked up before anything is asked for
  refine .bind (Q := fun m stop => ∃ checked, m = checked + 1 ∧ n ≤ checked ∧ Checked v id thread stop checked)
    (upholds_demand fun m stop hm hturn hstop => ⟨m, rfl, hm, hturn, hstop⟩) ?_
  rintro m stop - ⟨checked, rfl, hn, hchecked⟩
  refine .bind (Q := fun m kept => ∃ looked, m = looked + 1 ∧ checked < looked ∧ v.turn looked ∧
      ((v.state looked).target id).keptFrames? thread = kept)
    (upholds_look fun m hm hturn => ⟨m, rfl, hm, hturn, rfl⟩) ?_
  rintro m kept - ⟨looked, rfl, hlooked, hturn, hkept⟩
  cases kept with
  | some frames => exact .pure ⟨.found looked, by show n ≤ looked; omega, Nat.lt_succ_self looked, hturn, hkept⟩
  | none =>
    -- they are asked for, placed in their files and offered to the thread
    refine .bind (upholds_requestAs hholds _ _ _) ?_
    rintro l body hl ⟨x, asked, answer, hasked, hserved, hshape, hlt⟩
    refine .bind (Q := fun m frames => Brought v id thread frames (looked + 1) m)
      (.ofTask (Task.upholds_view (fun _ => deeds_of_eq) fun k hk hplaced _ =>
        ⟨x, asked, answer, body, k, hasked, hserved, hshape, by omega, hplaced, Nat.lt_succ_self k, rfl⟩)) ?_
    intro k frames hk hbrought
    refine .bind (Q := fun m _ => ∃ s : Source, n ≤ s.first ∧ s.last < m ∧ s.Gave v id thread frames)
      (upholds_change (.keepsFrames thread stop frames) fun i hi hkeeps hstate => ?_) fun _ _ _ h => .pure h
    have hbrought := hbrought.later v id hi
    refine ⟨⟨checked, hchecked, hbrought.sooner v id (by omega)⟩, .fetched looked i, by show n ≤ looked; omega,
      Nat.lt_succ_self i, hturn, hkept, by omega, hkeeps, ⟨stop, hstate⟩, hbrought⟩

/-- Variables under a reference come with the answer to a request. -/
lemma upholds_fetchVariables (rules : Rules) (reference : Int) (c : Stack.ScopeClass) :
    Attempt.Upholds v (Deeds v id call) (fun m l => ∃ body : VariablesBody,
        Read v id VariablesBody.shape "variables" (VariablesArguments.toJson { variablesReference := reference }) n m body ∧
          l = body.contents.map fun y => rules.variable_ y c)
      (fetchVariables id rules reference c) n :=
  .bind (upholds_requestAs hholds _ _ _) fun _ body _ hbody => .pure ⟨body, hbody, rfl⟩

/-- The variables of scopes are gathered scope by scope. -/
lemma upholds_expandScopes (rules : Rules) (scopes : List Stack.Scope) (n : Nat) :
    Attempt.Upholds v (Deeds v id call) (fun m l => Gathered v id rules scopes l n m) (expandScopes id rules scopes) n := by
  induction scopes generalizing n with
  | nil => exact .pure ⟨rfl, Nat.le_refl n⟩
  | cons s rest ih =>
    -- whatever the first scope gives, that of the others follows
    have hrest : ∀ own k, (∀ more m, Gathered v id rules rest more k m →
          Gathered v id rules (s :: rest) (own ++ more) n m) →
        Attempt.Upholds v (Deeds v id call) (fun m l => Gathered v id rules (s :: rest) l n m)
          (do return own ++ (← expandScopes id rules rest)) k :=
      fun own k hown => .bind (ih k) fun m more _ hmore => .pure (hown more m hmore)
    unfold expandScopes
    dsimp only
    split
    · next hdelay =>
      refine .bind (Q := fun m own => n ≤ m ∧ own = [s.placeholder]) (.pure ⟨Nat.le_refl n, rfl⟩) ?_
      rintro k own - ⟨hk, rfl⟩
      exact hrest _ k fun more m hmore => ⟨_, more, k, rfl, hmore, by simp [hdelay, hk]⟩
    · next hdelay =>
      refine .bind (upholds_fetchVariables hholds rules s.reference s.class_) ?_
      rintro k own - ⟨body, ⟨x, asked, answer, hasked, hserved, hshape, hlt⟩, rfl⟩
      refine hrest _ k fun more m hmore => ⟨_, more, k, rfl, hmore, ?_⟩
      rw [if_neg hdelay]
      exact ⟨x, asked, answer, body, hasked, hserved, hshape, hlt, rfl⟩

/-- The contents of a frame are kept by a visit. -/
lemma upholds_frameVariables (thread : Int) (index : Nat) :
    Attempt.Upholds v (Deeds v id (.inspect thread index)) (fun _ _ => True) (frameVariables id thread index) n := by
  refine .bind (upholds_stack hholds thread) ?_
  rintro obtained frames - ⟨source, -, hlast, hgave⟩
  -- only now, with frames in hand, the call looks up the stop under which it will keep their contents
  refine .bind (Q := fun m stop => ∃ checked, m = checked + 1 ∧ obtained ≤ checked ∧ Checked v id thread stop checked)
    (upholds_demand fun m stop hm hturn hstop => ⟨m, rfl, hm, hturn, hstop⟩) ?_
  rintro m stop - ⟨checked, rfl, hle, hchecked⟩
  refine .bind (Q := fun m frame => m = checked + 1 ∧ frames[index]? = some frame)
    (.ofExcept fun frame hframe => ⟨rfl, ?_⟩) ?_
  · unfold frameAt at hframe
    split at hframe
    · next h =>
      obtain rfl := Except.ok.inj hframe
      exact h
    · cases hframe
  rintro m frame - ⟨rfl, hframe⟩
  split
  · exact .pure trivial
  · next hempty =>
    split
    · exact .pure trivial
    · next hreal =>
      refine .bind (upholds_features hholds) ?_
      rintro k features hk ⟨ruled, channel, hruled, hlt, rfl⟩
      refine .bind (upholds_requestAs hholds _ _ _) ?_
      rintro l body hl ⟨x, asked, answer, hasked, hserved, hshape, hanswered⟩
      refine .bind (upholds_expandScopes hholds _ _ l) fun i contents hi hcontents => ?_
      have hruled' : checked < ruled := by omega
      have hasked' : ruled < asked := by omega
      let visit : Visit :=
        { source, frames, frame, stop, checked, rules := .ofFeatures ((v.state ruled).net.channel channel).features, asked,
          exchange := x, body }
      have hvisit : visit.Asked v id thread index :=
        { gave := hgave, last_lt := Nat.lt_of_lt_of_le hlast hle, checked := hchecked, frame := hframe, empty := hempty
          real := by simpa using hreal, checked_lt := Nat.lt_trans hruled' hasked'
          rules := ⟨ruled, channel, hruled', hasked', rfl⟩
          served := ⟨answer, hserved, hshape⟩ }
      exact .bind (Q := fun _ _ => True)
        (upholds_change (.keepsContents thread stop index _ contents) fun j hj _ _ =>
          ⟨⟨rfl, visit, rfl, hvisit, rfl, l, hanswered, hcontents.later v id hj⟩, trivial⟩)
        fun _ _ _ _ => .pure trivial

/-- A step lets its thread go on when the adapter has agreed. -/
lemma upholds_stepThread {action : Action} {chosen : Option Int} {frame : Option Nat} {thread : Int}
    (hchosen : Chosen v id chosen thread n) {command : String} (hother : action ≠ .resume)
    (hreleases : Releases thread action command (ThreadArguments.toJson { threadId := thread })) (detail : String) :
    Attempt.Upholds v (Deeds v id (.perform action chosen frame)) (fun m _ => Resumed v id thread m)
      (stepThread id thread command detail) n := by
  refine .bind (upholds_request hholds _ _) fun m answer hm ⟨x, asked, _, hserved, hlt⟩ => ?_
  refine upholds_resumed (hchosen.later hm) (fun k hk => ?_) detail
  exact ⟨_, _, x, asked, answer, hreleases, hserved, Nat.lt_of_lt_of_le hlt hk, by rw [if_neg hother]⟩

/-- An action that was carried out lets its thread go on at the very end, if it does so at all. -/
lemma upholds_act {action : Action} {chosen : Option Int} {at_ : Option Nat} {thread : Int}
    (hchosen : Chosen v id chosen thread n) (frame : Option Nat) :
    Attempt.Upholds v (Deeds v id (.perform action chosen at_)) (fun m _ => action.resumes = true → Resumed v id thread m)
      (act id thread frame action) n := by
  have hgoes : ∀ {a : DebugWork Unit} {n}, Attempt.Upholds v (Deeds v id (.perform action chosen at_))
      (fun m _ => Resumed v id thread m) a n → Attempt.Upholds v (Deeds v id (.perform action chosen at_))
      (fun m _ => action.resumes = true → Resumed v id thread m) a n := fun h => h.imp fun _ _ _ h _ => h
  cases action with
  | resume =>
    refine .bind (upholds_request hholds _ _) fun m body hm ⟨x, asked, _, hserved, hlt⟩ => ?_
    refine .bind (Q := fun k all => m ≤ k ∧ resumesAll body = .ok all)
      (.ofExcept fun all hall => ⟨Nat.le_refl m, hall⟩) fun k all _ ⟨hmk, hall⟩ => ?_
    refine hgoes (upholds_resumed (hchosen.later (Nat.le_trans hm hmk)) (fun l hl => ?_) "resume")
    exact ⟨_, _, x, asked, body, .resume, hserved, by omega, by rw [if_pos rfl, hall]⟩
  | stepInto => exact hgoes (upholds_stepThread hholds hchosen (by decide) .stepInto _)
  | stepOver => exact hgoes (upholds_stepThread hholds hchosen (by decide) .stepOver _)
  | stepReturn => exact hgoes (upholds_stepThread hholds hchosen (by decide) .stepReturn _)
  | suspend => exact .bind (upholds_request hholds _ _) fun _ _ _ _ => .pure nofun
  | terminate =>
    refine .bind (upholds_features hholds) fun m features _ _ => ?_
    split
    · exact .bind (upholds_request hholds _ _) fun _ _ _ _ => .pure nofun
    · exact .bind (upholds_request hholds _ _) fun _ _ _ _ => .pure nofun
  | dropToFrame =>
    refine .bind (upholds_stack hholds thread) fun m frames hm _ => ?_
    refine .bind (Q := fun k _ => m ≤ k) (.ofExcept fun _ _ => Nat.le_refl m) fun k f _ hmk => ?_
    refine .bind (upholds_request hholds _ _) fun l answer hl ⟨x, asked, _, hserved, hlt⟩ => ?_
    refine hgoes (upholds_resumed (hchosen.later (by omega)) (fun i hi => ?_) "drop_to_frame")
    exact ⟨_, _, x, asked, answer, .dropToFrame f.id, hserved, by omega, by rw [if_neg nofun]⟩

lemma upholds_perform (action : Action) (thread : Option Int) (frame : Option Nat) :
    Attempt.Upholds v (Deeds v id (.perform action thread frame)) (fun m done => done = true → action.resumes = true →
        ∃ i, Chosen v id thread i m ∧ Resumed v id i m)
      (Target.perform id action thread frame) n := by
  refine .bind (Q := fun _ _ => True) (upholds_look fun _ _ _ => trivial) fun m state _ _ => ?_
  split
  · exact .pure nofun
  · -- by the time the action begins it is settled which thread it is about
    have hact : ∀ i k, Chosen v id thread i k →
        Attempt.Upholds v (Deeds v id (.perform action thread frame)) (fun m done => done = true → action.resumes = true →
          ∃ i, Chosen v id thread i m ∧ Resumed v id i m) (do act id i frame action; return true) k :=
      fun i k hchosen => .bind (upholds_act hholds hchosen frame) fun m _ hm hresumed =>
        .pure fun _ hres => ⟨i, hchosen.later hm, hresumed hres⟩
    cases thread with
    | some i => exact .bind (Q := fun _ j => j = i) (.pure rfl) fun k j _ hj => hact j k (.inl (hj ▸ rfl))
    | none =>
      refine .bind (Q := fun m i => ∃ l, l < m ∧ v.turn l ∧ ((v.state l).target id).defaultThread = .ok i)
        (upholds_demand fun l i _ hturn hi => ⟨l, Nat.lt_succ_self l, hturn, hi⟩) ?_
      rintro k i - ⟨l, hl, hturn, hi⟩
      exact hact i k (.inr ⟨rfl, l, hl, hturn, hi⟩)

lemma upholds_refreshThreads :
    Attempt.Upholds v (Deeds v id .refresh) (fun _ _ => True) (refreshThreads id) n :=
  .bind (upholds_requestAs hholds _ _ _) fun _ body _ ⟨x, asked, answer, _, hserved, hshape, hlt⟩ =>
    .bind (Q := fun _ _ => True)
      (upholds_change (.lists body.threads) fun _ hm _ _ =>
        ⟨⟨rfl, x, asked, answer, body, hserved, hshape, rfl, Nat.lt_of_lt_of_le hlt hm⟩, trivial⟩)
      fun _ _ _ _ => upholds_look fun _ _ _ => trivial

/-- A target that was created is launched, or fails to be. -/
lemma upholds_start (root : Option Path) :
    Attempt.Upholds v (Deeds v id (.start root)) (fun _ _ => True) (Target.start id root) n := by
  refine .bind (upholds_beginLaunch root) fun _ _ _ _ => ?_
  refine .bind (Q := fun m launch => ∃ looked, looked < m ∧ v.turn looked ∧ ((v.state looked).target id).launch = launch)
    (upholds_look fun m _ hturn => ⟨m, Nat.lt_succ_self m, hturn, rfl⟩) ?_
  rintro _ launch - ⟨looked, hlooked, hturn, rfl⟩
  refine .bind upholds_sessionOf ?_
  rintro _ session hk ⟨viewed, rfl, -, -, -⟩
  refine .bind (.ofTask (upholds_request hholds _ _)) ?_
  intro l reply hl hreply
  cases reply with
  | ok answer =>
    obtain ⟨x, asked, hasked, hserved, hanswered⟩ := hreply answer rfl
    exact upholds_change .launches fun m hm _ _ =>
      ⟨⟨⟨root, rfl⟩, looked, asked, _, x, answer, hturn, by omega, hserved, by omega⟩, trivial⟩
  | error e =>
    exact .bind (Q := fun _ _ => True) (upholds_change .fails fun _ _ _ _ => ⟨⟨root, rfl⟩, trivial⟩) fun _ _ _ _ => .throw

/-- What is known when a call of some kind has ended: of an action that lets its thread go on, that it did so last. -/
def Call.Done (v : Viewpoint Wait World) (id : Nat) (m : Nat) (done : Bool) : Call → Prop
  | .perform action thread _ => done = true → action.resumes = true → ∃ i, Chosen v id thread i m ∧ Resumed v id i m
  | _ => True

/-- Whatever happens around it, a call does only deeds that are justified. -/
theorem Call.upholds_work (call : Call) (n : Nat) :
    Attempt.Upholds v (Deeds v id call) (fun m done => call.Done v id m done) (call.work id) n := by
  cases call with
  | start root => exact .bind (upholds_start hholds root) fun _ _ _ _ => .pure trivial
  | perform action thread frame => exact upholds_perform hholds action thread frame
  | refresh => exact .bind (upholds_refreshThreads hholds) fun _ _ _ _ => .pure trivial
  | stack thread => exact .bind (upholds_stack hholds thread) fun _ _ _ _ => .pure trivial
  | inspect thread index => exact .bind (upholds_frameVariables hholds thread index) fun _ _ _ _ => .pure trivial

end Calls

/-! ## What happens in a run -/

section Runs

variable {id : Nat} {start : World} {schedule : Nat → Turn}

/-- What work that is left of a call upholds. -/
def Keeps (id : Nat) (start : World) (schedule : Nat → Turn) (i : Nat) (call : Call)
    (work : Task Wait World (Except Fault Bool)) (m : Nat) : Prop :=
  Attempt.Upholds (view id start schedule i) (Deeds (view id start schedule i) id call)
    (fun m done => call.Done (view id start schedule i) id m done) (ExceptT.mk work) m

/-- What a call that is under way was one turn before: it is new, or it has had no step to take, or it has just taken
one. -/
inductive Came (id : Nat) (start : World) (schedule : Nat → Turn) (n i : Nat) (call : Call)
    (work : Task Wait World (Except Fault Bool)) : Prop where
  | new (turn : schedule n = .begins call) (last : (course id start schedule n).calls.length = i)
      (whole : (call.work id).outcome = work)
  | idle (underway : (course id start schedule n).calls[i]? = some (call, work))
      (still : schedule n = .step i → (course id start schedule (n + 1)).world = (course id start schedule n).world)
  | stepped (left : Task Wait World (Except Fault Bool))
      (underway : (course id start schedule n).calls[i]? = some (call, left)) (turn : schedule n = .step i)
      (tick : left.tick? World.holds (course id start schedule n).world
        = some (work, (course id start schedule (n + 1)).world))

/-- These are all the ways in which a call can have come. -/
lemma came {n i : Nat} {call : Call} {work : Task Wait World (Except Fault Bool)}
    (hi : (course id start schedule (n + 1)).calls[i]? = some (call, work)) : Came id start schedule n i call work := by
  have hafter : course id start schedule (n + 1) = (course id start schedule n).after id (schedule n) := rfl
  cases hturn : schedule n with
  | begins other =>
    rw [hafter, hturn] at hi
    simp only [State.after, List.getElem?_append] at hi
    split at hi
    · exact .idle hi fun h => nomatch hturn.symm.trans h
    · next hlength =>
      have hlast : i - (course id start schedule n).calls.length = 0 := by
        by_contra hne
        rw [List.getElem?_eq_none (by simp; omega)] at hi
        cases hi
      obtain ⟨rfl, rfl⟩ := Prod.mk.inj (List.mem_singleton.mp (List.mem_of_getElem? hi))
      exact .new hturn (by omega) rfl
  | step j =>
    rw [hturn] at hafter
    cases hj : (course id start schedule n).calls[j]? with
    | none =>
      simp only [State.after, hj] at hafter
      rw [hafter] at hi
      exact .idle hi fun _ => by rw [hafter]
    | some r =>
      obtain ⟨other, left⟩ := r
      cases htick : left.tick? World.holds (course id start schedule n).world with
      | none =>
        simp only [State.after, hj, htick] at hafter
        rw [hafter] at hi
        exact .idle hi fun _ => by rw [hafter]
      | some r =>
        obtain ⟨left', w⟩ := r
        simp only [State.after, hj, htick] at hafter
        rw [hafter] at hi
        by_cases hji : j = i
        · subst hji
          rw [List.getElem?_set_self (List.getElem?_eq_some_iff.mp hj).1] at hi
          obtain ⟨rfl, rfl⟩ := Prod.mk.inj (Option.some.inj hi)
          exact .stepped left hj hturn (by rw [htick, hafter])
        · rw [List.getElem?_set_ne hji] at hi
          exact .idle hi fun h => absurd (Turn.step.inj (hturn.symm.trans h)) hji
  | event name body | ended | outside world =>
    rw [hafter, hturn] at hi
    exact .idle hi fun h => nomatch hturn.symm.trans h

/-- A call that can take its turn takes one step, and what is left of it upholds what it has to. -/
lemma keeps_step {n m i : Nat} {call : Call} {work work' : Task Wait World (Except Fault Bool)} {w : World}
    (hkeeps : Keeps id start schedule i call work m) (hm : m ≤ n) (hturn : schedule n = .step i)
    (hi : (course id start schedule n).calls[i]? = some (call, work))
    (htick : work.tick? World.holds (course id start schedule n).world = some (work', w)) :
    Keeps id start schedule i call work' (n + 1) ∧
      ((course id start schedule (n + 1)).world = (course id start schedule n).world ∨
        Deeds (view id start schedule i) id call n) := by
  have hworld : (course id start schedule (n + 1)).world = w := by
    show ((course id start schedule n).after id (schedule n)).world = w
    simp only [hturn, State.after, hi, htick]
  exact Task.Upholds.tick hkeeps hm hturn (htick.trans (congrArg (fun w => some (work', w)) hworld.symm))

/-- What is left of a call upholds what it has to. -/
theorem keeps_of_underway (n : Nat) {i : Nat} {call : Call} {work : Task Wait World (Except Fault Bool)}
    (hi : (course id start schedule n).calls[i]? = some (call, work)) :
    ∃ m ≤ n, Keeps id start schedule i call work m := by
  -- a turn is of one call at most, and the others keep the work that they had left
  induction n generalizing call work with
  | zero => cases hi
  | succ n ih =>
    cases came hi with
    | new turn last whole =>
      obtain rfl := whole
      exact ⟨n + 1, Nat.le_refl _, Call.upholds_work rfl call (n + 1)⟩
    | idle underway still =>
      obtain ⟨m, hm, hkeeps⟩ := ih underway
      exact ⟨m, Nat.le_succ_of_le hm, hkeeps⟩
    | stepped left underway turn tick =>
      obtain ⟨m, hm, hkeeps⟩ := ih underway
      exact ⟨n + 1, Nat.le_refl _, (keeps_step hkeeps hm turn underway tick).1⟩

variable (id start) in
/-- The turn of a call: it can go on and takes one step, or nothing changes. -/
lemma stepped_or_still {n i : Nat} (hturn : schedule n = .step i) :
    (∃ call work work', (course id start schedule n).calls[i]? = some (call, work) ∧
        work.tick? World.holds (course id start schedule n).world
          = some (work', (course id start schedule (n + 1)).world)) ∨
      (course id start schedule (n + 1)).world = (course id start schedule n).world := by
  have hafter : course id start schedule (n + 1) = (course id start schedule n).after id (.step i) := by
    rw [← hturn]
    rfl
  cases hi : (course id start schedule n).calls[i]? with
  | none =>
    right
    rw [hafter]
    simp only [State.after, hi]
  | some r =>
    obtain ⟨call, work⟩ := r
    cases htick : work.tick? World.holds (course id start schedule n).world with
    | none =>
      right
      rw [hafter]
      simp only [State.after, hi, htick]
    | some r =>
      obtain ⟨work', w⟩ := r
      left
      refine ⟨call, work, work', rfl, ?_⟩
      rw [htick, hafter]
      simp only [State.after, hi, htick]

/-- What can happen to the target from one time to the next. -/
inductive Happens (id : Nat) (start : World) (schedule : Nat → Turn) (n : Nat) : Prop where
  /-- Nothing happens to it, and nothing is told of its threads. -/
  | aside (more : List Message)
      (targets : (course id start schedule (n + 1)).world.debugger.targets =
        (course id start schedule n).world.debugger.targets)
      (told : (course id start schedule (n + 1)).world.told = (course id start schedule n).world.told ++ more)
      (silent : ∀ m ∈ more, m.isOfThreads id = false)
  | deed (i : Nat) (call : Call) (work : Task Wait World (Except Fault Bool)) (deed : Deed) (turn : schedule n = .step i)
      (underway : (course id start schedule n).calls[i]? = some (call, work))
      (justified : deed.Justified (view id start schedule i) id call n)
      (world : (course id start schedule (n + 1)).world = (course id start schedule n).world.changeTarget id deed.apply)
  | event (name : String) (body : Json) (turn : schedule n = .event name body)
      (world : (course id start schedule (n + 1)).world =
        (course id start schedule n).world.changeTarget id (heard name body))
  | ended (turn : schedule n = .ended)
      (world : (course id start schedule (n + 1)).world = (course id start schedule n).world.changeTarget id terminate)

/-- These are all the things that can happen. -/
theorem happens (id : Nat) (start : World) (schedule : Nat → Turn) (n : Nat) : Happens id start schedule n := by
  have hafter : course id start schedule (n + 1) = (course id start schedule n).after id (schedule n) := rfl
  have hnothing : (course id start schedule (n + 1)).world = (course id start schedule n).world →
      Happens id start schedule n :=
    fun h => .aside [] (by rw [h]) (by rw [h, List.append_nil]) (List.forall_mem_nil _)
  cases hturn : schedule n with
  | begins call =>
    exact hnothing (by rw [hafter, hturn]; rfl)
  | step i =>
    rcases stepped_or_still id start hturn with ⟨call, work, work', hi, htick⟩ | hsame
    · -- this is the only turn for which one has to know what the call is at
      obtain ⟨m, hm, hkeeps⟩ := keeps_of_underway n hi
      rcases (keeps_step hkeeps hm hturn hi htick).2 with hsame | ⟨htargets, htold⟩ | ⟨deed, hjustified, hworld⟩
      · exact hnothing hsame
      · exact .aside [] htargets (htold.trans (List.append_nil _).symm) (List.forall_mem_nil _)
      · exact .deed i call work deed hturn hi hjustified hworld
    · exact hnothing hsame
  | event name body =>
    rw [hturn] at hafter
    exact .event name body hturn (congrArg State.world hafter)
  | ended =>
    rw [hturn] at hafter
    exact .ended hturn (congrArg State.world hafter)
  | outside world =>
    rw [hturn] at hafter
    refine .aside (world.told.filter fun m => !m.isOfThreads id) (by rw [hafter]; rfl) (by rw [hafter]; rfl) fun m hm => ?_
    simpa using (List.mem_filter.mp hm).2

/-- A target that is there is there at all times. -/
theorem present (hpresent : (start.debugger.target? id).isSome = true) (n : Nat) :
    ((course id start schedule n).world.debugger.target? id).isSome = true := by
  induction n with
  | zero => exact hpresent
  | succ n ih =>
    have hchange : ∀ f : Target → Target × List Note, (∀ t, (f t).1.id = t.id) →
        (((course id start schedule n).world.changeTarget id f).debugger.target? id).isSome = true := fun f hid => by
      rw [target?_changeTarget ih (hid _)]
      rfl
    cases happens id start schedule n with
    | aside more targets told silent =>
      simp only [Debugger.target?, targets]
      exact ih
    | deed i call work deed turn underway justified world =>
      rw [world]
      exact hchange _ deed.id_apply
    | event name body turn world =>
      rw [world]
      exact hchange _ fun t => (moves_process t name body).1
    | ended turn world =>
      rw [world]
      exact hchange _ fun t => (moves_terminate t).1

/-- What is left of the target where only others changed. -/
lemma target_of_aside {n : Nat}
    (h : (course id start schedule (n + 1)).world.debugger.targets = (course id start schedule n).world.debugger.targets) :
    (course id start schedule (n + 1)).target id = (course id start schedule n).target id := by
  simp only [State.target, World.target, Debugger.target, Debugger.target?, h]

/-- What a change makes of the target. -/
lemma target_of_change (hpresent : (start.debugger.target? id).isSome = true) {n : Nat} {f : Target → Target × List Note}
    (hid : ∀ t, (f t).1.id = t.id)
    (h : (course id start schedule (n + 1)).world = (course id start schedule n).world.changeTarget id f) :
    (course id start schedule (n + 1)).target id = (f ((course id start schedule n).target id)).1 := by
  simp only [State.target, h]
  exact target_changeTarget (present hpresent n) (hid _)

end Runs

end Switchboard.Debug.Target.Course
