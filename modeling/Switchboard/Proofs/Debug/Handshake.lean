import Switchboard.Proofs.Channel.Traffic
import Switchboard.Proofs.Debug.Board
import Switchboard.Proofs.Debug.Telling

/-!
# The steps of the handshake

When an adapter has said that it is initialized it is asked one thing after the other: to take the breakpoints of each
file, to take the exception filters, and, if it wants to hear of it, to note that the configuration is done.

* `Item`, `agenda`: what is asked, and all of it in order;
* `Place`: how far the handling got, between requests or at a stage of one;
* `Place.work`, `Place.next`: what is left to do at a place, and one step of it;
* `tick_work`: a step of the work is a step from place to place;
* `eq_starting_of_starts`: only where a request is to start is the work left one that starts with a request;
* `upcoming_of_next`: what is yet to be asked stays the same between requests.
-/

namespace Switchboard

namespace Network.Request

variable {c : ChannelId} {r : Request} {n n' : Network}

lemma Stage.ended_or_live (stage : Stage) : (∃ reply, stage = .ended reply) ∨ ∀ reply, stage ≠ .ended reply := by
  cases stage with
  | ended reply => exact .inl ⟨reply, rfl⟩
  | _ => exact .inr fun _ hended => nomatch hended

/-- Stages in the order in which a request passes through them. -/
def Stage.rank : Stage → Nat
  | starting => 0
  | enrolling => 1
  | verifying _ _ => 2
  | posting _ _ => 3
  | timing _ _ => 4
  | waiting _ _ _ _ => 5
  | fetching _ _ _ => 6
  | withdrawing _ _ _ => 7
  | ended _ => 8

/-- A request goes on to later stages alone. -/
lemma rank_lt_of_next {k k' : Stage} (h : k.next c r n = some (k', n')) : k.rank < k'.rank := by
  cases k with
  | starting | verifying id ticket =>
    obtain ⟨rfl, -⟩ := Prod.mk.inj (Option.some.inj h)
    split <;> simp only [Stage.rank, Nat.reduceLT]
  | enrolling | timing id ticket | withdrawing id ticket fault =>
    obtain ⟨rfl, -⟩ := Prod.mk.inj (Option.some.inj h)
    simp only [Stage.rank, Nat.reduceLT]
  | posting id ticket | waiting id ticket limit deadline | fetching id ticket limit =>
    simp only [Stage.next] at h
    split at h <;> cases h <;> simp only [Stage.rank, Nat.reduceLT]
  | ended result => cases h

/-- A number is taken after the first look at the channel. -/
lemma eq_starting_of_next {k : Stage} (h : k.next c r n = some (.enrolling, n')) : k = .starting := by
  have hrank := rank_lt_of_next h
  cases k with
  | starting => rfl
  | _ => simp [Stage.rank] at hrank

/-- No request starts again. -/
lemma ne_starting_of_next {k k' : Stage} (h : k.next c r n = some (k', n')) : k' ≠ .starting := by
  rintro rfl
  exact Nat.not_lt_zero _ (rank_lt_of_next h)

/-- A request that has not ended rests only until it is answered or its time is over. -/
lemma waiting_of_next_eq_none {k : Stage} (hlive : ∀ reply, k ≠ .ended reply) (h : k.next c r n = none) :
    ∃ id ticket limit deadline, k = .waiting id ticket limit deadline ∧
      Wait.holds (.answer c ticket deadline) n = false := by
  cases k with
  | starting | enrolling | verifying id ticket | timing id ticket | withdrawing id ticket fault => cases h
  | posting id ticket | fetching id ticket limit =>
    simp only [Stage.next] at h
    split at h <;> cases h
  | waiting id ticket limit deadline =>
    simp only [Stage.next] at h
    split at h
    · cases h
    · next hnot => exact ⟨id, ticket, limit, deadline, rfl, Bool.eq_false_iff.mpr hnot⟩
  | ended reply => exact absurd rfl (hlive reply)

end Network.Request

namespace Debug.Handshake

open Network (Request)
open Network.Request (Stage)

/-! ## What is asked -/

/-- What an adapter is asked when it has said that it is initialized. -/
inductive Item where
  /-- To take the breakpoints of a file. -/
  | file (path : Path)
  /-- To take the exception filters. -/
  | exceptions
  /-- To note that the configuration is done. -/
  | done

/-- The command by which it is asked. -/
def Item.command : Item → String
  | file _ => "setBreakpoints"
  | exceptions => "setExceptionBreakpoints"
  | done => "configurationDone"

/-- Arguments with which it may be asked. -/
def Item.Suits (arguments : Json) : Item → Prop
  | file path => ∃ l, arguments = Sync.fileArguments path l
  | exceptions => ∃ filters, arguments = SetExceptionBreakpointsArguments.toJson { filters }
  | done => arguments = .null

/-- The request for an item. -/
def Item.request (item : Item) (arguments : Json) : Request := { method := item.command, params := arguments }

/-- The last item, for an adapter that wants to hear of the end. -/
def closing (wanted : Bool) : List Item := if wanted then [.done] else []

/-- All that is asked, in order. -/
def agenda (files : List Path) (wanted : Bool) : List Item := files.map .file ++ .exceptions :: closing wanted

/-! ## Places -/

/-- How far the handling got, between requests. -/
inductive Pause where
  /-- Before the files are listed. -/
  | listing
  /-- Before the first of these files, or before the exceptions if there is none left. -/
  | sending (files : List Path)
  /-- Before it is looked up what there is to send for a file. -/
  | reading (path : Path) (rest : List Path)
  /-- Before it is recorded what was answered for a file. -/
  | recording (ids : List Nat) (responses : List BreakpointResponse) (rest : List Path)
  /-- Before the session is looked up. -/
  | turning
  /-- Before it is looked up whether the adapter wants to hear of the end. -/
  | deciding (session : Session)
  /-- Before the session becomes ready. -/
  | readying (session : Session)
  | finished

/-- A request of the handling, with what is needed to go on when its outcome is there. -/
inductive Matter where
  | file (path : Path) (ids : List Nat) (rest : List Path)
  | exceptions
  | done (session : Session)

/-- What is asked. -/
def Matter.item : Matter → Item
  | file path _ _ => .file path
  | exceptions => .exceptions
  | done _ => .done

/-- Where the handling goes on. -/
def Matter.goOn : Matter → Except Channel.Fault Json → Pause
  | file _ ids rest, reply =>
    match Session.reading SetBreakpointsBody.shape "setBreakpoints" reply with
    | .ok body => .recording ids body.breakpoints rest
    | .error _ => .sending rest
  | exceptions, _ => .turning
  | done session, _ => .readying session

/-- How far the handling got. -/
inductive Place where
  | between (p : Pause)
  | asking (m : Matter) (c : ChannelId) (arguments : Json) (stage : Stage)

variable (s : SessionId)

/-- What is left when files are to be sent yet. -/
def sendingWork (files : List Path) : Task Wait World Unit :=
  (Task.forEach (Sync.fileWith s) files).andThen fun _ => (Sync.exceptionsWith s).andThen fun _ => finishing s

/-- A request for an item, and work that goes on with its outcome. -/
def askingWork (item : Item) (c : ChannelId) (arguments : Json) (k : Except Channel.Fault Json → Task Wait World Unit) :
    Task Wait World Unit :=
  (World.onNet (Network.request c item.command arguments).outcome).andThen k

/-- What is left when it was answered for a file, or the request failed. -/
def heardWork (ids : List Nat) (rest : List Path) : Except Fault SetBreakpointsBody → Task Wait World Unit
  | .ok body => .access (fun w => w.verify ids body.breakpoints) fun _ => sendingWork s rest
  | .error _ => sendingWork s rest

/-- What is left to do between requests. -/
def Pause.work : Pause → Task Wait World Unit
  | listing => Running.configure s
  | sending files => sendingWork s files
  | reading path rest => .access id fun w =>
    askingWork (.file path) (w.debugger.session s).channel
      (Sync.fileArguments path ((w.debugger.sourceBreakpoints path).map (·.2))) fun reply =>
        heardWork s ((w.debugger.sourceBreakpoints path).map (·.1)) rest
          (Session.reading SetBreakpointsBody.shape "setBreakpoints" reply)
  | recording ids responses rest => .access (fun w => w.verify ids responses) fun _ => sendingWork s rest
  | turning => finishing s
  | deciding session => (World.call session.finishConfiguration).outcome.andThen fun _ => .done ()
  | readying session => .access (readied session.channel) fun _ => .done ()
  | finished => .done ()

/-- One step, if there is something left to do. -/
def Pause.next (w : World) : Pause → Option (Place × World)
  | listing => some (.between (.sending (w.debugger.filesFor (w.debugger.session s).language)), w)
  | sending [] =>
    let c := (w.debugger.session s).channel
    let filters := Session.exceptionFilters (w.channel c).features w.debugger.exceptionFlags.1 w.debugger.exceptionFlags.2
    some (.asking .exceptions c (SetExceptionBreakpointsArguments.toJson { filters }) .starting, w)
  | sending (path :: rest) => some (.between (.reading path rest), w.relocate path)
  | reading path rest =>
    let l := w.debugger.sourceBreakpoints path
    some (.asking (.file path (l.map (·.1)) rest) (w.debugger.session s).channel
      (Sync.fileArguments path (l.map (·.2))) .starting, w)
  | recording ids responses rest => some (.between (.sending rest), w.verify ids responses)
  | turning => some (.between (.deciding (w.debugger.session s)), w)
  | deciding session =>
    some (if session.wantsConfigurationDone (w.channel session.channel).features
      then .asking (.done session) session.channel .null .starting else .between (.readying session), w)
  | readying session => some (.between .finished, readied session.channel w)
  | finished => none

/-- The place of a request at a stage; one that has ended is left behind. -/
def resume (m : Matter) (c : ChannelId) (arguments : Json) : Stage → Place
  | .ended reply => .between (m.goOn reply)
  | stage => .asking m c arguments stage

/-- What is left to do at a place. -/
def Place.work : Place → Task Wait World Unit
  | between p => p.work s
  | asking m c arguments stage =>
    (World.onNet (stage.work c (m.item.request arguments))).andThen fun reply => (m.goOn reply).work s

/-- One step from place to place, if there is one. -/
def Place.next (w : World) : Place → Option (Place × World)
  | between p => p.next s w
  | asking m _ _ (.ended reply) => (m.goOn reply).next s w
  | asking m c arguments stage =>
    (stage.next c (m.item.request arguments) w.net).map fun r => (resume m c arguments r.1, { w with net := r.2 })

/-! ## Steps -/

variable {s}

lemma work_resume (m : Matter) (c : ChannelId) (arguments : Json) (stage : Stage) :
    (resume m c arguments stage).work s =
      (World.onNet (stage.work c (m.item.request arguments))).andThen fun reply => (m.goOn reply).work s := by
  cases stage <;> rfl

lemma work_goOn_file (path : Path) (ids : List Nat) (rest : List Path) (reply : Except Channel.Fault Json) :
    ((Matter.file path ids rest).goOn reply).work s =
      heardWork s ids rest (Session.reading SetBreakpointsBody.shape "setBreakpoints" reply) := by
  simp only [Matter.goOn]
  cases Session.reading SetBreakpointsBody.shape "setBreakpoints" reply <;> rfl

/-- The next file is sent after a look at what there is to send. -/
lemma sendingWork_cons (path : Path) (rest : List Path) :
    sendingWork s (path :: rest) = .access (fun w => w.relocate path) fun _ => (Pause.reading path rest).work s := by
  have hfile : Sync.fileWith s path = .access (fun w => w.relocate path) fun _ => .access id fun w =>
      (World.call ((w.debugger.session s).requestAs SetBreakpointsBody.shape "setBreakpoints"
        (Sync.fileArguments path ((w.debugger.sourceBreakpoints path).map (·.2))))).outcome.andThen fun outcome =>
          match outcome with
          | .ok body => Task.modify fun v => v.verify ((w.debugger.sourceBreakpoints path).map (·.1)) body.breakpoints
          | .error _ => .done () := rfl
  -- the loop with its first round written out; what is left is to put the rest of it behind the request
  show ((Sync.fileWith s path).andThen _).andThen _ = _
  rw [hfile]
  simp only [Task.andThen, Pause.work]
  congr 1
  funext _
  congr 1
  funext w
  rw [Session.outcome_call_requestAs_andThen, Task.andThen_assoc, Task.andThen_assoc]
  show (World.onNet _).andThen _ = (World.onNet _).andThen _
  congr 1
  funext reply
  cases Session.reading SetBreakpointsBody.shape "setBreakpoints" reply <;> rfl

/-- When no file is left the exceptions are sent. -/
lemma sendingWork_nil : sendingWork s [] = .access id fun w =>
    askingWork .exceptions (w.debugger.session s).channel
      (SetExceptionBreakpointsArguments.toJson {
        filters := Session.exceptionFilters (w.channel (w.debugger.session s).channel).features
          w.debugger.exceptionFlags.1 w.debugger.exceptionFlags.2 }) fun _ => finishing s := by
  have hexceptions : sendingWork s [] = .access id fun w =>
      ((World.call ((w.debugger.session s).request "setExceptionBreakpoints"
        (SetExceptionBreakpointsArguments.toJson {
          filters := Session.exceptionFilters (w.channel (w.debugger.session s).channel).features
            w.debugger.exceptionFlags.1 w.debugger.exceptionFlags.2 }))).outcome.andThen fun _ => .done ()).andThen
              fun _ => finishing s := rfl
  rw [hexceptions]
  congr 1
  funext w
  rw [Session.outcome_call_request_andThen, Task.andThen_assoc]
  rfl

/-- At the end it is looked up whether the adapter wants to hear of it. -/
lemma work_deciding (session : Session) :
    (Pause.deciding session).work s = .access id fun w =>
      if session.wantsConfigurationDone (w.channel session.channel).features then
        askingWork .done session.channel .null fun _ => (Pause.readying session).work s
      else (Pause.readying session).work s := by
  show (World.onNet session.finishConfiguration.outcome).andThen _ = _
  rw [outcome_finishConfiguration]
  show Task.access _ _ = Task.access id _
  congr 1
  funext w
  show (World.onNet (if session.wantsConfigurationDone (w.channel session.channel).features then _ else _)).andThen _ = _
  by_cases hwanted : session.wantsConfigurationDone (w.channel session.channel).features = true
  · rw [if_pos hwanted, if_pos hwanted, World.onNet, Task.zoom_andThen, Task.andThen_assoc]
    show (World.call (session.request "configurationDone" .null)).outcome.andThen _ = _
    rw [Session.outcome_call_request_andThen]
    rfl
  · rw [if_neg hwanted, if_neg hwanted]
    rfl

/-- The files are listed at the beginning. -/
lemma configure_eq : Running.configure s = .access id fun w =>
    sendingWork s (w.debugger.filesFor (w.debugger.session s).language) := by
  have hlists : Running.configure s = .access id fun w =>
      ((Task.forEach (Sync.fileWith s) (w.debugger.filesFor (w.debugger.session s).language)).andThen fun _ =>
        Sync.exceptionsWith s).andThen fun _ => finishing s := rfl
  rw [hlists]
  congr 1
  funext w
  rw [Task.andThen_assoc]
  rfl

/-- A step of the work left between requests leads to the next place. -/
lemma tick_pause (p : Pause) (w : World) :
    (p.work s).tick? World.holds w = (p.next s w).map fun r => (r.1.work s, r.2) := by
  cases p with
  | listing =>
    rw [Pause.work, configure_eq]
    rfl
  | sending files =>
    cases files with
    | nil =>
      rw [Pause.work, sendingWork_nil]
      rfl
    | cons path rest =>
      rw [Pause.work, sendingWork_cons]
      rfl
  | reading path rest =>
    -- what was answered is read first, and either way the next file follows
    have hgoOn : (fun reply => heardWork s ((w.debugger.sourceBreakpoints path).map (·.1)) rest
        (Session.reading SetBreakpointsBody.shape "setBreakpoints" reply)) =
          fun reply => ((Matter.file path ((w.debugger.sourceBreakpoints path).map (·.1)) rest).goOn reply).work s :=
      funext fun reply => (work_goOn_file path _ rest reply).symm
    show some (askingWork _ _ _ fun reply => heardWork s _ rest _, w) = _
    rw [hgoOn]
    rfl
  | recording ids responses rest => rfl
  | turning => rfl
  | deciding session =>
    rw [work_deciding]
    simp only [Pause.next, Task.tick?, Option.map_some]
    by_cases hwanted : session.wantsConfigurationDone (w.channel session.channel).features = true
    · rw [if_pos hwanted, if_pos hwanted]
      rfl
    · rw [if_neg hwanted, if_neg hwanted]
      rfl
  | readying session => rfl
  | finished => rfl

/-- A request that has not ended goes on by its own steps. -/
lemma next_asking (m : Matter) (c : ChannelId) (arguments : Json) {stage : Stage}
    (hlive : ∀ reply, stage ≠ .ended reply) (w : World) :
    (Place.asking m c arguments stage).next s w = (stage.next c (m.item.request arguments) w.net).map fun r =>
      (resume m c arguments r.1, { w with net := r.2 }) := by
  cases stage with
  | ended reply => exact absurd rfl (hlive reply)
  | _ => rfl

/-- A step at a request is one after its end, or one of its own. -/
lemma next_asking_cases {m : Matter} {c : ChannelId} {arguments : Json} {stage : Stage} {p' : Place} {w w' : World}
    (h : (Place.asking m c arguments stage).next s w = some (p', w')) :
    (∃ reply, stage = .ended reply ∧ (m.goOn reply).next s w = some (p', w')) ∨
      (∀ reply, stage ≠ .ended reply) ∧ ∃ stage', stage.next c (m.item.request arguments) w.net = some (stage', w'.net) ∧
        p' = resume m c arguments stage' ∧ w' = { w with net := w'.net } := by
  rcases stage.ended_or_live with ⟨reply, rfl⟩ | hlive
  · exact .inl ⟨reply, rfl, h⟩
  · rw [next_asking m c arguments hlive] at h
    obtain ⟨⟨stage', net⟩, hnext, heq⟩ := Option.map_eq_some_iff.mp h
    obtain ⟨rfl, rfl⟩ := Prod.mk.inj heq
    exact .inr ⟨hlive, stage', hnext, rfl, rfl⟩

/-- A step of the work that is left at a place leads to the work that is left at the next one. -/
theorem tick_work (p : Place) (w : World) :
    (p.work s).tick? World.holds w = (p.next s w).map fun r => (r.1.work s, r.2) := by
  cases p with
  | between p => exact tick_pause p w
  | asking m c arguments stage =>
    rcases stage.ended_or_live with ⟨reply, rfl⟩ | hlive
    · exact tick_pause (m.goOn reply) w
    · have hleft : (World.onNet (stage.work c (m.item.request arguments))).result? = none := by
        cases stage with
        | ended reply => exact absurd rfl (hlive reply)
        | _ => rfl
      rw [next_asking m c arguments hlive, Place.work, Task.tick?_andThen hleft, World.tick?_onNet, Request.tick_work,
        Option.map_map, Option.map_map, Option.map_map]
      congr 1
      funext r
      simp only [Function.comp, work_resume]

lemma finished_of_next_eq_none {p : Pause} {w : World} (h : p.next s w = none) : p = .finished := by
  cases p with
  | finished => rfl
  | sending files => cases files <;> cases h
  | _ => cases h

/-! ## Where requests start -/

lemma nextId_setPhase (ch : Channel) (phase : Phase) : (ch.setPhase phase).nextId = ch.nextId := by
  unfold Channel.setPhase
  split <;> rfl

lemma net_relocate (w : World) (path : Path) : (w.relocate path).net = w.net := by
  unfold World.relocate
  dsimp only
  split <;> rfl

/-- Between requests the network changes in the last step alone, when the session becomes ready. -/
lemma net_of_next {p : Pause} {p' : Place} {w w' : World} (h : p.next s w = some (p', w')) :
    (w'.net = w.net ∧ p' ≠ .between .finished) ∨
      ∃ session, p = .readying session ∧ p' = .between .finished ∧ w' = readied session.channel w := by
  cases p with
  | sending files =>
    cases files with
    | nil =>
      obtain ⟨rfl, rfl⟩ := Prod.mk.inj (Option.some.inj h)
      exact .inl ⟨rfl, nofun⟩
    | cons path rest =>
      obtain ⟨rfl, rfl⟩ := Prod.mk.inj (Option.some.inj h)
      exact .inl ⟨net_relocate w path, nofun⟩
  | readying session =>
    obtain ⟨rfl, rfl⟩ := Prod.mk.inj (Option.some.inj h)
    exact .inr ⟨session, rfl, rfl, rfl⟩
  | finished => cases h
  | deciding session =>
    obtain ⟨rfl, rfl⟩ := Prod.mk.inj (Option.some.inj h)
    refine .inl ⟨rfl, ?_⟩
    split <;> nofun
  | listing | reading path rest | recording ids responses rest | turning =>
    obtain ⟨rfl, rfl⟩ := Prod.mk.inj (Option.some.inj h)
    exact .inl ⟨rfl, nofun⟩

/-- Nor does it take a number. -/
lemma nextId_of_next {p : Pause} {p' : Place} {w w' : World} (h : p.next s w = some (p', w')) (c : ChannelId) :
    (w'.channel c).nextId = (w.channel c).nextId := by
  rcases net_of_next h with ⟨hnet, -⟩ | ⟨session, -, -, rfl⟩
  · rw [World.channel, World.channel, hnet]
  · rcases Network.channel_update_cases w.net session.channel (·.setPhase .ready) c with hsame | ⟨-, hready⟩
    · exact congrArg Channel.nextId hsame
    · exact (congrArg Channel.nextId hready).trans (nextId_setPhase _ _)

/-- A step that takes a number is that of a request that has just started. -/
lemma eq_enrolling_of_next {p p' : Place} {w w' : World} (h : p.next s w = some (p', w')) {c : ChannelId}
    (hnumber : (w'.channel c).nextId ≠ (w.channel c).nextId) :
    ∃ m d arguments, p = .asking m d arguments .enrolling := by
  cases p with
  | between p => exact absurd (nextId_of_next h c) hnumber
  | asking m d arguments stage =>
    rcases next_asking_cases h with ⟨reply, rfl, hpause⟩ | ⟨-, stage', hnext, -, -⟩
    · exact absurd (nextId_of_next hpause c) hnumber
    · obtain ⟨f, hf, -, hid, -⟩ := Request.next_changes hnext
      by_cases henrolling : stage = .enrolling
      · exact ⟨m, d, arguments, by rw [henrolling]⟩
      · rw [World.channel, hf] at hnumber
        rcases Network.channel_update_cases w.net d f c with hsame | ⟨-, hchanged⟩
        · exact absurd (congrArg Channel.nextId hsame) hnumber
        · exact absurd ((congrArg Channel.nextId hchanged).trans (hid henrolling _)) hnumber

/-- Requests begin at the beginning. -/
lemma starting_of_next {p : Pause} {w w' : World} {m : Matter} {c : ChannelId} {arguments : Json} {stage : Stage}
    (h : p.next s w = some (.asking m c arguments stage, w')) : stage = .starting := by
  cases p with
  | sending files =>
    cases files with
    | nil =>
      obtain ⟨hplace, -⟩ := Prod.mk.inj (Option.some.inj h)
      cases hplace
      rfl
    | cons path rest => cases congrArg Prod.fst (Option.some.inj h)
  | reading path rest =>
    obtain ⟨hplace, -⟩ := Prod.mk.inj (Option.some.inj h)
    cases hplace
    rfl
  | deciding session =>
    obtain ⟨hplace, -⟩ := Prod.mk.inj (Option.some.inj h)
    split at hplace
    · cases hplace
      rfl
    · cases hplace
  | listing | recording ids responses rest | turning | readying session =>
    cases congrArg Prod.fst (Option.some.inj h)
  | finished => cases h

lemma resume_of_live (m : Matter) (c : ChannelId) (arguments : Json) {stage : Stage}
    (hlive : ∀ reply, stage ≠ .ended reply) : resume m c arguments stage = .asking m c arguments stage := by
  cases stage with
  | ended reply => exact absurd rfl (hlive reply)
  | _ => rfl

lemma eq_of_resume {m m' : Matter} {c c' : ChannelId} {arguments arguments' : Json} {stage stage' : Stage}
    (h : resume m c arguments stage = .asking m' c' arguments' stage') :
    m = m' ∧ c = c' ∧ arguments = arguments' ∧ stage = stage' := by
  cases stage with
  | ended reply => cases h
  | _ => exact Place.asking.inj h

/-- Before a number is taken the request starts. -/
lemma eq_starting_of_next {p : Place} {w w' : World} {m : Matter} {c : ChannelId} {arguments : Json}
    (h : p.next s w = some (.asking m c arguments .enrolling, w')) : p = .asking m c arguments .starting := by
  cases p with
  | between p => cases starting_of_next h
  | asking m' c' arguments' stage =>
    rcases next_asking_cases h with ⟨reply, rfl, hpause⟩ | ⟨-, stage', hnext, hresume, -⟩
    · cases starting_of_next hpause
    · obtain ⟨rfl, rfl, rfl, rfl⟩ := eq_of_resume hresume.symm
      rw [Request.eq_starting_of_next hnext]

/-- The work is one that starts with a request. -/
def Starts (work : Task Wait World Unit) : Prop :=
  ∃ (c : ChannelId) (r : Request) (k : Except Channel.Fault Json → Task Wait World Unit),
    work = (World.onNet (Network.requestUntil c r.method r.params r.latest).outcome).andThen k

/-- A world in which a channel is open. -/
def openWorld (c : ChannelId) : World := { net := { channels := List.replicate (c + 1) {} } }

/-- Only where a request is to start is the work left one that starts with a request. -/
theorem eq_starting_of_starts {p : Place} (h : Starts (p.work s)) :
    ∃ m c arguments, p = .asking m c arguments .starting := by
  obtain ⟨c, r, k, hwork⟩ := h
  -- on an open channel the second step of a request takes a number
  have hc : c < (openWorld c).net.channels.length := by simp [openWorld]
  have hopen : ((openWorld c).net.channel c).isOpen = true := by
    simp [openWorld, Network.channel, Channel.isOpen]
  have hfirst : (p.work s).tick? World.holds (openWorld c) =
      some ((World.onNet (Stage.enrolling.work c r)).andThen k, openWorld c) := by
    have hstart : (World.onNet (Stage.starting.work c r)).result? = none := rfl
    rw [hwork]
    show ((World.onNet (Stage.starting.work c r)).andThen k).tick? World.holds (openWorld c) = _
    rw [Task.tick?_andThen hstart, World.tick?_onNet, Request.tick_work, Stage.next, if_pos hopen]
    rfl
  have hsecond : ((World.onNet (Stage.enrolling.work c r)).andThen k).tick? World.holds (openWorld c) =
      some ((World.onNet ((Stage.verifying ((openWorld c).net.updateWith c Channel.enroll).1.1
        ((openWorld c).net.updateWith c Channel.enroll).1.2).work c r)).andThen k,
          { openWorld c with net := ((openWorld c).net.updateWith c Channel.enroll).2 }) := by
    have hleft : (World.onNet (Stage.enrolling.work c r)).result? = none := rfl
    rw [Task.tick?_andThen hleft, World.tick?_onNet, Request.tick_work]
    rfl
  rw [tick_work] at hfirst
  obtain ⟨⟨p', w'⟩, hnext, heq⟩ := Option.map_eq_some_iff.mp hfirst
  obtain ⟨hwork', rfl⟩ := Prod.mk.inj heq
  rw [← hwork', tick_work] at hsecond
  obtain ⟨⟨p'', w''⟩, hnext', heq'⟩ := Option.map_eq_some_iff.mp hsecond
  obtain ⟨-, rfl⟩ := Prod.mk.inj heq'
  have hnumber : (((openWorld c).net.updateWith c Channel.enroll).2.channel c).nextId ≠
      ((openWorld c).net.channel c).nextId := by
    rw [Network.channel_updateWith hc]
    show Channel.following _ ≠ _
    unfold Channel.following
    split <;> omega
  obtain ⟨m, d, arguments, rfl⟩ := eq_enrolling_of_next hnext' hnumber
  exact ⟨m, d, arguments, eq_starting_of_next hnext⟩

/-! ## What is yet to be asked -/

/-- What is asked after a request, of an adapter that wants to hear of the end or one that does not. -/
def Matter.rest (wanted : Bool) : Matter → List Item
  | file _ _ rest => agenda rest wanted
  | exceptions => closing wanted
  | done _ => []

/-- What is yet to be asked. -/
def Pause.upcoming (wanted : Bool) : Pause → List Item
  | listing => []
  | sending files => agenda files wanted
  | reading path rest => agenda (path :: rest) wanted
  | recording _ _ rest => agenda rest wanted
  | turning | deciding _ => closing wanted
  | readying _ | finished => []

/-- What is yet to be asked, and what is being asked. -/
def Place.upcoming (wanted : Bool) : Place → List Item
  | between p => p.upcoming wanted
  | asking m _ _ _ => m.item :: m.rest wanted

/-- It is decided whether the adapter is to hear of the end. -/
def Matter.isLate : Matter → Bool
  | done _ => true
  | _ => false

/-- It is decided whether the adapter is to hear of the end. -/
def Pause.isLate : Pause → Bool
  | readying _ | finished => true
  | _ => false

/-- It is decided whether the adapter is to hear of the end. -/
def Place.isLate : Place → Bool
  | between p => p.isLate
  | asking m _ _ _ => m.isLate

/-- The files are listed, and the session that is held is the one of the handling. -/
def Pause.IsOf (own : Session) : Pause → Prop
  | listing => False
  | deciding session | readying session => session.unserved = own.unserved
  | _ => True

/-- The session that is held is the one of the handling. -/
def Matter.IsOf (own : Session) : Matter → Prop
  | done session => session.unserved = own.unserved
  | _ => True

/-- The same, and what is asked is asked of that session. -/
def Place.IsOf (own : Session) : Place → Prop
  | between p => p.IsOf own
  | asking m c arguments _ => m.IsOf own ∧ c = own.channel ∧ m.item.Suits arguments

lemma upcoming_goOn (m : Matter) (reply : Except Channel.Fault Json) (wanted : Bool) :
    (m.goOn reply).upcoming wanted = m.rest wanted := by
  cases m with
  | file path ids rest =>
    simp only [Matter.goOn]
    cases Session.reading SetBreakpointsBody.shape "setBreakpoints" reply <;> rfl
  | exceptions | done session => rfl

lemma isLate_goOn (m : Matter) (reply : Except Channel.Fault Json) : (m.goOn reply).isLate = m.isLate := by
  cases m with
  | file path ids rest =>
    simp only [Matter.goOn]
    cases Session.reading SetBreakpointsBody.shape "setBreakpoints" reply <;> rfl
  | exceptions | done session => rfl

lemma isOf_goOn {m : Matter} {own : Session} (h : m.IsOf own) (reply : Except Channel.Fault Json) :
    (m.goOn reply).IsOf own := by
  cases m with
  | file path ids rest =>
    simp only [Matter.goOn]
    cases Session.reading SetBreakpointsBody.shape "setBreakpoints" reply <;> trivial
  | exceptions => trivial
  | done session => exact h

lemma goOn_ne_finished (m : Matter) (reply : Except Channel.Fault Json) : m.goOn reply ≠ .finished := by
  cases m with
  | file path ids rest =>
    simp only [Matter.goOn]
    cases Session.reading SetBreakpointsBody.shape "setBreakpoints" reply <;> nofun
  | exceptions | done session => nofun

/-- The handling rests only when it is finished, or while a request waits. -/
lemma rests_of_next_eq_none {s : SessionId} {p : Place} {w : World} (h : p.next s w = none) :
    p = .between .finished ∨ ∃ m c arguments id ticket limit deadline,
      p = .asking m c arguments (.waiting id ticket limit deadline) ∧ World.holds (.answer c ticket deadline) w = false := by
  cases p with
  | between p =>
    obtain rfl := finished_of_next_eq_none h
    exact .inl rfl
  | asking m c arguments stage =>
    rcases stage.ended_or_live with ⟨reply, rfl⟩ | hlive
    · exact absurd (finished_of_next_eq_none (p := m.goOn reply) h) (goOn_ne_finished m reply)
    · rw [next_asking m c arguments hlive] at h
      obtain ⟨id, ticket, limit, deadline, rfl, hopen⟩ :=
        Request.waiting_of_next_eq_none hlive (Option.map_eq_none_iff.mp h)
      exact .inr ⟨m, c, arguments, id, ticket, limit, deadline, rfl, hopen⟩

/-- Only the last item is asked when it is decided whether the adapter is to hear of the end. -/
lemma item_eq_done_iff (m : Matter) : m.item = .done ↔ m.isLate = true := by
  cases m with
  | file path ids rest | exceptions => exact ⟨nofun, nofun⟩
  | done session => exact ⟨fun _ => rfl, fun _ => rfl⟩

lemma language_eq {x own : Session} (h : x.unserved = own.unserved) : x.language = own.language := by
  show x.unserved.language = own.unserved.language
  rw [h]

lemma channel_eq {x own : Session} (h : x.unserved = own.unserved) : x.channel = own.channel := by
  show x.unserved.channel = own.unserved.channel
  rw [h]

lemma wantsConfigurationDone_eq {x own : Session} (h : x.unserved = own.unserved) (f : Features) :
    x.wantsConfigurationDone f = own.wantsConfigurationDone f := by
  have hadapter : x.unserved.adapter = own.unserved.adapter := by rw [h]
  exact congrArg (fun adapter : Settings.Adapter => adapter.configurationDone.getD _) hadapter

/-- A step between requests keeps what is yet to be asked, and one of them decides whether the adapter is to hear of the
end. -/
lemma upcoming_of_next {s : SessionId} {own : Session} {p : Pause} {p' : Place} {w w' : World} (hp : p.IsOf own)
    (hsession : (w.debugger.session s).unserved = own.unserved) (h : p.next s w = some (p', w')) :
    p'.IsOf own ∧
      ((p'.isLate = p.isLate ∧ ∀ wanted, p'.upcoming wanted = p.upcoming wanted) ∨
        p.isLate = false ∧ p'.isLate = true ∧
          ∀ wanted, wanted = own.wantsConfigurationDone (w.channel own.channel).features →
            p'.upcoming wanted = p.upcoming wanted) := by
  cases p with
  | listing => cases hp
  | sending files =>
    cases files with
    | nil =>
      obtain ⟨rfl, rfl⟩ := Prod.mk.inj (Option.some.inj h)
      exact ⟨⟨trivial, channel_eq hsession, _, rfl⟩, .inl ⟨rfl, fun _ => rfl⟩⟩
    | cons path rest =>
      obtain ⟨rfl, rfl⟩ := Prod.mk.inj (Option.some.inj h)
      exact ⟨trivial, .inl ⟨rfl, fun _ => rfl⟩⟩
  | reading path rest =>
    obtain ⟨rfl, rfl⟩ := Prod.mk.inj (Option.some.inj h)
    exact ⟨⟨trivial, channel_eq hsession, _, rfl⟩, .inl ⟨rfl, fun _ => rfl⟩⟩
  | recording ids responses rest =>
    obtain ⟨rfl, rfl⟩ := Prod.mk.inj (Option.some.inj h)
    exact ⟨trivial, .inl ⟨rfl, fun _ => rfl⟩⟩
  | turning =>
    obtain ⟨rfl, rfl⟩ := Prod.mk.inj (Option.some.inj h)
    exact ⟨hsession, .inl ⟨rfl, fun _ => rfl⟩⟩
  | deciding session =>
    -- the one step after which the plan is that of an adapter that does, or does not, want to hear of the end
    obtain ⟨rfl, rfl⟩ := Prod.mk.inj (Option.some.inj h)
    rw [wantsConfigurationDone_eq hp, channel_eq hp]
    cases hwanted : own.wantsConfigurationDone (w.channel own.channel).features with
    | true => exact ⟨⟨hp, rfl, rfl⟩, .inr ⟨rfl, rfl, fun wanted hw => by subst hw; rfl⟩⟩
    | false => exact ⟨hp, .inr ⟨rfl, rfl, fun wanted hw => by subst hw; rfl⟩⟩
  | readying session =>
    obtain ⟨rfl, rfl⟩ := Prod.mk.inj (Option.some.inj h)
    exact ⟨trivial, .inl ⟨rfl, fun _ => rfl⟩⟩
  | finished => cases h

end Debug.Handshake

end Switchboard
