import Switchboard.Proofs.Debug.Errands

/-!
# Calls and the handshake in any order

* `State`, `Action`, `perform`, `trace`: one session with any number of calls on breakpoints and the handling of
  its adapter's `initialized`, in any order of their steps from wait to wait;
* `State.Agrees`: the adapter was told last what it should know about a topic;
* `Rests.step?`: one step of a call that has made its change;
* `Stage.step?`: one step of the handshake;
* `Held`: the session stays, its channel stays open, and breakpoints are in known files.
-/

namespace Switchboard.Debug.Convergence

open Breakpoint (Catalog)
open Errand (works)

/-! ## Runs -/

/-- The world, calls with what is left to do of them, and what is left to do of the handshake. -/
structure State where
  world : World
  calls : List (Task Wait World Unit) := []
  handshake : Task Wait World Unit := .done ()

/-- Whose turn it is, and what is new. -/
inductive Action where
  | call (call : Editing.Call)
  /-- The `initialized` of the adapter is taken up. -/
  | initialized (body : Json)
  | step (i : Nat)
  | stepHandshake
  /-- Anything else happens: in the world, to the channel, and with messages about something else. -/
  | outside (world : World) (channel : Channel) (others : List Json)

/-- A message with one of the two names under which an adapter is told about topics. -/
def isAboutTopics (message : Json) : Bool :=
  ["setBreakpoints", "setExceptionBreakpoints"].any fun name =>
    (message.get? "command").bind Json.asStr? = some name

/-- A phase that something else leads to: only the handshake makes a session ready, and the channel stays open. -/
def phaseAfter (old new : Phase) : Phase :=
  if old = .ready ∨ new = .ready ∨ new = .closed then old else new

variable (s : SessionId) (own : Session)

/-- The world when something else has happened; catalog and sessions stay as they are. -/
def elsewhere (w world : World) (channel : Channel) (others : List Json) : World :=
  { world with
    net := ({ w.net with now := world.net.now } : Network).update own.channel fun ch =>
      { channel with
        phase := phaseAfter ch.phase channel.phase, features := ch.features, dialect := ch.dialect
        outputBroken := ch.outputBroken
        outgoing := ch.outgoing ++ others.filter fun message => !isAboutTopics message }
    debugger :=
      { world.debugger with
        breakpoints := w.debugger.breakpoints, sources := w.debugger.sources, sessions := w.debugger.sessions
        current := w.debugger.current } }

/-- One action; what is not possible changes nothing. -/
def State.perform (st : State) : Action → State
  | .call call => { st with calls := st.calls ++ [call.work] }
  | .initialized body =>
    -- the events of an adapter are taken up one after the other
    if st.handshake.result?.isSome then { st with handshake := Running.handleEvent s ⟨"initialized", body⟩ } else st
  | .step i =>
    match st.calls[i]? with
    | none => st
    | some work =>
      match work.step? World.holds st.world with
      | none => st
      | some (work, world) => { st with world, calls := st.calls.set i work }
  | .stepHandshake =>
    match st.handshake.step? World.holds st.world with
    | none => st
    | some (handshake, world) => { st with world, handshake }
  | .outside world channel others => { st with world := elsewhere own st.world world channel others }

/-- A run of one session: where it starts, and whose turn it is when. -/
structure Run where
  session : SessionId
  own : Session
  start : World
  schedule : Nat → Action

/-- The state after `n` actions. -/
def Run.state (r : Run) : Nat → State
  | 0 => { world := r.start }
  | n + 1 => (r.state n).perform r.session r.own (r.schedule n)

/-! ## What is told and what should be known -/

/-- All that the adapter was told about a topic, in order. -/
def State.told (st : State) (t : Topic) : List (List Json) := t.told (st.world.channel own.channel)

/-- What the adapter should know about a topic. -/
def State.wanted (st : State) (t : Topic) : List Json := t.wanted st.world own.channel

/-- The adapter was told last what it should know; one that was told nothing knows of no breakpoint. -/
def State.Agrees (st : State) (t : Topic) : Prop := (st.told own t).getLast?.getD [] = st.wanted own t

/-- The session is ready. -/
def State.IsReady (st : State) : Prop := (st.world.channel own.channel).phase = .ready

/-- All calls are over. -/
def State.IsQuiet (st : State) : Prop := ∀ work ∈ st.calls, work.result?.isSome = true

namespace Run

variable (r : Run)

/-- The adapter is told about the topic in an action. -/
def TellsAt (t : Topic) (m : Nat) : Prop := (r.state (m + 1)).told r.own t ≠ (r.state m).told r.own t

/-- A file, with its project, that has a breakpoint at first or may get one in the first `n` actions. -/
def Known (n : Nat) (f : String × Path) : Prop :=
  (∃ b ∈ r.start.debugger.breakpoints.entries, Catalog.fileOf? b = some f) ∨
    ∃ m < n, ∃ call, r.schedule m = .call call ∧ f ∈ call.new

/-- The topic concerns the session: exceptions, or a file of its language or of none that is known. -/
def Concerns (n : Nat) (t : Topic) : Prop :=
  ∀ f, r.Known n f → (Topic.file f.2).Same t → Running.Admits r.start.debugger r.own.language f

/-- The handshake begins, and the files are listed. -/
def BeginsAt (m : Nat) : Prop :=
  r.schedule m = .stepHandshake ∧
    ∃ body, (r.state m).handshake = Running.handleEvent r.session ⟨"initialized", body⟩

end Run

section Proofs

variable {s : SessionId} {own : Session} {r : Run}

/-! ## Steps that tell nothing -/

/-- A step that tells about no topic and changes none. -/
def Silent (c : ChannelId) (w w' : World) : Prop :=
  ∃ said, Step c (fun _ => False) [] said w w' ∧ ∀ message ∈ said, ∀ t : Topic, t.told? message = none

lemma Silent.told_eq {c : ChannelId} {w w' : World} (h : Silent c w w') (t : Topic) :
    t.told (w'.channel c) = t.told (w.channel c) := by
  obtain ⟨said, hstep, hsaid⟩ := h
  have hnothing : (said.filterMap fun message => t.told? message) = [] := by
    rw [List.filterMap_eq_nil_iff]
    intro message hmessage
    exact hsaid message hmessage t
  rw [hstep.told_eq, hnothing, List.append_nil]

lemma Silent.wanted_eq {c : ChannelId} {w w' : World} (h : Silent c w w') (hsound : Catalog.Sound w.debugger.breakpoints)
    (t : Topic) : t.wanted w' c = t.wanted w c := by
  obtain ⟨said, hstep, -⟩ := h
  exact hstep.wanted_eq hsound not_false

lemma silent_of_step {c : ChannelId} {w w' : World} (h : Step c (fun _ => False) [] [] w w') : Silent c w w' :=
  ⟨[], h, nofun⟩

/-- A message with another name is about no topic. -/
lemma told?_of_not_isAboutTopics {message : Json} (h : isAboutTopics message = false) (t : Topic) :
    t.told? message = none := by
  have hother : ∀ name ∈ ["setBreakpoints", "setExceptionBreakpoints"], Topic.argumentsOf? name message = none := by
    intro name hname
    rw [Topic.argumentsOf?, if_neg]
    intro heq
    have hany : isAboutTopics message = true := List.any_eq_true.mpr ⟨name, hname, decide_eq_true heq⟩
    rw [h] at hany
    cases hany
  cases t with
  | file path =>
    rw [Topic.told?, hother _ (by decide)]
    rfl
  | exceptions =>
    rw [Topic.told?, hother _ (by decide)]
    rfl

lemma channel_elsewhere {w : World} (hw : Serves s own w) (world : World) (channel : Channel) (others : List Json) :
    (elsewhere own w world channel others).channel own.channel
      = { channel with
          phase := phaseAfter (w.channel own.channel).phase channel.phase
          features := (w.channel own.channel).features, dialect := (w.channel own.channel).dialect
          outputBroken := (w.channel own.channel).outputBroken
          outgoing := (w.channel own.channel).outgoing ++ others.filter fun message => !isAboutTopics message } :=
  Network.channel_update (n := { w.net with now := world.net.now }) hw.present _

lemma silent_elsewhere {w : World} (hw : Serves s own w) (world : World) (channel : Channel) (others : List Json) :
    Silent own.channel w (elsewhere own w world channel others) := by
  refine ⟨others.filter fun message => !isAboutTopics message, ?_, ?_⟩
  · refine ⟨rfl, rfl, rfl, List.length_modify .., ?_, ?_, ?_, ?_, .refl hw.sound⟩ <;> rw [channel_elsewhere hw]
  · intro message hmessage t
    have hother := (List.mem_filter.mp hmessage).2
    rw [Bool.not_eq_true'] at hother
    exact told?_of_not_isAboutTopics hother t

/-! ## One step for one topic -/

/-- What a step of the world does to a topic: nothing, or the adapter is told what it should know. -/
inductive Fate (c : ChannelId) (t : Topic) (w w' : World) : Prop where
  | kept (told : t.told (w'.channel c) = t.told (w.channel c)) (wanted : t.wanted w' c = t.wanted w c)
  | told (h : t.told (w'.channel c) = t.told (w.channel c) ++ [t.wanted w' c])

lemma Silent.fate {c : ChannelId} {w w' : World} (h : Silent c w w') (hsound : Catalog.Sound w.debugger.breakpoints)
    (t : Topic) : Fate c t w w' :=
  .kept (h.told_eq t) (h.wanted_eq hsound t)

lemma fate_of_sends {c : ChannelId} {u : Topic} {w w' : World} (h : Sends c u w w')
    (hsound : Catalog.Sound w.debugger.breakpoints) (t : Topic) : Fate c t w w' := by
  by_cases hsame : u.Same t
  · exact .told (h.told_eq hsame)
  · exact .kept (h.told_eq_of_not_same hsame) (h.wanted_eq hsound hsame)

/-! ## Calls under way -/

/-- What is left of a call: errands, perhaps after an answer. -/
inductive Rests (c : ChannelId) (es : List Errand) : Task Wait World Unit → Prop where
  | errands : Rests c es (works es)
  | answer {k : Task Wait World Unit} (h : Awaiting c (Quiet c) k) : Rests c es (k.andThen fun _ => works es)

/-- A call that is over has no errands left. -/
lemma Rests.eq_nil {c : ChannelId} {es : List Errand} {work : Task Wait World Unit} (h : Rests c es work)
    (hover : work.result?.isSome = true) : es = [] := by
  cases h with
  | errands =>
    cases es with
    | nil => rfl
    | cons e rest =>
      rw [works, Task.forEach, Errand.work_eq] at hover
      cases hover
  | answer h =>
    obtain ⟨on, next, rfl, -⟩ := h
    cases hover

/-- One step of a call that has made its change. -/
inductive Rests.Next (s : SessionId) (own : Session) (w w' : World) (es : List Errand) (work' : Task Wait World Unit) : Prop where
  | quiet (world : Quiet own.channel w w') (rests : Rests own.channel es work')
  | sends (e : Errand) (rest : List Errand) (errands : es = e :: rest) (world : Sends own.channel e.topic w w')
      (ready : (w.channel own.channel).phase = .ready) (rests : Rests own.channel rest work')
  | skips (e : Errand) (rest : List Errand) (errands : es = e :: rest) (world : w' = w)
      (passed : ¬ ((w.channel own.channel).phase = .ready ∧ e.Concerns w own)) (rests : Rests own.channel rest work')

lemma Rests.step? {es : List Errand} {work work' : Task Wait World Unit} {w w' : World}
    (h : Rests own.channel es work) (hw : Serves s own w) (hopen : (w.channel own.channel).isOpen = true)
    (hstep : work.step? World.holds w = some (work', w')) : Rests.Next s own w w' es work' := by
  cases h with
  | errands =>
    cases es with
    | nil => cases hstep
    | cons e rest =>
      rcases Errand.step_works hw hopen e rest with ⟨hskip, hpassed⟩ | ⟨k, w₁, hsend, hready, hawaiting, hsends⟩
      · rw [hskip] at hstep
        obtain ⟨rfl, rfl⟩ := Prod.mk.inj (Option.some.inj hstep)
        exact .skips e rest rfl rfl hpassed .errands
      · rw [hsend] at hstep
        obtain ⟨rfl, rfl⟩ := Prod.mk.inj (Option.some.inj hstep)
        exact .sends e rest rfl hsends hready (.answer hawaiting)
  | answer h =>
    rcases h.step? (works es) hw.present hw.sound with hnone | ⟨w₁, hquiet, hsome⟩
    · rw [hnone] at hstep
      cases hstep
    · rw [hsome, Errand.stretch_works] at hstep
      obtain ⟨rfl, rfl⟩ := Prod.mk.inj (Option.some.inj hstep)
      exact .quiet hquiet .errands

/-- Some of the errands are left. -/
lemma Rests.Next.left {w w' : World} {es : List Errand} {work' : Task Wait World Unit}
    (h : Rests.Next s own w w' es work') : ∃ left, (∀ e ∈ left, e ∈ es) ∧ Rests own.channel left work' := by
  cases h with
  | quiet _ hrests => exact ⟨es, fun _ he => he, hrests⟩
  | sends e rest hes _ _ hrests => exact ⟨rest, fun _ he => hes ▸ List.mem_cons_of_mem _ he, hrests⟩
  | skips e rest hes _ _ hrests => exact ⟨rest, fun _ he => hes ▸ List.mem_cons_of_mem _ he, hrests⟩

/-- A call that begins makes its change. -/
lemma step?_work (call : Editing.Call) (w : World) :
    call.work.step? World.holds w = none ∨
      call.work.step? World.holds w = some (works (call.change w).1, (call.change w).2) := by
  have hstep : call.work.step? World.holds w = none ∨ call.work.step? World.holds w = some (call.work.stretch w) := by
    cases call with
    | add project path line column =>
      by_cases hline : line = 0
      · subst hline
        exact .inl rfl
      · refine .inr ?_
        rw [Editing.Call.work, Editing.addBreakpoint, if_neg hline]
        rfl
    | edit id edits => exact .inr rfl
    | clear => exact .inr rfl
    | setException caught uncaught => exact .inr rfl
  rwa [Editing.Call.stretch_work] at hstep

/-! ## The handshake under way -/

/-- How far the handshake is. -/
inductive Stage where
  | idle
  | fresh
  /-- The adapter answers, and topics are left to tell about. -/
  | telling (topics : List Topic)
  | ending

/-- What is left to do of the handshake. -/
def Stage.Describes (s : SessionId) (c : ChannelId) (handshake : Task Wait World Unit) : Stage → Prop
  | idle => handshake = .done ()
  | fresh => ∃ body, handshake = Running.handleEvent s ⟨"initialized", body⟩
  | telling topics => ∃ k, Awaiting c (Quiet c) k ∧
      handshake = k.andThen fun _ => (Running.telling s topics).andThen fun _ => finishing s
  | ending => Awaiting c (Readies c) handshake

/-- One step of the handshake. -/
inductive Stage.Next (s : SessionId) (own : Session) (w w' : World) (handshake' : Task Wait World Unit) : Stage → Prop where
  | begins (t : Topic) (rest : List Topic) (listed : Running.topicsFor w own.language = t :: rest)
      (world : Sends own.channel t w w') (left : (telling rest).Describes s own.channel handshake') :
    Stage.Next s own w w' handshake' fresh
  | tells (t : Topic) (rest : List Topic) (world : Sends own.channel t w w')
      (left : (telling rest).Describes s own.channel handshake') : Stage.Next s own w w' handshake' (telling (t :: rest))
  | asks (world : Silent own.channel w w') (phase : (w'.channel own.channel).phase = (w.channel own.channel).phase)
      (left : ending.Describes s own.channel handshake') : Stage.Next s own w w' handshake' (telling [])
  | ends {stage : Stage} (told : stage = telling [] ∨ stage = ending) (world : Silent own.channel w w')
      (ready : (w'.channel own.channel).phase = .ready) (left : idle.Describes s own.channel handshake') :
    Stage.Next s own w w' handshake' stage

namespace Stage

variable {handshake handshake' : Task Wait World Unit} {w w' : World}

lemma step?_fresh (hw : Serves s own w) (hopen : (w.channel own.channel).isOpen = true)
    (h : fresh.Describes s own.channel handshake) (hstep : handshake.step? World.holds w = some (handshake', w')) :
    Next s own w w' handshake' fresh := by
  obtain ⟨body, rfl⟩ := h
  have hbegin : (Running.handleEvent s ⟨"initialized", body⟩).step? World.holds w
      = some ((Running.configure s).stretch w) := rfl
  rw [hbegin, Running.stretch_configure hw] at hstep
  cases htopics : Running.topicsFor w own.language with
  | nil => cases List.append_eq_nil_iff.mp htopics |>.2
  | cons t rest =>
    obtain ⟨k, w₁, hk, hawaiting, hsends⟩ := Running.stretch_telling hw hopen t rest (finishing s)
    rw [htopics, hk] at hstep
    obtain ⟨rfl, rfl⟩ := Prod.mk.inj (Option.some.inj hstep)
    exact .begins t rest htopics hsends ⟨k, hawaiting, rfl⟩

lemma step?_telling {topics : List Topic} (hw : Serves s own w) (hopen : (w.channel own.channel).isOpen = true)
    (h : (telling topics).Describes s own.channel handshake)
    (hstep : handshake.step? World.holds w = some (handshake', w')) : Next s own w w' handshake' (telling topics) := by
  obtain ⟨k, hk, rfl⟩ := h
  -- the answer is taken in, and in the same step the next topic is told about or the handshake ends
  rcases hk.step? ((Running.telling s topics).andThen fun _ => finishing s) hw.present hw.sound with
    hnone | ⟨w₁, hquiet, hsome⟩
  · rw [hnone] at hstep
    cases hstep
  rw [hsome] at hstep
  have hw₁ := hquiet.1.serves hw
  have hopen₁ : (w₁.channel own.channel).isOpen = true := by
    rw [Channel.isOpen, hquiet.2]
    exact hopen
  cases topics with
  | cons t rest =>
    obtain ⟨k', w₂, hk', hawaiting, hsends⟩ := Running.stretch_telling hw₁ hopen₁ t rest (finishing s)
    rw [hk'] at hstep
    obtain ⟨rfl, rfl⟩ := Prod.mk.inj (Option.some.inj hstep)
    exact .tells t rest (hquiet.sends hsends) ⟨k', hawaiting, rfl⟩
  | nil =>
    have hfinish : ((Running.telling s []).andThen fun _ => finishing s) = finishing s := rfl
    rw [hfinish] at hstep
    rcases stretch_finishing hw₁ hopen₁ with ⟨w₂, hdone, hreadies⟩ | ⟨k', w₂, said, hasked, hawaiting, hsaid, huntold, hphase⟩
    · rw [hdone] at hstep
      obtain ⟨rfl, rfl⟩ := Prod.mk.inj (Option.some.inj hstep)
      exact .ends (.inl rfl) (silent_of_step (hquiet.readies hreadies).1) (hreadies.2 hopen₁) rfl
    · rw [hasked] at hstep
      obtain ⟨rfl, rfl⟩ := Prod.mk.inj (Option.some.inj hstep)
      have hsilent : Silent own.channel w w₂ := by
        refine ⟨[said], hquiet.1.trans hsaid, fun message hmessage t => ?_⟩
        rw [List.mem_singleton.mp hmessage]
        exact huntold t
      exact .asks hsilent (hphase.trans hquiet.2) hawaiting

lemma step?_ending (hw : Serves s own w) (hopen : (w.channel own.channel).isOpen = true)
    (h : ending.Describes s own.channel handshake)
    (hstep : handshake.step? World.holds w = some (handshake', w')) : Next s own w w' handshake' ending := by
  have h : Awaiting own.channel (Readies own.channel) handshake := h
  have hlast : (handshake.andThen fun _ => .done ()) = handshake := Task.andThen_done handshake
  rcases h.step? (.done ()) hw.present hw.sound with hnone | ⟨w₁, hreadies, hsome⟩
  · rw [hlast, hstep] at hnone
    cases hnone
  · rw [hlast, hstep] at hsome
    obtain ⟨rfl, rfl⟩ := Prod.mk.inj (Option.some.inj hsome)
    exact .ends (.inr rfl) (silent_of_step hreadies.1) (hreadies.2 hopen) rfl

/-- The handshake leaves the channel open. -/
lemma Next.step {stage : Stage} (h : Next s own w w' handshake' stage) :
    (∃ touched said, Step own.channel touched [] said w w') ∧
      ((w.channel own.channel).isOpen = true → (w'.channel own.channel).isOpen = true) := by
  have hsame (hphase : (w'.channel own.channel).phase = (w.channel own.channel).phase) :
      (w.channel own.channel).isOpen = true → (w'.channel own.channel).isOpen = true := by
    rw [Channel.isOpen, Channel.isOpen, hphase]
    exact id
  cases h with
  | begins t rest _ hsends _ =>
    obtain ⟨⟨message, hstep, -⟩, hphase⟩ := hsends
    exact ⟨⟨_, _, hstep⟩, hsame hphase⟩
  | tells t rest hsends _ =>
    obtain ⟨⟨message, hstep, -⟩, hphase⟩ := hsends
    exact ⟨⟨_, _, hstep⟩, hsame hphase⟩
  | asks hsilent hphase _ =>
    obtain ⟨said, hstep, -⟩ := hsilent
    exact ⟨⟨_, _, hstep⟩, hsame hphase⟩
  | ends _ hsilent hready _ =>
    obtain ⟨said, hstep, -⟩ := hsilent
    refine ⟨⟨_, _, hstep⟩, fun _ => ?_⟩
    rw [Channel.isOpen, hready]
    rfl

lemma Next.fate {stage : Stage} (h : Next s own w w' handshake' stage) (hsound : Catalog.Sound w.debugger.breakpoints)
    (t : Topic) : Fate own.channel t w w' := by
  cases h with
  | begins u rest _ hsends _ => exact fate_of_sends hsends hsound t
  | tells u rest hsends _ => exact fate_of_sends hsends hsound t
  | asks hsilent _ _ => exact hsilent.fate hsound t
  | ends _ hsilent _ _ => exact hsilent.fate hsound t

/-- The next stage; a session that is ready stays so. -/
lemma Next.later {stage : Stage} (h : Next s own w w' handshake' stage) :
    (∃ next : Stage, next.Describes s own.channel handshake') ∧
      ((w.channel own.channel).phase = .ready → (w'.channel own.channel).phase = .ready) := by
  cases h with
  | begins t rest _ hsends hleft => exact ⟨⟨_, hleft⟩, hsends.2.trans⟩
  | tells t rest hsends hleft => exact ⟨⟨_, hleft⟩, hsends.2.trans⟩
  | asks _ hphase hleft => exact ⟨⟨_, hleft⟩, hphase.trans⟩
  | ends _ _ hready hleft => exact ⟨⟨_, hleft⟩, fun _ => hready⟩

/-- The handshake goes on from stage to stage. -/
theorem step? {stage : Stage} (hw : Serves s own w) (hopen : (w.channel own.channel).isOpen = true)
    (h : stage.Describes s own.channel handshake) (hstep : handshake.step? World.holds w = some (handshake', w')) :
    Next s own w w' handshake' stage := by
  cases stage with
  | idle =>
    have h : handshake = .done () := h
    rw [h] at hstep
    cases hstep
  | fresh => exact step?_fresh hw hopen h hstep
  | telling topics => exact step?_telling hw hopen h hstep
  | ending => exact step?_ending hw hopen h hstep

end Stage

/-! ## One action -/

/-- What an action that is not about the handshake does. -/
inductive Turn (own : Session) (a : Action) (st st' : State) : Prop where
  | idle (world : st'.world = st.world) (calls : st'.calls = st.calls)
  | places (call : Editing.Call) (placed : a = .call call) (world : st'.world = st.world)
      (calls : st'.calls = st.calls ++ [call.work])
  | steps (i : Nat) (work work' : Task Wait World Unit) (old : st.calls[i]? = some work)
      (step : work.step? World.holds st.world = some (work', st'.world)) (calls : st'.calls = st.calls.set i work')
  | outside (world : World) (channel : Channel) (others : List Json)
      (elsewhere : st'.world = elsewhere own st.world world channel others) (calls : st'.calls = st.calls)

/-- One action, if it is not about the handshake. -/
lemma turn (st : State) {a : Action} (ha : a ≠ .stepHandshake) : Turn own a st (st.perform s own a) := by
  cases a with
  | call call => exact .places call rfl rfl rfl
  | initialized body =>
    unfold State.perform
    dsimp only
    split
    · exact .idle rfl rfl
    · exact .idle rfl rfl
  | step i =>
    unfold State.perform
    dsimp only
    split
    · exact .idle rfl rfl
    · next work hwork =>
      split
      · exact .idle rfl rfl
      · next work' world hstep => exact .steps i work work' hwork hstep rfl
  | stepHandshake => exact absurd rfl ha
  | outside world channel others => exact .outside world channel others rfl rfl

/-- One step of the handshake, if it can go on. -/
lemma turn_stepHandshake (st : State) :
    st.perform s own .stepHandshake = st ∨
      st.handshake.step? World.holds st.world
          = some ((st.perform s own .stepHandshake).handshake, (st.perform s own .stepHandshake).world) ∧
        (st.perform s own .stepHandshake).calls = st.calls := by
  unfold State.perform
  dsimp only
  split
  · exact .inl rfl
  · next handshake world hstep => exact .inr ⟨hstep, rfl⟩

/-- Another action leaves the handshake as it is, unless it is taken up anew. -/
lemma handshake_perform (st : State) {a : Action} (ha : a ≠ .stepHandshake) :
    (st.perform s own a).handshake = st.handshake ∨
      st.handshake.result?.isSome = true ∧ Stage.fresh.Describes s own.channel (st.perform s own a).handshake := by
  cases a with
  | call call => exact .inl rfl
  | initialized body =>
    unfold State.perform
    dsimp only
    split
    · next hover => exact .inr ⟨hover, body, rfl⟩
    · exact .inl rfl
  | step i =>
    refine .inl ?_
    unfold State.perform
    dsimp only
    split
    · rfl
    · split <;> rfl
  | stepHandshake => exact absurd rfl ha
  | outside world channel others => exact .inl rfl

/-- The stage is the same after another action, or the handshake is taken up anew. -/
lemma Stage.Describes.stays {st : State} {stage : Stage} (h : stage.Describes s own.channel st.handshake) {a : Action}
    (ha : a ≠ .stepHandshake) :
    stage.Describes s own.channel (st.perform s own a).handshake ∨
      stage = idle ∧ fresh.Describes s own.channel (st.perform s own a).handshake := by
  rcases @handshake_perform s own st a ha with hsame | ⟨hover, hfresh⟩
  · rw [hsame]
    exact .inl h
  · refine .inr ⟨?_, hfresh⟩
    cases stage with
    | idle => rfl
    | fresh =>
      obtain ⟨body, hbody⟩ := h
      rw [hbody] at hover
      cases hover
    | telling topics =>
      obtain ⟨k, ⟨on, next, rfl, -⟩, hk⟩ := h
      rw [hk] at hover
      cases hover
    | ending =>
      obtain ⟨on, next, hwait, -⟩ := h
      rw [hwait] at hover
      cases hover

/-! ## What stays the same -/

namespace Run

/-- A call that has not begun, or one that has made its change. -/
inductive Underway (r : Run) (n : Nat) : Task Wait World Unit → Prop where
  | fresh (call : Editing.Call) (m : Nat) (hm : m < n) (placed : r.schedule m = .call call) :
    r.Underway n call.work
  | rests (es : List Errand) {work : Task Wait World Unit} (h : Rests r.own.channel es work)
      (known : ∀ e ∈ es, ∀ f, e.file? = some f → r.Known n f) : r.Underway n work

/-- What holds at every time: the session stays on an open channel, breakpoints are in known files, and so are those
that calls still have to tell about. -/
structure Held (r : Run) (n : Nat) : Prop where
  serves : Serves r.session r.own (r.state n).world
  opened : ((r.state n).world.channel r.own.channel).isOpen = true
  sources : (r.state n).world.debugger.sources = r.start.debugger.sources
  files : ∀ b ∈ (r.state n).world.debugger.breakpoints.entries, ∀ f, Catalog.fileOf? b = some f → r.Known n f
  calls : ∀ work ∈ (r.state n).calls, r.Underway n work

lemma Known.mono {m n : Nat} {f : String × Path} (h : r.Known m f) (hmn : m ≤ n) : r.Known n f := by
  rcases h with hfirst | ⟨l, hl, hlater⟩
  · exact .inl hfirst
  · exact .inr ⟨l, Nat.lt_of_lt_of_le hl hmn, hlater⟩

lemma Underway.mono {m n : Nat} {work : Task Wait World Unit} (h : r.Underway m work) (hmn : m ≤ n) : r.Underway n work := by
  cases h with
  | fresh call l hl hplaced => exact .fresh call l (Nat.lt_of_lt_of_le hl hmn) hplaced
  | rests es hrests hknown => exact .rests es hrests fun e he f hf => (hknown e he f hf).mono hmn

/-- One step of a call under way: its change, or some of what is left after it. -/
inductive Stride (r : Run) (n : Nat) (w w' : World) (work' : Task Wait World Unit) : Prop where
  | changes (call : Editing.Call) (es : List Errand) (owes : call.Owes r.own.channel w es w')
      (new : ∀ f ∈ call.new, r.Known n f) (left : work' = works es) : r.Stride n w w' work'
  | goes (es : List Errand) (next : Rests.Next r.session r.own w w' es work')
      (known : ∀ e ∈ es, ∀ f, e.file? = some f → r.Known n f) : r.Stride n w w' work'

namespace Held

variable {n : Nat}

/-- A call that goes on makes its change, whenever that comes, or has made it before. -/
lemma progress (h : r.Held n) (hroom : (r.state n).world.debugger.breakpoints.nextId + 1 < Catalog.idLimit)
    {work work' : Task Wait World Unit} {w' : World} (hwork : work ∈ (r.state n).calls)
    (hstep : work.step? World.holds (r.state n).world = some (work', w')) :
    (∃ (call : Editing.Call) (es : List Errand), call.Owes r.own.channel (r.state n).world es w' ∧
        (∀ f ∈ call.new, r.Known n f) ∧ work' = works es) ∨
      ∃ es, Rests r.own.channel es work ∧ ∀ e ∈ es, ∀ f, e.file? = some f → r.Known n f := by
  cases h.calls work hwork with
  | fresh call l hl hplaced =>
    have hnew : ∀ f ∈ call.new, r.Known n f := fun f hf => .inr ⟨l, hl, call, hplaced, hf⟩
    rcases step?_work call (r.state n).world with hnone | hsome
    · rw [hnone] at hstep
      cases hstep
    · rw [hsome] at hstep
      obtain ⟨rfl, rfl⟩ := Prod.mk.inj (Option.some.inj hstep)
      exact .inl ⟨call, _, Editing.Call.owes_change r.own.channel h.serves.sound hroom call, hnew, rfl⟩
  | rests es hrests hknown => exact .inr ⟨es, hrests, hknown⟩

lemma stride (h : r.Held n) (hroom : (r.state n).world.debugger.breakpoints.nextId + 1 < Catalog.idLimit)
    {work work' : Task Wait World Unit} {w' : World} (hwork : work ∈ (r.state n).calls)
    (hstep : work.step? World.holds (r.state n).world = some (work', w')) :
    r.Stride n (r.state n).world w' work' := by
  rcases h.progress hroom hwork hstep with ⟨call, es, howes, hnew, hleft⟩ | ⟨es, hrests, hknown⟩
  · exact .changes call es howes hnew hleft
  · exact .goes es (hrests.step? h.serves h.opened hstep) hknown

/-- What stays is what a step leaves alone. -/
lemma of_step (h : r.Held n) {touched : Topic → Prop} {new : List (String × Path)} {said : List Json}
    (hstep : Step r.own.channel touched new said (r.state n).world (r.state (n + 1)).world)
    (hnew : ∀ f ∈ new, r.Known n f)
    (hopen : ((r.state (n + 1)).world.channel r.own.channel).isOpen = true)
    (hcalls : ∀ work ∈ (r.state (n + 1)).calls, r.Underway (n + 1) work) : r.Held (n + 1) where
  serves := hstep.serves h.serves
  opened := hopen
  sources := hstep.sources.trans h.sources
  files b hb f hf := by
    rcases hstep.change.files b hb f hf with hmem | ⟨a, ha, haf⟩
    · exact (hnew f hmem).mono (Nat.le_succ n)
    · exact (h.files a ha f haf).mono (Nat.le_succ n)
  calls := hcalls

/-- A call that has gone on is still known of. -/
lemma underway_set (h : r.Held n) (i : Nat) {work' : Task Wait World Unit} (hwork' : r.Underway (n + 1) work') :
    ∀ work ∈ (r.state n).calls.set i work', r.Underway (n + 1) work := by
  intro work hwork
  rcases List.mem_or_eq_of_mem_set hwork with hold | rfl
  · exact (h.calls work hold).mono (Nat.le_succ n)
  · exact hwork'

end Held

/-- The world after an action: the channel is open and ready as before, and what is new comes from a call. -/
structure Follows (r : Run) (n : Nat) (w w' : World) : Prop where
  step : ∃ touched new said, Step r.own.channel touched new said w w' ∧ ∀ f ∈ new, r.Known n f
  opened : (w.channel r.own.channel).isOpen = true → (w'.channel r.own.channel).isOpen = true
  ready : (w'.channel r.own.channel).phase = .ready ↔ (w.channel r.own.channel).phase = .ready

lemma Follows.of_phase {n : Nat} {w w' : World} {touched : Topic → Prop} {new : List (String × Path)} {said : List Json}
    (hstep : Step r.own.channel touched new said w w') (hnew : ∀ f ∈ new, r.Known n f)
    (hphase : (w'.channel r.own.channel).phase = (w.channel r.own.channel).phase) : r.Follows n w w' where
  step := ⟨touched, new, said, hstep, hnew⟩
  opened := by
    rw [Channel.isOpen, Channel.isOpen, hphase]
    exact id
  ready := by rw [hphase]

lemma Follows.refl {w : World} (hsound : Catalog.Sound w.debugger.breakpoints) (n : Nat) : r.Follows n w w :=
  have hstay : Step r.own.channel (fun _ => False) [] [] w w := .refl hsound
  .of_phase hstay (List.forall_mem_nil _) rfl

lemma Stride.follows {n : Nat} {w w' : World} {work' : Task Wait World Unit} (h : r.Stride n w w' work')
    (hw : Serves r.session r.own w) : r.Follows n w w' := by
  cases h with
  | changes call es howes hnew _ =>
    have hphase : (w'.channel r.own.channel).phase = (w.channel r.own.channel).phase := by
      rw [World.channel, World.channel, howes.net]
    exact .of_phase howes.step hnew hphase
  | goes es hnext _ =>
    cases hnext with
    | quiet hquiet _ => exact .of_phase hquiet.1 (List.forall_mem_nil _) hquiet.2
    | sends e rest _ hsends _ _ =>
      obtain ⟨⟨message, hstep, -⟩, hphase⟩ := hsends
      exact .of_phase hstep (List.forall_mem_nil _) hphase
    | skips e rest _ hworld _ _ =>
      rw [hworld]
      exact .refl hw.sound n

lemma follows_elsewhere {n : Nat} {w : World} (hw : Serves r.session r.own w) (world : World) (channel : Channel)
    (others : List Json) : r.Follows n w (elsewhere r.own w world channel others) := by
  obtain ⟨said, hstep, -⟩ := silent_elsewhere hw world channel others
  refine ⟨⟨_, [], said, hstep, List.forall_mem_nil _⟩, ?_, ?_⟩
  · intro hopen
    rw [Channel.isOpen, decide_eq_true_eq] at hopen ⊢
    rw [channel_elsewhere hw]
    show phaseAfter _ _ ≠ .closed
    unfold phaseAfter
    split
    · exact hopen
    · next hneither => exact fun hclosed => hneither (.inr (.inr hclosed))
  · rw [channel_elsewhere hw]
    show phaseAfter _ _ = .ready ↔ _
    unfold phaseAfter
    split
    · exact Iff.rfl
    · next hneither => exact ⟨fun h => absurd (.inr (.inl h)) hneither, fun h => absurd (.inl h) hneither⟩

lemma Stride.underway {n : Nat} {w w' : World} {work' : Task Wait World Unit} (h : r.Stride n w w' work')
    (hfiles : ∀ b ∈ w.debugger.breakpoints.entries, ∀ f, Catalog.fileOf? b = some f → r.Known n f) :
    r.Underway n work' := by
  cases h with
  | changes call es howes hnew hleft =>
    rw [hleft]
    refine .rests es .errands fun e he f hf => ?_
    rcases howes.files e he f hf with hmem | ⟨b, hb, hbf⟩
    · exact hnew f hmem
    · exact hfiles b hb f hbf
  | goes es hnext hknown =>
    obtain ⟨left, hsub, hrests⟩ := hnext.left
    exact .rests left hrests fun e he f hf => hknown e (hsub e he) f hf

namespace Held

variable {n : Nat}

lemma zero (hw : Serves r.session r.own r.start) (hopen : (r.start.channel r.own.channel).isOpen = true) :
    r.Held 0 where
  serves := hw
  opened := hopen
  sources := rfl
  files b hb _ hf := .inl ⟨b, hb, hf⟩
  calls := List.forall_mem_nil _

/-- An action that is not about the handshake. -/
theorem succ (h : r.Held n) (hroom : (r.state n).world.debugger.breakpoints.nextId + 1 < Catalog.idLimit)
    (ha : r.schedule n ≠ .stepHandshake) :
    r.Held (n + 1) ∧ r.Follows n (r.state n).world (r.state (n + 1)).world := by
  have hturn : Turn r.own (r.schedule n) (r.state n) (r.state (n + 1)) := turn _ ha
  have hboth : r.Follows n (r.state n).world (r.state (n + 1)).world ∧
      ∀ work ∈ (r.state (n + 1)).calls, r.Underway (n + 1) work := by
    cases hturn with
    | idle hworld hcalls =>
      rw [hcalls, hworld]
      exact ⟨.refl h.serves.sound n, fun work hwork => (h.calls work hwork).mono (Nat.le_succ n)⟩
    | places call hplaced hworld hcalls =>
      rw [hcalls, hworld]
      refine ⟨.refl h.serves.sound n, fun work hwork => ?_⟩
      rcases List.mem_append.mp hwork with hold | hlast
      · exact (h.calls work hold).mono (Nat.le_succ n)
      · rw [List.mem_singleton.mp hlast]
        exact .fresh call n (Nat.lt_succ_self n) hplaced
    | steps i work work' hold hstep hcalls =>
      have hstride := h.stride hroom (List.mem_of_getElem? hold) hstep
      rw [hcalls]
      exact ⟨hstride.follows h.serves, h.underway_set i ((hstride.underway h.files).mono (Nat.le_succ n))⟩
    | outside world channel others helse hcalls =>
      rw [hcalls, helse]
      exact ⟨follows_elsewhere h.serves world channel others, fun work hwork => (h.calls work hwork).mono (Nat.le_succ n)⟩
  obtain ⟨hfollows, hcalls⟩ := hboth
  obtain ⟨touched, new, said, hstep, hnew⟩ := hfollows.step
  exact ⟨h.of_step hstep hnew (hfollows.opened h.opened) hcalls, hfollows⟩

/-- An action that is about the handshake. -/
theorem succ_handshake (h : r.Held n) (hn : r.schedule n = .stepHandshake) {stage : Stage}
    (hstage : stage.Describes r.session r.own.channel (r.state n).handshake) :
    r.Held (n + 1) ∧ (r.state (n + 1)).calls = (r.state n).calls ∧
      (r.state (n + 1) = r.state n ∨
        stage.Next r.session r.own (r.state n).world (r.state (n + 1)).world (r.state (n + 1)).handshake) := by
  have hturn : r.state (n + 1) = r.state n ∨
      (r.state n).handshake.step? World.holds (r.state n).world
          = some ((r.state (n + 1)).handshake, (r.state (n + 1)).world) ∧
        (r.state (n + 1)).calls = (r.state n).calls := by
    rw [Run.state, hn]
    exact turn_stepHandshake (r.state n)
  have hmono : ∀ work ∈ (r.state n).calls, r.Underway (n + 1) work :=
    fun work hwork => (h.calls work hwork).mono (Nat.le_succ n)
  rcases hturn with hsame | ⟨hstep, hcalls⟩
  · have hstay : Step r.own.channel (fun _ => False) [] [] (r.state n).world (r.state (n + 1)).world := by
      rw [hsame]
      exact .refl h.serves.sound
    refine ⟨h.of_step hstay (List.forall_mem_nil _) ?_ ?_, by rw [hsame], .inl hsame⟩
    · rw [hsame]
      exact h.opened
    · rw [hsame]
      exact hmono
  · have hnext := Stage.step? h.serves h.opened hstage hstep
    obtain ⟨⟨touched, said, hworld⟩, hopen⟩ := hnext.step
    refine ⟨h.of_step hworld (List.forall_mem_nil _) (hopen h.opened) ?_, hcalls, .inr hnext⟩
    rw [hcalls]
    exact hmono

end Held

end Run

end Proofs

end Switchboard.Debug.Convergence
