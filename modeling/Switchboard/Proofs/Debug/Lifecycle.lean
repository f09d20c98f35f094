import Switchboard.Proofs.Debug.Endings
import Switchboard.Proofs.Debug.Touches

/-!
# The life of a target

* `Target.State.age`: the order of the states;
* `Target.Onward`: a change leaves a target in its state or ends it, and tells nothing of the threads of one that has
  ended;
* `Advances`: what one turn makes of the state;
* `asks_first`: a call that asks for a launch has begun it, and asks for the first time;
* `lives`: whatever the order of calls and events, a target grows older, is asked to be launched at most once, runs only
  when the adapter agreed, and is silent about threads when it has ended.
-/

namespace Switchboard.Debug.Target

/-- How far a target in this state has come in its life. -/
def State.age : State → Nat
  | .created => 0
  | .launching => 1
  | .running => 2
  | .terminated => 3

lemma State.age_le_terminated (s : State) : s.age ≤ State.terminated.age := by
  cases s <;> decide

/-! ## Changes that go on -/

/-- A change that leaves a target in its state or ends it, and tells nothing of the threads of one that has ended. The
target stays the same one, on its session. -/
structure Onward (t : Target) (r : Target × List Note) : Prop where
  id : r.1.id = t.id
  session : r.1.session = t.session
  state : r.1.state = t.state ∨ r.1.state = .terminated
  quiet : t.isTerminated = true → ∀ note ∈ r.2, (Message.debug note).isOfThreads t.id = false

namespace Onward

lemma refl (t : Target) : t.Onward (t, []) := ⟨rfl, rfl, .inl rfl, fun _ => List.forall_mem_nil _⟩

lemma of_guarded {t : Target} {r : Target × List Note} (h : t.Guarded r) : t.Onward r := by
  refine ⟨h.announces.1, h.session, .inl h.state, ?_⟩
  intro ht
  rw [h.inert ht]
  exact List.forall_mem_nil _

/-- Something else is told. -/
lemma of_aside {t u : Target} {note : Note} (hid : u.id = t.id) (hsession : u.session = t.session)
    (hstate : u.state = t.state ∨ u.state = .terminated) (hnote : (Message.debug note).isOfThreads t.id = false) :
    t.Onward (u, [note]) :=
  ⟨hid, hsession, hstate, fun _ => List.forall_mem_singleton.mpr hnote⟩

end Onward

lemma onward_terminate (t : Target) : t.Onward t.terminate := by
  unfold terminate
  split
  · exact .refl t
  · next hlive => exact ⟨rfl, rfl, .inr rfl, fun ht => absurd ht hlive⟩

lemma onward_withBody {α : Type} (t : Target) (shape : Json.Shape α) (body : Json) {f : α → Target × List Note}
    (hf : ∀ a, t.Onward (f a)) : t.Onward ((t.withBody shape body f).1, (t.withBody shape body f).2.1) := by
  unfold withBody
  split
  · exact hf _
  · exact .refl t

/-- Whatever the adapter says, the target goes on. -/
theorem onward_heard (t : Target) (name : String) (body : Json) : t.Onward (heard name body t) := by
  unfold heard process_
  split
  · exact onward_withBody t _ body fun b => .of_aside rfl rfl (.inl rfl) rfl
  · exact onward_withBody t _ body fun b => .of_guarded (guarded_applyThread t b)
  · split
    · exact .of_guarded (guarded_applyStop t _)
    · exact .refl t
  · exact onward_withBody t _ body fun b => .of_guarded (guarded_applyResume t b.threadId _ _)
  · exact onward_withBody t _ body fun b => .of_aside rfl rfl (.inl rfl) rfl
  · exact onward_terminate t
  · exact onward_withBody t _ body fun b => .of_aside rfl rfl (.inl rfl) rfl
  · exact .refl t

namespace Course

/-- Every deed but those that bring a launch further leaves a target in its state or ends it. -/
lemma Deed.onward (deed : Deed) (t : Target) (hbegins : deed ≠ .begins) (hlaunches : deed ≠ .launches) :
    t.Onward (deed.apply t) := by
  cases deed with
  | begins => exact absurd rfl hbegins
  | launches => exact absurd rfl hlaunches
  | fails => exact .of_aside rfl rfl (.inr rfl) rfl
  | lists threads => exact .of_guarded (guarded_mergeThreads t threads)
  | resumes thread all detail => exact .of_guarded (guarded_applyResume t thread all detail)
  | keepsFrames thread stop frames =>
    exact ⟨id_keepFrames .., session_keepFrames .., .inl (state_keepFrames ..), fun _ => List.forall_mem_nil _⟩
  | keepsContents thread stop index scopes contents =>
    exact ⟨id_keepContents .., session_keepContents .., .inl (state_keepContents ..), fun _ => List.forall_mem_nil _⟩

/-- No deed tells of the threads of a target that has ended. -/
lemma Deed.quiet (deed : Deed) (t : Target) (ht : t.isTerminated = true) :
    ∀ note ∈ (deed.apply t).2, (Message.debug note).isOfThreads t.id = false := by
  by_cases hbegins : deed = .begins
  · subst hbegins
    exact List.forall_mem_singleton.mpr rfl
  · by_cases hlaunches : deed = .launches
    · subst hlaunches
      show ∀ note ∈ (launched t).2, _
      unfold launched
      split
      · exact List.forall_mem_singleton.mpr rfl
      · exact List.forall_mem_nil _
    · exact (deed.onward t hbegins hlaunches).quiet ht

variable {id : Nat} {start : World} {schedule : Nat → Turn}

/-! ## One turn -/

/-- What one turn makes of the state of the target. -/
inductive Advances (id : Nat) (start : World) (schedule : Nat → Turn) (n : Nat) : Prop where
  | stays (same : ((course id start schedule (n + 1)).target id).state = ((course id start schedule n).target id).state)
  | begins (created : ((course id start schedule n).target id).state = .created)
      (launching : ((course id start schedule (n + 1)).target id).state = .launching)
  | runs (i : Nat) (root : Option Path) (work : Task Wait World (Except Fault Bool)) (turn : schedule n = .step i)
      (underway : (course id start schedule n).calls[i]? = some (.start root, work))
      (agreed : Agreed (view id start schedule i) id n)
      (launching : ((course id start schedule n).target id).state = .launching)
      (running : ((course id start schedule (n + 1)).target id).state = .running)
  | ends (terminated : ((course id start schedule (n + 1)).target id).state = .terminated)

lemma Advances.of_onward {n : Nat} {f : Target → Target × List Note}
    (h : ((course id start schedule n).target id).Onward (f ((course id start schedule n).target id)))
    (htarget : (course id start schedule (n + 1)).target id = (f ((course id start schedule n).target id)).1) :
    Advances id start schedule n := by
  rcases h.state with hsame | hended
  · exact .stays (by rw [htarget, hsame])
  · exact .ends (by rw [htarget, hended])

/-- A turn leaves the target in its state, or brings it one step further, or ends it. -/
theorem advances (hpresent : (start.debugger.target? id).isSome = true) (n : Nat) : Advances id start schedule n := by
  cases happens id start schedule n with
  | aside more targets told silent => exact .stays (by rw [target_of_aside targets])
  | event name body turn world =>
    exact .of_onward (onward_heard _ name body)
      (target_of_change hpresent (fun t => (moves_process t name body).1) world)
  | ended turn world =>
    exact .of_onward (onward_terminate _) (target_of_change hpresent (fun t => (moves_terminate t).1) world)
  | deed i call work deed turn underway justified world =>
    have htarget := target_of_change hpresent deed.id_apply world
    by_cases hbegins : deed = .begins
    · subst hbegins
      exact .begins justified.2 (by rw [htarget]; rfl)
    · by_cases hlaunches : deed = .launches
      · subst hlaunches
        obtain ⟨⟨root, rfl⟩, hagreed⟩ := justified
        have hresult : (course id start schedule (n + 1)).target id
            = (launched ((course id start schedule n).target id)).1 := htarget
        -- the answer is of use only to a target that still waits for it
        unfold launched at hresult
        split at hresult
        · next hlaunching => exact .runs i root work turn underway hagreed hlaunching (by rw [hresult])
        · exact .stays (by rw [hresult])
      · exact .of_onward (deed.onward _ hbegins hlaunches) htarget

/-- A turn does not make the target younger. -/
lemma age_le_succ (hpresent : (start.debugger.target? id).isSome = true) (n : Nat) :
    ((course id start schedule n).target id).state.age ≤ ((course id start schedule (n + 1)).target id).state.age := by
  have hadvances : Advances id start schedule n := advances hpresent n
  cases hadvances with
  | stays same => rw [same]
  | begins created launching =>
    rw [created, launching]
    decide
  | runs i root work turn underway agreed launching running =>
    rw [launching, running]
    decide
  | ends terminated =>
    rw [terminated]
    exact State.age_le_terminated _

/-- The target grows older. -/
lemma age_le (hpresent : (start.debugger.target? id).isSome = true) {m n : Nat} (hmn : m ≤ n) :
    ((course id start schedule m).target id).state.age ≤ ((course id start schedule n).target id).state.age := by
  induction n, hmn using Nat.le_induction with
  | base => exact Nat.le_refl _
  | succ n _ ih => exact Nat.le_trans ih (age_le_succ hpresent n)

/-- One turn tells nothing of the threads of a target that has ended. -/
lemma quiet_succ (hpresent : (start.debugger.target? id).isSome = true) {n : Nat}
    (hended : ((course id start schedule n).target id).isTerminated = true) :
    ∃ more, (course id start schedule (n + 1)).world.told = (course id start schedule n).world.told ++ more ∧
      ∀ m ∈ more, m.isOfThreads id = false := by
  have hid : ((course id start schedule n).target id).id = id := id_target (present hpresent n)
  have hchange : ∀ f : Target → Target × List Note,
      (∀ note ∈ (f ((course id start schedule n).target id)).2, (Message.debug note).isOfThreads id = false) →
      (course id start schedule (n + 1)).world = (course id start schedule n).world.changeTarget id f →
      ∃ more, (course id start schedule (n + 1)).world.told = (course id start schedule n).world.told ++ more ∧
        ∀ m ∈ more, m.isOfThreads id = false := by
    intro f hf hworld
    refine ⟨(f ((course id start schedule n).target id)).2.map .debug, by rw [hworld]; rfl, ?_⟩
    intro m hm
    obtain ⟨note, hnote, rfl⟩ := List.mem_map.mp hm
    exact hf note hnote
  cases happens id start schedule n with
  | aside more targets told silent => exact ⟨more, told, silent⟩
  | deed i call work deed turn underway justified world =>
    have hquiet := deed.quiet _ hended
    rw [hid] at hquiet
    exact hchange _ hquiet world
  | event name body turn world =>
    have hquiet := (onward_heard _ name body).quiet hended
    rw [hid] at hquiet
    exact hchange _ hquiet world
  | ended turn world =>
    have hquiet := (onward_terminate _).quiet hended
    rw [hid] at hquiet
    exact hchange _ hquiet world

/-- A target that has ended stays ended with the threads that it has, and nothing is told of them. -/
lemma quiet_of_ended (hpresent : (start.debugger.target? id).isSome = true) {m n : Nat} (hmn : m ≤ n)
    (hended : ((course id start schedule m).target id).isTerminated = true) :
    ((course id start schedule n).target id).isTerminated = true ∧
      (∃ more, (course id start schedule n).world.told = (course id start schedule m).world.told ++ more ∧
        ∀ x ∈ more, x.isOfThreads id = false) ∧
      ∀ i, (((course id start schedule n).target id).thread? i).isSome =
        (((course id start schedule m).target id).thread? i).isSome := by
  induction n, hmn using Nat.le_induction with
  | base => exact ⟨hended, ⟨[], (List.append_nil _).symm, List.forall_mem_nil _⟩, fun _ => rfl⟩
  | succ n _ ih =>
    obtain ⟨hstill, ⟨before, htold, hbefore⟩, hsame⟩ := ih
    obtain ⟨hend, hthreads⟩ := ended_succ hpresent hstill
    obtain ⟨more, hmore, hquiet⟩ := quiet_succ hpresent hstill
    refine ⟨hend, ⟨before ++ more, by rw [hmore, htold, List.append_assoc], ?_⟩, fun i => (hthreads i).trans (hsame i)⟩
    intro x hx
    rcases List.mem_append.mp hx with hx | hx
    · exact hbefore x hx
    · exact hquiet x hx

/-! ## Launches that are asked for -/

/-- At this time a call hands over a request for the launch. -/
def Asks (id : Nat) (start : World) (schedule : Nat → Turn) (i m : Nat) : Prop :=
  schedule m = .step i ∧ Launches (course id start schedule m).world (course id start schedule (m + 1)).world

/-- Before this time the call had begun the launch of a target that was new. -/
def Begun (id : Nat) (start : World) (schedule : Nat → Turn) (i n : Nat) : Prop :=
  ∃ b < n, schedule b = .step i ∧ ((course id start schedule b).target id).state = .created ∧
    ((course id start schedule (b + 1)).target id).state = .launching

lemma not_asks_of_still {i n : Nat} (hsame : (course id start schedule (n + 1)).world = (course id start schedule n).world) :
    ¬ Asks id start schedule i n := by
  intro h
  have hlaunches := h.2
  rw [hsame] at hlaunches
  exact Network.not_hands_refl launchings _ hlaunches

/-- Who has not asked so far has not asked by the next time either, unless it does so now. -/
lemma silent_succ {i n : Nat} (hsilent : ∀ m < n, ¬ Asks id start schedule i m) (hnow : ¬ Asks id start schedule i n) :
    ∀ m < n + 1, ¬ Asks id start schedule i m := by
  intro m hm
  rcases Nat.lt_succ_iff_lt_or_eq.mp hm with hlt | rfl
  · exact hsilent m hlt
  · exact hnow

/-- Calls never go away. -/
lemma length_calls_le {m n : Nat} (hmn : m ≤ n) :
    (course id start schedule m).calls.length ≤ (course id start schedule n).calls.length := by
  induction n, hmn using Nat.le_induction with
  | base => exact Nat.le_refl _
  | succ n _ ih =>
    refine Nat.le_trans ih ?_
    show _ ≤ ((course id start schedule n).after id (schedule n)).calls.length
    unfold State.after
    split
    · simp
    · split
      · exact Nat.le_refl _
      · split
        · exact Nat.le_refl _
        · simp
    · exact Nat.le_refl _
    · exact Nat.le_refl _
    · exact Nat.le_refl _

/-- A call that is yet to come has not asked. -/
lemma silent_of_length_le {i n : Nat} (hi : (course id start schedule n).calls.length ≤ i) :
    ∀ m ≤ n, ¬ Asks id start schedule i m := by
  intro m hm hasks
  rcases stepped_or_still id start hasks.1 with ⟨call, work, work', hunderway, -⟩ | hsame
  · have hlt : i < (course id start schedule m).calls.length := (List.getElem?_eq_some_iff.mp hunderway).1
    have hle : (course id start schedule m).calls.length ≤ (course id start schedule n).calls.length := length_calls_le hm
    omega
  · exact not_asks_of_still hsame hasks

/-- How far a call is with asking for the launch. -/
inductive Standing (id : Nat) (start : World) (schedule : Nat → Turn) (n i : Nat) (call : Call)
    (work : Task Wait World (Except Fault Bool)) : Prop where
  /-- It has yet to begin the launch. -/
  | waits (root : Option Path) (whole : ((Call.start root).work id).outcome = work)
      (silent : ∀ m < n, ¬ Asks id start schedule i m)
  /-- It has begun the launch, and may ask for it once. -/
  | owes (begun : Begun id start schedule i n) (once : work.AtMost Launches 1)
      (silent : ∀ m < n, ¬ Asks id start schedule i m)
  /-- It will ask for nothing any more. -/
  | rests (never : work.AtMost Launches 0)

lemma Begun.later {i n : Nat} (h : Begun id start schedule i n) : Begun id start schedule i (n + 1) := by
  obtain ⟨b, hb, hbegins⟩ := h
  exact ⟨b, Nat.lt_succ_of_lt hb, hbegins⟩

/-- Every call stands somewhere. -/
lemma standing (hpresent : (start.debugger.target? id).isSome = true) (n : Nat) {i : Nat} {call : Call}
    {work : Task Wait World (Except Fault Bool)} (hi : (course id start schedule n).calls[i]? = some (call, work)) :
    Standing id start schedule n i call work := by
  have hrefl : ∀ w, ¬ Launches w w := fun w => Network.not_hands_refl launchings w.net
  induction n generalizing call work with
  | zero => cases hi
  | succ n ih =>
    cases came hi with
    | new turn last whole =>
      obtain rfl := whole
      have hwork : Attempt.Within (Touches id call.names) (call.work id) := call.within_work
      cases call with
      | start root =>
        have hsilent : ∀ m ≤ n, ¬ Asks id start schedule i m := silent_of_length_le (Nat.le_of_eq last)
        exact .waits root rfl fun m hm => hsilent m (Nat.le_of_lt_succ hm)
      | perform _ _ _ | refresh | stack _ | inspect _ _ =>
        exact .rests (atMost_of_touches not_mem_questions hwork)
    | idle underway still =>
      have hnow : ¬ Asks id start schedule i n := fun h => not_asks_of_still (still h.1) h
      cases ih underway with
      | waits root whole silent => exact .waits root whole (silent_succ silent hnow)
      | owes begun once silent => exact .owes begun.later once (silent_succ silent hnow)
      | rests never => exact .rests never
    | stepped left underway turn tick =>
      cases ih underway with
      | waits root whole silent =>
        obtain rfl := whole
        obtain ⟨hnow, hnever | ⟨hcreated, hworld, honce⟩⟩ := tick?_start tick
        · exact .rests hnever
        · -- it has begun the launch just now
          have htarget := target_of_change hpresent (Deed.id_apply .begins) hworld
          have hbegun : Begun id start schedule i (n + 1) :=
            ⟨n, Nat.lt_succ_self n, turn, hcreated, by rw [htarget]; rfl⟩
          exact .owes hbegun honce (silent_succ silent fun h => hnow h.2)
      | owes begun once silent =>
        obtain ⟨hyes, hno⟩ := once.tick hrefl tick
        by_cases hasks : Launches (course id start schedule n).world (course id start schedule (n + 1)).world
        · exact .rests (hyes hasks).2
        · exact .owes begun.later (hno hasks) (silent_succ silent fun h => hasks h.2)
      | rests never =>
        obtain ⟨hyes, hno⟩ := never.tick hrefl tick
        by_cases hasks : Launches (course id start schedule n).world (course id start schedule (n + 1)).world
        · exact absurd (hyes hasks).1 (Nat.lt_irrefl 0)
        · exact .rests (hno hasks)

/-- A call that asks for the launch has begun it, and asks for the first time. -/
theorem asks_first (hpresent : (start.debugger.target? id).isSome = true) {i n : Nat} (hasks : Asks id start schedule i n) :
    Begun id start schedule i n ∧ ∀ m < n, ¬ Asks id start schedule i m := by
  have hrefl : ∀ w, ¬ Launches w w := fun w => Network.not_hands_refl launchings w.net
  rcases stepped_or_still id start hasks.1 with ⟨call, work, work', hunderway, htick⟩ | hsame
  · cases standing hpresent n hunderway with
    | waits root whole silent =>
      obtain rfl := whole
      exact absurd hasks.2 (tick?_start htick).1
    | owes begun once silent => exact ⟨begun, silent⟩
    | rests never => exact absurd ((never.tick hrefl htick).1 hasks.2).1 (Nat.lt_irrefl 0)
  · exact absurd hasks (not_asks_of_still hsame)

/-- A target is new only once, so only one call begins its launch. -/
lemma begun_unique (hpresent : (start.debugger.target? id).isSome = true) {i j m n : Nat}
    (hi : Begun id start schedule i m) (hj : Begun id start schedule j n) : i = j := by
  obtain ⟨b, -, hturn, hcreated, hlaunching⟩ := hi
  obtain ⟨c, -, hturn', hcreated', hlaunching'⟩ := hj
  have horder : ∀ b c, ((course id start schedule (b + 1)).target id).state = .launching →
      ((course id start schedule c).target id).state = .created → ¬ b < c := by
    intro b c hafter hbefore hlt
    have hage : ((course id start schedule (b + 1)).target id).state.age
        ≤ ((course id start schedule c).target id).state.age := age_le hpresent (Nat.succ_le_of_lt hlt)
    rw [hafter, hbefore] at hage
    exact absurd hage (by decide)
  have hbc : b = c := by
    have h := horder b c hlaunching hcreated'
    have h' := horder c b hlaunching' hcreated
    omega
  subst hbc
  exact Turn.step.inj (hturn.symm.trans hturn')

/-- The launch is asked for at most once. -/
lemma asks_unique (hpresent : (start.debugger.target? id).isSome = true) {i j m n : Nat} (hi : Asks id start schedule i m)
    (hj : Asks id start schedule j n) : m = n := by
  obtain ⟨hbegun, hfirst⟩ := asks_first hpresent hi
  obtain ⟨hbegun', hfirst'⟩ := asks_first hpresent hj
  obtain rfl := begun_unique hpresent hbegun hbegun'
  rcases Nat.lt_trichotomy m n with hlt | heq | hgt
  · exact absurd hi (hfirst' m hlt)
  · exact heq
  · exact absurd hj (hfirst n hgt)

/-! ## The life of a target -/

/-- The life of a target in a run. -/
structure Lives (id : Nat) (start : World) (schedule : Nat → Turn) : Prop where
  /-- It grows older. -/
  ordered : ∀ m n, m ≤ n →
    ((course id start schedule m).target id).state.age ≤ ((course id start schedule n).target id).state.age
  /-- Its launch is asked for at most once. -/
  once : ∀ i j m n, Asks id start schedule i m → Asks id start schedule j n → m = n
  /-- It comes to run only when the adapter agreed to the launch that a call had asked for, and it still waits for that. -/
  agreed : ∀ n, ((course id start schedule n).target id).state ≠ .running →
    ((course id start schedule (n + 1)).target id).state = .running →
    ((course id start schedule n).target id).state = .launching ∧
      ∃ i root work, schedule n = .step i ∧ (course id start schedule n).calls[i]? = some (.start root, work) ∧
        Agreed (view id start schedule i) id n
  /-- When it has ended nothing is told of its threads and none is added. -/
  silent : ∀ m n, m ≤ n → ((course id start schedule m).target id).state = .terminated →
    (∃ more, (course id start schedule n).world.told = (course id start schedule m).world.told ++ more ∧
      ∀ x ∈ more, x.isOfThreads id = false) ∧
    ∀ i, (((course id start schedule n).target id).thread? i).isSome = true →
      (((course id start schedule m).target id).thread? i).isSome = true

/-- Whatever the order in which calls, events and everything around a target take their steps, it lives like that. -/
theorem lives {start : World} (hpresent : (start.debugger.target? id).isSome = true) (schedule : Nat → Turn) :
    Lives id start schedule where
  ordered m n hmn := age_le hpresent hmn
  once i j m n hi hj := asks_unique hpresent hi hj
  agreed n hbefore hafter := by
    have hadvances : Advances id start schedule n := advances hpresent n
    cases hadvances with
    | stays same => exact absurd (same ▸ hafter) hbefore
    | begins created launching => exact nomatch launching.symm.trans hafter
    | runs i root work turn underway agreed launching running => exact ⟨launching, i, root, work, turn, underway, agreed⟩
    | ends terminated => exact nomatch terminated.symm.trans hafter
  silent m n hmn hended := by
    have hterminated : ((course id start schedule m).target id).isTerminated = true := by simp [isTerminated, hended]
    obtain ⟨-, htold, hsame⟩ := quiet_of_ended hpresent hmn hterminated
    exact ⟨htold, fun i hi => (hsame i).symm.trans hi⟩

/-! ### Two launches of one target -/

/-- Two calls begin to launch the target, the adapter agrees to what the first one asks for, and a thread starts. -/
def launchesTwice : List Turn :=
  [.begins (.start none), .begins (.start none)] ++ List.replicate 9 (.step 0)
    ++ [.step 1,
      .outside { Freshness.oneTarget with
        net := { channels := [{ dialect := .sequenced, phase := .ready, nextId := 2
                                pending := { next := 1, settled := [(0, .answered (.ok .null))] } }] } }]
    ++ List.replicate 3 (.step 0)
    ++ [.event "thread" (.obj [("reason", "started"), ("threadId", .int 1)])]

/-- Those turns, one after the other; then the target ends. -/
def launchesTwiceSchedule (n : Nat) : Turn := launchesTwice.getD n .ended

/-- It runs, and then it ends, and the second call never asks for anything. -/
theorem lives_launchesTwice :
    (Freshness.oneTarget.debugger.target? 1).isSome = true ∧ Lives 1 Freshness.oneTarget launchesTwiceSchedule ∧
      ((course 1 Freshness.oneTarget launchesTwiceSchedule 16).target 1).state = .running ∧
      ((course 1 Freshness.oneTarget launchesTwiceSchedule 18).target 1).state = .terminated ∧
      ∀ n, ¬ Asks 1 Freshness.oneTarget launchesTwiceSchedule 1 n := by
  have hpresent : (Freshness.oneTarget.debugger.target? 1).isSome = true := by decide
  have hlives := lives hpresent launchesTwiceSchedule
  have hasks : Asks 1 Freshness.oneTarget launchesTwiceSchedule 0 9 :=
    ⟨rfl, "launch", List.mem_cons_self .., 0, _, _, _, rfl, rfl⟩
  refine ⟨hpresent, hlives, by decide +kernel, by decide +kernel, ?_⟩
  intro n hn
  have heq : 9 = n := hlives.once 0 1 9 n hasks hn
  subst heq
  cases hn.1

end Course

end Switchboard.Debug.Target
