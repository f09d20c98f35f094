import Switchboard.Debug.Command
import Switchboard.Proofs.Debug.Board
import Switchboard.Proofs.Debug.Occupancy

/-!
# All that goes on

* `Target.aside_heard`, `aside_apply`: what is told of targets is not told of breakpoints and configurations;
* `Bustle.Request`: commands of editors, events of adapters, and all else that the debugger takes up;
* `Bustle.AllowedCommands`, `Allowed`: a relation allows all that is done for requests but events, or for all of them;
* `Request.within_work`: editors are informed of it;
* `Bustle`, `play`: any number of them, one access at a time in any order, and all else that happens around them;
* `Bustle.board_of_told`: at all times an editor that follows the notes sees both catalogs as they are.
-/

namespace Switchboard

open Debug

namespace Debug.Target

/-! ## What is told of targets -/

/-- Nothing of this is told of breakpoints or launch configurations. -/
def Aside (notes : List Note) : Prop := ∀ note ∈ notes, (Message.debug note).isOfCatalogs = false

lemma aside_nil : Aside [] := List.forall_mem_nil _

lemma aside_append {notes more : List Note} (h : Aside notes) (h' : Aside more) : Aside (notes ++ more) := by
  intro note hnote
  exact (List.mem_append.mp hnote).elim (h note) (h' note)

lemma aside_singleton {note : Note} (h : (Message.debug note).isOfCatalogs = false) : Aside [note] :=
  List.forall_mem_singleton.mpr h

lemma aside_meet (t : Target) (i : Int) : Aside (t.meet i).2 := by
  unfold meet
  split
  · exact aside_nil
  · exact aside_singleton rfl

lemma aside_changeThread (t : Target) (i : Int) (detail data : Option String) (f : DebugThread → DebugThread) :
    Aside (t.changeThread i detail data f).2 := by
  unfold changeThread
  split
  · exact aside_singleton rfl
  · exact aside_nil

lemma aside_forThreads {f : Target → Int → Target × List Note} (hf : ∀ t i, Aside (f t i).2) (t : Target)
    (ids : List Int) : Aside (forThreads f t ids).2 := by
  induction ids generalizing t with
  | nil => exact aside_nil
  | cons i rest ih => exact aside_append (hf t i) (ih (f t i).1)

lemma aside_terminate (t : Target) : Aside t.terminate.2 := by
  unfold terminate
  split
  · exact aside_nil
  · refine aside_append ?_ (aside_singleton rfl)
    intro note hnote
    obtain ⟨x, -, rfl⟩ := List.mem_map.mp hnote
    rfl

lemma aside_applyThread (t : Target) (body : ThreadBody) : Aside (t.applyThread body).2 := by
  unfold applyThread
  split
  · exact aside_nil
  · dsimp only
    split
    · split
      · exact aside_singleton rfl
      · exact aside_nil
    · split
      · split
        · exact aside_nil
        · exact aside_singleton rfl
      · exact aside_append (aside_meet _ _) (aside_changeThread _ _ _ _ _)

lemma aside_applyStop (t : Target) (body : StoppedBody) : Aside (t.applyStop body).2.1 := by
  unfold applyStop
  split
  · exact aside_nil
  · refine aside_append ?_ (aside_forThreads (fun u i => aside_changeThread u i _ _ _) _ _)
    cases body.threadId with
    | none => exact aside_nil
    | some i => exact aside_meet _ i

lemma aside_applyResume (t : Target) (thread : Int) (all : Bool) (detail : String) :
    Aside (t.applyResume thread all detail).2 := by
  unfold applyResume
  split
  · exact aside_nil
  · refine aside_forThreads (fun u i => ?_) _ _
    dsimp only
    split
    · split
      · exact aside_meet u i
      · exact aside_append (aside_meet u i) (aside_changeThread _ _ _ _ _)
    · exact aside_meet u i

lemma aside_mergeThreads (t : Target) (threads : List ThreadInfo) : Aside (t.mergeThreads threads).2 := by
  unfold mergeThreads
  split
  · exact aside_nil
  · refine List.foldlRecOn (motive := fun r : Target × List Note => Aside r.2) threads _ aside_nil fun r hr info _ => ?_
    dsimp only
    split
    · exact hr
    · exact aside_append hr (aside_singleton rfl)

lemma aside_withBody {α : Type} (t : Target) (shape : Json.Shape α) (body : Json) {f : α → Target × List Note}
    (hf : ∀ a, Aside (f a).2) : Aside (t.withBody shape body f).2.1 := by
  unfold withBody
  split
  · exact hf _
  · exact aside_nil

/-- Whatever the adapter says, nothing is told of breakpoints or launch configurations. -/
lemma aside_heard (t : Target) (name : String) (body : Json) : Aside (heard name body t).2 := by
  unfold heard process_
  split
  · exact aside_withBody t _ body fun b => aside_singleton rfl
  · exact aside_withBody t _ body fun b => aside_applyThread t b
  · split
    · exact aside_applyStop t _
    · exact aside_nil
  · exact aside_withBody t _ body fun b => aside_applyResume t _ _ _
  · exact aside_withBody t _ body fun b => aside_singleton rfl
  · exact aside_terminate t
  · exact aside_withBody t _ body fun b => aside_singleton rfl
  · exact aside_nil

/-- The same of whatever calls do to a target. -/
lemma aside_apply (deed : Course.Deed) (t : Target) : Aside (deed.apply t).2 := by
  cases deed with
  | begins | fails => exact aside_singleton rfl
  | launches =>
    show Aside (launched t).2
    unfold launched
    split
    · exact aside_singleton rfl
    · exact aside_nil
  | lists threads => exact aside_mergeThreads t threads
  | resumes thread all detail => exact aside_applyResume t thread all detail
  | keepsFrames _ _ _ | keepsContents _ _ _ _ _ => exact aside_nil

end Debug.Target

namespace World

/-! ## Accesses that leave both catalogs alone -/

variable {w w' : World}

/-- Something else of the debugger changes, and something else is told. -/
lemma informs_note {b : Debugger} {notes : List Note} (hstays : w.Stays { w with debugger := b })
    (hbreakpoints : b.breakpoints = w.debugger.breakpoints) (hlaunches : b.launches = w.debugger.launches)
    (hnotes : Target.Aside notes) : w.Informs ({ w with debugger := b }.note notes) := by
  refine .of_aside hstays hbreakpoints hlaunches ⟨_, rfl, ?_⟩
  intro m hm
  obtain ⟨note, hnote, rfl⟩ := List.mem_map.mp hm
  exact hnotes note hnote

lemma informs_changeTarget (w : World) (id : Nat) {f : Target → Target × List Note} (hf : ∀ t, Target.Aside (f t).2) :
    w.Informs (w.changeTarget id f) := informs_note (stays_of_eq rfl) rfl rfl (hf _)

lemma informs_applyDebugEvent (w : World) (s : SessionId) (e : Channel.Event) :
    w.Informs (w.applyDebugEvent s e).2 := by
  unfold applyDebugEvent
  split
  · exact .refl w
  · next t _ => exact informs_note (stays_of_eq rfl) rfl rfl (Target.aside_heard t e.name e.body)

lemma informs_touches {id : Nat} {names : List String} (h : Target.Touches id names w w') : w.Informs w' := by
  cases h with
  | speech c n said => exact .of_eq rfl rfl rfl rfl
  | deed deed fresh => exact informs_changeTarget w id (Target.aside_apply deed)

/-- All work on sessions and targets that are there informs editors. -/
theorem allowed_informs : Running.AllowedRuns Informs where
  toAllowed := Board.allowed_informs
  touches := fun _ => informs_touches
  ends := fun w id => informs_changeTarget w id Target.aside_terminate
  event := informs_applyDebugEvent
  putOff := fun _ _ _ => .of_eq rfl rfl rfl rfl
  forget := fun _ _ => .of_eq rfl rfl rfl rfl
  clear := fun _ => .of_eq rfl rfl rfl rfl
  launches := informs_touches
  introduces := fun _ _ _ => .of_eq rfl rfl rfl rfl

/-- A target is claimed, perhaps on a new session. -/
lemma informs_claim (w : World) (launch : Launch) (root : Option Path) : w.Informs (w.claim launch root).2 := by
  have hreserve : ∀ (v : World) (x : SessionId), v.Informs (v.reserve launch x).2 :=
    fun v x => informs_note (stays_of_eq rfl) rfl rfl (Target.aside_singleton rfl)
  have hclaimed := w.claimed launch root
  generalize w.claim launch root = r at hclaimed
  cases hclaimed with
  | refused e => exact .refl w
  | joins x entry isOpen free => exact hreserve w x
  | starts w' started =>
    obtain ⟨session, -, -, -, hdebugger⟩ := started.debugger
    -- a session is added and becomes the one of its language, and on it a target is made
    refine Informs.trans ?_ (hreserve w' _)
    have hkept : ∀ (b : Debugger) (language : String) (x : SessionId),
        (b.setCurrent language x).2.sessions = b.sessions ∧ (b.setCurrent language x).2.breakpoints = b.breakpoints ∧
          (b.setCurrent language x).2.launches = b.launches := by
      intro b language x
      unfold Debugger.setCurrent
      split
      · exact ⟨rfl, rfl, rfl⟩
      · exact ⟨rfl, rfl, rfl⟩
    obtain ⟨hsessions, hbreakpoints, hlaunches⟩ :=
      hkept (w.debugger.addSession session).2 launch.language w.debugger.sessions.length
    rw [← hdebugger] at hsessions hbreakpoints hlaunches
    refine .of_aside ?_ hbreakpoints hlaunches ⟨[], ?_, List.forall_mem_nil _⟩
    · rw [Stays, hsessions]
      exact (List.prefix_append ..).map _
    · rw [started.told, List.append_nil]

/-- A session becomes the one of its language, and from now on its events are taken up. -/
lemma informs_setCurrent (w : World) (language : String) (s : SessionId) :
    w.Informs { w with debugger := (w.debugger.setCurrent language s).2 } := by
  unfold Debugger.setCurrent
  split
  · exact .of_eq rfl rfl rfl rfl
  · exact .of_eq rfl rfl rfl rfl

lemma informs_serve (w : World) (s : SessionId) : w.Informs { w with debugger := w.debugger.serve s } := by
  refine .of_aside ?_ rfl rfl ⟨[], (List.append_nil _).symm, List.forall_mem_nil _⟩
  have hsame : (w.debugger.sessions.modify s fun x => { x with served := true }).map Session.unserved =
      w.debugger.sessions.map Session.unserved := by
    refine List.ext_getElem? fun i => ?_
    rw [List.getElem?_map, List.getElem?_modify, List.getElem?_map]
    cases w.debugger.sessions[i]? with
    | none => split <;> rfl
    | some x => split <;> rfl
  show _ <+: (w.debugger.sessions.modify s _).map Session.unserved
  rw [hsame]

end World

/-! ## Requests -/

/-- What the debugger takes up. -/
inductive Debug.Bustle.Request where
  /-- A command of an editor. -/
  | command (c : Command)
  | event (s : SessionId) (e : Channel.Event)
  | closed (s : SessionId)
  | prefetch (job : Deferred.Job Prefetch)
  | insert (s : SessionId)
  | shutdown

open World (Informs)

namespace Debug.Bustle

/-- The work of a request. -/
def Request.work : Request → Task Wait World Unit
  | command c => do
    let _ ← c.perform.outcome
  | event s e => Running.handleEvent s e
  | closed s => Running.sessionClosed s
  | prefetch job => Running.prefetch job
  | insert s => Running.insertSession s
  | shutdown => Running.shutdown

/-- All that the debugger does for requests is allowed, but for runs, the insertion of sessions and events. -/
structure AllowedCommands (R : World → World → Prop) : Prop extends Running.AllowedCalls R where
  placeBreakpoint : ∀ project path line column w, R w (Editing.placeBreakpoint project path line column w).2
  placeException : ∀ caught uncaught w, R w (Editing.placeException caught uncaught w).2
  applyEdits : ∀ id edits w, R w (Editing.applyEdits id edits w).2
  dropBreakpoints : ∀ w, R w (Editing.dropBreakpoints w).2
  createLaunch : ∀ launch, Attempt.Within R (Editing.createLaunch launch)
  cloneLaunch : ∀ id, Attempt.Within R (Editing.cloneLaunch id)
  editLaunch : ∀ id edit, Attempt.Within R (Editing.editLaunch id edit)
  commitLaunch : ∀ id, Attempt.Within R (Editing.commitLaunch id)
  saveLaunch : ∀ id, Attempt.Within R (Editing.saveLaunch id)
  deleteLaunch : ∀ id, Attempt.Within R (Editing.deleteLaunch id)

/-- All that the debugger does for requests is allowed, but for runs and the insertion of sessions. -/
structure Allowed (R : World → World → Prop) : Prop extends toProceeding : Running.Allowed R, AllowedCommands R

namespace AllowedCommands

variable {R : World → World → Prop}

/-- Every access of a command is allowed. -/
lemma command (h : AllowedCommands R) (c : Command)
    (hrun : ∀ launch, c = .run launch → Attempt.Within R (Running.run launch)) : Attempt.Within R c.perform := by
  cases c with
  | addBreakpoint project path line column =>
    exact .bind (h.addBreakpoint (h.placeBreakpoint project path line column)) fun _ => .pure _
  | setException caught uncaught project =>
    exact .bind (h.setException project (h.placeException caught uncaught)) fun _ => .pure _
  | editBreakpoint id edits => exact .bind (h.editBreakpoint (h.applyEdits id edits)) fun _ => .pure _
  | clearBreakpoints => exact .bind (h.clearBreakpoints h.dropBreakpoints) fun _ => .pure _
  | createLaunch launch => exact .bind (h.createLaunch launch) fun _ => .pure _
  | cloneLaunch id => exact .bind (h.cloneLaunch id) fun _ => .pure _
  | editLaunch id edit => exact .bind (h.editLaunch id edit) fun _ => .pure _
  | commitLaunch id => exact .bind (h.commitLaunch id) fun _ => .pure _
  | saveLaunch id => exact .bind (h.saveLaunch id) fun _ => .pure _
  | deleteLaunch id => exact .bind (h.deleteLaunch id) fun _ => .pure _
  | listBreakpoints | listLaunches | listTargets => exact .bind (.ofTask (.view h.refl)) fun _ => .pure _
  | run launch => exact .bind (hrun launch rfl) fun _ => .pure _
  | act target action thread frame =>
    exact .bind (h.withTarget target (h.target Target.not_mem_questions (Target.within_perform action thread frame))) fun _ => .pure _
  | threads target => exact .bind (h.threads target) fun _ => .pure _
  | stack target thread => exact .bind (h.withTarget target (h.target Target.not_mem_questions (Target.within_stack thread))) fun _ => .pure _
  | frameVariables target thread frame =>
    exact .bind (h.withTarget target (h.target Target.not_mem_questions (Target.within_frameVariables thread frame))) fun _ => .pure _
  | children target reference => exact .bind (h.withTarget target (h.children target reference)) fun _ => .pure _
  | evaluate project expression thread frame =>
    exact .bind (h.evaluateExpression project expression thread frame) fun _ => .pure _

/-- Every access of a request is allowed, if it is not an event. -/
lemma work (h : AllowedCommands R) (r : Request) (hevent : ∀ s e, r ≠ .event s e)
    (hrun : ∀ launch, r = .command (.run launch) → Attempt.Within R (Running.run launch))
    (hinsert : ∀ s, r = .insert s → (Running.insertSession s).Within R) : r.work.Within R := by
  cases r with
  | command c => exact .andThen (h.command c fun launch hc => hrun launch (congrArg Request.command hc)) fun _ => trivial
  | event s e => exact absurd rfl (hevent s e)
  | closed s => exact h.sessionClosed s
  | prefetch job => exact h.prefetch job
  | insert s => exact hinsert s rfl
  | shutdown => exact h.shutdown

end AllowedCommands

/-- Every access of a request is allowed. -/
lemma Allowed.work {R : World → World → Prop} (h : Allowed R) (r : Request)
    (hrun : ∀ launch, r = .command (.run launch) → Attempt.Within R (Running.run launch))
    (hinsert : ∀ s, r = .insert s → (Running.insertSession s).Within R) : r.work.Within R := by
  by_cases hevent : ∃ s e, r = .event s e
  · obtain ⟨s, e, rfl⟩ := hevent
    exact h.handleEvent s e
  · exact h.toAllowedCommands.work r (fun s e hr => hevent ⟨s, e, hr⟩) hrun hinsert

/-- The insertion of a session is allowed if its two own accesses are, and the end of the session before it. -/
lemma within_insertSession {R : World → World → Prop} {s : SessionId}
    (henters : ∀ w : World, R w { w with debugger := (w.debugger.setCurrent (w.debugger.session s).language s).2 })
    (hcloses : ∀ o, (Running.close o).Within R)
    (hserves : ∀ w : World, R w { w with debugger := w.debugger.serve s }) : (Running.insertSession s).Within R := by
  have hserve : (Task.modify fun w : World => { w with debugger := w.debugger.serve s } :
      Task Wait World Unit).Within R := .modify hserves
  refine .andThen (t := Task.await _) trivial ?_
  intro _
  refine .andThen (.act henters) ?_
  intro old
  cases old with
  | none => exact hserve
  | some o =>
    dsimp only
    split
    · exact .andThen (hcloses o) fun _ => hserve
    · exact hserve

/-- All requests inform editors. -/
theorem allowed_informs : Allowed Informs where
  toProceeding := World.allowed_informs.toProceeding
  placeBreakpoint := Board.informs_placeBreakpoint
  placeException := Board.informs_placeException
  applyEdits := Board.informs_applyEdits
  dropBreakpoints := Board.informs_dropBreakpoints
  createLaunch := Board.within_createLaunch
  cloneLaunch := Board.within_cloneLaunch
  editLaunch := Board.within_editLaunch
  commitLaunch := Board.within_commitLaunch
  saveLaunch := Board.within_saveLaunch
  deleteLaunch := Board.within_deleteLaunch

lemma within_run (id : Nat) : Attempt.Within Informs (Running.run id) := by
  have h := World.allowed_informs
  refine .bind (.ofTask (.view (f := fun w : World => w) h.refl)) ?_
  intro w
  split
  · exact .throw _
  · next launch _ =>
    refine .bind (.ofTask (t := Task.await _) trivial) ?_
    intro _
    refine .bind (.act fun w => w.informs_claim launch _) ?_
    intro target
    exact h.pursuing _ target

/-- Every access of a request informs editors. -/
theorem Request.within_work (r : Request) : r.work.Within Informs := by
  have hallowed : Allowed Informs := allowed_informs
  refine hallowed.work r (fun launch _ => within_run launch) fun s _ => ?_
  exact within_insertSession (fun w => w.informs_setCurrent _ s) hallowed.close fun w => w.informs_serve s

end Debug.Bustle

/-! ## Runs -/

/-- The world, and what is left of requests. -/
structure Debug.Bustle where
  world : World
  calls : List (Task Wait World Unit) := []

namespace Debug.Bustle

/-- Whose turn it is, and what is new. -/
inductive Turn where
  | begins (r : Request)
  /-- A request makes one access, or passes a wait that is over. -/
  | step (i : Nat)
  /-- Anything else changes: channels, targets, files, settings; sessions come, and something else is told. -/
  | outside (world : World)

/-- What everything else makes of the world. -/
def around (w new : World) : World :=
  { new with
    debugger := { new.debugger with
      breakpoints := w.debugger.breakpoints
      launches := w.debugger.launches
      sessions := w.debugger.sessions ++ new.debugger.sessions }
    told := w.told ++ new.told.filter fun m => !m.isOfCatalogs }

/-- One turn; what is not possible changes nothing. -/
def after (b : Bustle) : Turn → Bustle
  | .begins r => { b with calls := b.calls ++ [r.work] }
  | .step i =>
    match b.calls[i]? with
    | none => b
    | some work =>
      match work.tick? World.holds b.world with
      | none => b
      | some (work, world) => { world, calls := b.calls.set i work }
  | .outside new => { b with world := around b.world new }

/-- All that goes on after `n` turns. -/
def play (start : World) (schedule : Nat → Turn) : Nat → Bustle
  | 0 => { world := start }
  | n + 1 => (play start schedule n).after (schedule n)

/-- The turn of a request: it can go on and makes one step, or nothing changes. -/
lemma after_step (b : Bustle) (i : Nat) :
    (∃ work work' w', b.calls[i]? = some work ∧ work.tick? World.holds b.world = some (work', w') ∧
      b.after (.step i) = { world := w', calls := b.calls.set i work' }) ∨ b.after (.step i) = b := by
  unfold after
  cases hi : b.calls[i]? with
  | none => exact .inr (by simp only [hi])
  | some work =>
    cases htick : work.tick? World.holds b.world with
    | none => exact .inr (by simp only [hi, htick])
    | some r =>
      obtain ⟨work', w'⟩ := r
      exact .inl ⟨work, work', w', rfl, htick, by simp only [hi, htick]⟩

/-- A request keeps what it has left to do in the turns of others. -/
lemma calls_after {b : Bustle} {turn : Turn} {i : Nat} (hturn : turn ≠ .step i) {work : Task Wait World Unit}
    (hi : b.calls[i]? = some work) : (b.after turn).calls[i]? = some work := by
  cases turn with
  | begins r =>
    show (b.calls ++ [r.work])[i]? = some work
    rw [List.getElem?_append_left (List.getElem?_eq_some_iff.mp hi).1]
    exact hi
  | step j =>
    rcases b.after_step j with ⟨other, other', w', -, -, heq⟩ | heq
    · have hji : j ≠ i := fun h => hturn (congrArg Turn.step h)
      rw [heq, List.getElem?_set_ne hji]
      exact hi
    · rw [heq]
      exact hi
  | outside new => exact hi

lemma informs_around (w new : World) : w.Informs (around w new) := by
  refine .of_aside ?_ rfl rfl ⟨_, rfl, ?_⟩
  · exact (List.prefix_append ..).map _
  · intro m hm
    simpa using (List.mem_filter.mp hm).2

/-- One turn informs editors, and so does all that is left of requests. -/
lemma informs_after {b : Bustle} (h : ∀ work ∈ b.calls, work.Within Informs) (turn : Turn) :
    b.world.Informs (b.after turn).world ∧ ∀ work ∈ (b.after turn).calls, work.Within Informs := by
  cases turn with
  | begins r =>
    refine ⟨.refl _, ?_⟩
    intro work hwork
    rcases List.mem_append.mp hwork with hwork | hwork
    · exact h work hwork
    · obtain rfl := List.mem_singleton.mp hwork
      exact r.within_work
  | step i =>
    rcases b.after_step i with ⟨work, work', w', hi, htick, heq⟩ | heq
    · obtain ⟨hinforms, hwithin⟩ := Task.Within.tick (h work (List.mem_of_getElem? hi)) htick
      rw [heq]
      refine ⟨?_, ?_⟩
      -- a step is an access, or it passes a wait and changes nothing
      · rcases hinforms with hinforms | hsame
        · exact hinforms
        · rw [hsame]
          exact .refl _
      · intro other hother
        rcases List.mem_or_eq_of_mem_set hother with hother | rfl
        · exact h other hother
        · exact hwithin
    · rw [heq]
      exact ⟨.refl _, h⟩
  | outside new => exact ⟨informs_around b.world new, h⟩

/-- At all times all that is left of requests informs editors. -/
lemma within_calls (start : World) (schedule : Nat → Turn) (n : Nat) :
    ∀ work ∈ (play start schedule n).calls, work.Within Informs := by
  induction n with
  | zero => exact List.forall_mem_nil _
  | succ n ih => exact (informs_after ih (schedule n)).2

/-- From any time of a run to any later one editors are informed. -/
theorem informs_play (start : World) (schedule : Nat → Turn) {m n : Nat} (hmn : m ≤ n) :
    (play start schedule m).world.Informs (play start schedule n).world := by
  induction hmn with
  | refl => exact .refl _
  | step _ ih => exact ih.trans (informs_after (within_calls start schedule _) (schedule _)).1

/-- A world in which the debugger has just read what was stored. -/
def loaded (w : World) (breakpoints : List Breakpoint) (launches : List Launch) : World :=
  { w with debugger := { w.debugger with breakpoints := .ofList breakpoints, launches := .ofList launches } }

/-- Whatever was stored, and whatever is asked, said by adapters and done by others in any order from then on: an editor
that reads both listings at the beginning and follows the notes has, at any time, the breakpoints as they are then, but
for their anchors, and the launch configurations as they are then, but for what was not committed. In either catalog
no id is there twice, so that is all there is. -/
theorem board_of_told (w : World) (breakpoints : List Breakpoint) (launches : List Launch) (schedule : Nat → Turn)
    (n : Nat) :
    let start := loaded w breakpoints launches
    let now := (play start schedule n).world
    (∃ more, now.told = start.told ++ more ∧
      more.foldl Board.hear (.ofLists start.debugger.breakpoints.entries start.debugger.launches.entries) =
        .ofLists now.debugger.breakpoints.entries now.debugger.launches.entries) ∧
      now.debugger.breakpoints.entries.Pairwise (·.id < ·.id) ∧ now.debugger.launches.entries.Pairwise (·.id < ·.id) := by
  intro start now
  have hstart : start.Listed :=
    ⟨Breakpoint.Catalog.listed_ofList breakpoints, Launch.Catalog.listed_ofList launches⟩
  have hinforms := informs_play start schedule (Nat.zero_le n)
  have hnow := hinforms.listed hstart
  exact ⟨hinforms.told hstart, hnow.breakpoints, hnow.launches⟩

end Debug.Bustle

end Switchboard
