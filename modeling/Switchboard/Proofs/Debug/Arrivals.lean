import Switchboard.Proofs.Debug.Halting

/-!
# How threads come to be known

* `Names`: the adapter's word brings a thread to be known; `isSome_heard_iff`: exactly then it is known afterwards;
* `Deed.Brings`: so does what a call does; `isSome_apply_iff`;
* `Arrival`: the ways in which a thread comes to be known at some time of a run;
* `arrives_iff`: these are all, and each of them does it.

The third way is that of an action. It lets its thread go on once the adapter has agreed, and does not look whether the
thread is still there: one that has exited since, or never was there, is known from then on.
-/

namespace Switchboard.Debug.Target

/-! ## The adapter's word -/

/-- The adapter's word is of a thread that has not exited. -/
inductive Names (thread : Int) (name : String) (body : Json) : Prop where
  | thread (event : name = "thread") (b : ThreadBody) (shape : ThreadBody.shape body = .ok b)
      (alive : b.reason ≠ "exited") (id : b.threadId = thread)
  | stopped (event : name = "stopped") (b : StoppedBody) (shape : StoppedBody.shape body = .ok b)
      (id : b.threadId = some thread)
  | continued (event : name = "continued") (b : ContinuedBody) (shape : ContinuedBody.shape body = .ok b)
      (one : b.allThreadsContinued = false) (id : b.threadId = thread)

section Names

variable {thread : Int} {name : String} {body : Json}

lemma not_names (hthread : name ≠ "thread") (hstopped : name ≠ "stopped") (hcontinued : name ≠ "continued") :
    ¬ Names thread name body := by
  rintro (⟨event, -⟩ | ⟨event, -⟩ | ⟨event, -⟩)
  · exact hthread event
  · exact hstopped event
  · exact hcontinued event

lemma names_thread_iff : Names thread "thread" body ↔
    ∃ b, ThreadBody.shape body = .ok b ∧ b.reason ≠ "exited" ∧ b.threadId = thread := by
  refine ⟨?_, fun ⟨b, shape, alive, id⟩ => .thread rfl b shape alive id⟩
  rintro (⟨-, b, shape, alive, id⟩ | ⟨event, -⟩ | ⟨event, -⟩)
  · exact ⟨b, shape, alive, id⟩
  · exact absurd event (by decide)
  · exact absurd event (by decide)

lemma names_stopped_iff : Names thread "stopped" body ↔
    ∃ b, StoppedBody.shape body = .ok b ∧ b.threadId = some thread := by
  refine ⟨?_, fun ⟨b, shape, id⟩ => .stopped rfl b shape id⟩
  rintro (⟨event, -⟩ | ⟨-, b, shape, id⟩ | ⟨event, -⟩)
  · exact absurd event (by decide)
  · exact ⟨b, shape, id⟩
  · exact absurd event (by decide)

lemma names_continued_iff : Names thread "continued" body ↔
    ∃ b, ContinuedBody.shape body = .ok b ∧ b.allThreadsContinued = false ∧ b.threadId = thread := by
  refine ⟨?_, fun ⟨b, shape, one, id⟩ => .continued rfl b shape one id⟩
  rintro (⟨event, -⟩ | ⟨event, -⟩ | ⟨-, b, shape, one, id⟩)
  · exact absurd event (by decide)
  · exact absurd event (by decide)
  · exact ⟨b, shape, one, id⟩

end Names

/-- One thread of the adapter's list is taken in. -/
def takeIn (r : Target × List Note) (info : ThreadInfo) : Target × List Note :=
  match r.1.thread? info.id with
  | some x => (r.1.putThread { x with name := info.name }, r.2)
  | none =>
    (r.1.putThread { id := info.id, name := info.name },
      r.2 ++ [r.1.threadNote .create none none { id := info.id, name := info.name }])

lemma mergeThreads_eq {t : Target} (hlive : t.isTerminated = false) (threads : List ThreadInfo) :
    t.mergeThreads threads = threads.foldl takeIn (t, []) := by
  unfold mergeThreads
  rw [if_neg (by simp [hlive])]
  rfl

/-- It is known from then on, and all others are as they were. -/
lemma isSome_takeIn_iff (r : Target × List Note) (info : ThreadInfo) (thread : Int) :
    ((takeIn r info).1.thread? thread).isSome = true ↔ (r.1.thread? thread).isSome = true ∨ info.id = thread := by
  have hput : ∀ x : DebugThread, x.id = info.id →
      (((r.1.putThread x).thread? thread).isSome = true ↔ (r.1.thread? thread).isSome = true ∨ info.id = thread) := by
    intro x hx
    rw [thread?_putThread, hx]
    split
    · next hid => exact iff_of_true rfl (.inr hid)
    · next hid => exact ⟨.inl, fun h => h.resolve_right hid⟩
  unfold takeIn
  split
  · next x hx => exact hput _ (id_of_thread? (x := x) hx)
  · exact hput _ rfl

lemma isSome_foldl_takeIn_iff (threads : List ThreadInfo) (r : Target × List Note) (thread : Int) :
    ((threads.foldl takeIn r).1.thread? thread).isSome = true ↔
      (r.1.thread? thread).isSome = true ∨ ∃ info ∈ threads, info.id = thread := by
  induction threads generalizing r with
  | nil => simp
  | cons info rest ih =>
    rw [List.foldl_cons, ih, isSome_takeIn_iff]
    simp only [List.mem_cons, exists_eq_or_imp, or_assoc]

section Changes

variable {t : Target} {thread : Int} (hunknown : t.thread? thread = none)

include hunknown

lemma isSome_applyThread_iff (hlive : t.isTerminated = false) (b : ThreadBody) :
    ((t.applyThread b).1.thread? thread).isSome = true ↔ b.reason ≠ "exited" ∧ b.threadId = thread := by
  have hraised : t.raise.thread? thread = none := hunknown
  simp only [applyThread, hlive, Bool.false_eq_true, if_false]
  split
  · next hexited =>
    refine iff_of_false ?_ fun h => h.1 hexited
    split
    · rw [thread?_filter, hraised]
      simp
    · simp [hraised]
  · next halive =>
    simp only [halive, not_false_eq_true, true_and, ne_eq]
    split
    · split
      · next x hx =>
        -- it is known already, so it is another one
        refine iff_of_false (by simp [hraised]) ?_
        rintro rfl
        cases hx.symm.trans hraised
      · rw [thread?_putThread]
        by_cases hid : b.threadId = thread
        · simp [DebugThread.unnamed, hid]
        · simp [DebugThread.unnamed, hid, hraised]
    · rw [thread?_changeThread _ _ _ _ _ fun _ => rfl, thread?_meet]
      by_cases hid : b.threadId = thread
      · simp [hid]
      · simp [hid, hraised]

lemma isSome_applyStop_iff (hlisted : t.Listed) (hlive : t.isTerminated = false) (b : StoppedBody) :
    ((t.applyStop b).1.thread? thread).isSome = true ↔ b.threadId = some thread := by
  have hhalts := halts_applyStop hlisted hlive b
  have hstops := hhalts.stops thread
  rw [hunknown] at hstops
  simp only [Option.isSome_none, Bool.false_eq_true, and_false, or_false] at hstops
  rw [hhalts.thread, ← hstops]
  split
  · next hmem => exact iff_of_true rfl hmem
  · next hmem => exact iff_of_false (by simp [hunknown]) hmem

lemma isSome_applyResume_iff (h : t.Registry) (hlive : t.isTerminated = false) (named : Int) (all : Bool) (detail : String) :
    ((t.applyResume named all detail).1.thread? thread).isSome = true ↔ all = false ∧ named = thread := by
  have hproceeds := proceeds_applyResume h hlive named all detail
  have hgoes := hproceeds.goes thread
  rw [hproceeds.thread]
  cases all with
  | true =>
    simp only [hunknown, Option.isSome_none, if_true] at hgoes
    rw [if_neg (by simp [hgoes]), hunknown]
    simp
  | false =>
    simp only [Bool.false_eq_true, if_false] at hgoes ⊢
    split
    · next hmem => exact iff_of_true rfl ⟨trivial, (hgoes.mp hmem).symm⟩
    · next hmem => exact iff_of_false (by simp [hunknown]) fun hnamed => hmem (hgoes.mpr hnamed.2.symm)

/-- Of the adapter's list every thread is known afterwards. -/
lemma isSome_mergeThreads_iff (hlive : t.isTerminated = false) (threads : List ThreadInfo) :
    ((t.mergeThreads threads).1.thread? thread).isSome = true ↔ ∃ info ∈ threads, info.id = thread := by
  rw [mergeThreads_eq hlive, isSome_foldl_takeIn_iff, hunknown]
  simp

/-- The end of a target brings no thread to be known. -/
lemma isSome_terminate : (t.terminate.1.thread? thread).isSome = false := by
  unfold terminate
  split
  · simp [hunknown]
  · rfl

/-- What the event loop makes of a body brings a thread to be known if the body is right and brings it to be known. -/
lemma isSome_withBody_iff {α : Type} {shape : Json.Shape α} {body : Json} {f : α → Target × List Note} {P : α → Prop}
    (hf : ∀ a, ((f a).1.thread? thread).isSome = true ↔ P a) :
    ((t.withBody shape body f).1.thread? thread).isSome = true ↔ ∃ a, shape body = .ok a ∧ P a := by
  unfold withBody
  split
  · next a ha => simp [ha, hf]
  · next e he => simp [he, hunknown]

/-- The adapter's word brings a thread to be known exactly if it is of this thread, and not that it exited. -/
theorem isSome_heard_iff (h : t.Registry) (hlive : t.isTerminated = false) (name : String) (body : Json) :
    ((heard name body t).1.thread? thread).isSome = true ↔ Names thread name body := by
  have hnone : (t.thread? thread).isSome = true ↔ False := by simp [hunknown]
  unfold heard process_
  split
  · -- process
    rw [isSome_withBody_iff hunknown (P := fun _ => False) fun _ => hnone]
    exact iff_of_false (by simp) (not_names (by decide) (by decide) (by decide))
  · exact (isSome_withBody_iff hunknown fun b => isSome_applyThread_iff hunknown hlive b).trans names_thread_iff.symm
  · rw [names_stopped_iff]
    split
    · next b hb => simp [hb, isSome_applyStop_iff hunknown h.listed hlive]
    · next e he => simp [he, hunknown]
  · refine (isSome_withBody_iff hunknown fun b => ?_).trans names_continued_iff.symm
    exact isSome_applyResume_iff hunknown h hlive b.threadId _ _
  · -- exited
    rw [isSome_withBody_iff hunknown (P := fun _ => False) fun _ => hnone]
    exact iff_of_false (by simp) (not_names (by decide) (by decide) (by decide))
  · -- terminated
    refine iff_of_false ?_ (not_names (by decide) (by decide) (by decide))
    simp [terminate, hlive, thread?]
  · -- output
    rw [isSome_withBody_iff hunknown (P := fun _ => False) fun _ => hnone]
    exact iff_of_false (by simp) (not_names (by decide) (by decide) (by decide))
  · next _ hthread hstopped hcontinued _ _ _ =>
    exact hnone.trans (iff_of_false not_false (not_names hthread hstopped hcontinued))

end Changes

namespace Course

/-! ## What calls do -/

/-- What a call does brings this thread to be known. -/
def Deed.Brings (thread : Int) : Deed → Prop
  | .lists threads => ∃ info ∈ threads, info.id = thread
  | .resumes named all _ => all = false ∧ named = thread
  | _ => False

/-- A deed brings a thread to be known exactly if it lists the thread, or lets it alone go on. -/
lemma Deed.isSome_apply_iff {t : Target} {thread : Int} (hunknown : t.thread? thread = none) (h : t.Registry)
    (hlive : t.isTerminated = false) (deed : Deed) :
    ((deed.apply t).1.thread? thread).isSome = true ↔ deed.Brings thread := by
  have hnone : (t.thread? thread).isSome = true ↔ False := by simp [hunknown]
  cases deed with
  | begins | fails => exact hnone
  | launches =>
    show ((launched t).1.thread? thread).isSome = true ↔ False
    unfold launched
    split <;> exact hnone
  | lists threads => exact isSome_mergeThreads_iff hunknown hlive threads
  | resumes named all detail => exact isSome_applyResume_iff hunknown h hlive named all detail
  | keepsFrames named stop frames =>
    show ((t.keepFrames named stop frames).thread? thread).isSome = true ↔ False
    rw [isSome_keepFrames]
    exact hnone
  | keepsContents named stop index scopes contents =>
    show ((t.keepContents named stop index scopes contents).thread? thread).isSome = true ↔ False
    rw [isSome_keepContents]
    exact hnone

/-- A deed brings no thread to be known if the target has ended. -/
lemma Deed.isSome_of_dead {v : Viewpoint Wait World} {id : Nat} {call : Call} {m : Nat} (deed : Deed)
    (h : deed.Justified v id call m) (hdead : ((v.state m).target id).isTerminated = true) (thread : Int) :
    ((deed.apply ((v.state m).target id)).1.thread? thread).isSome = (((v.state m).target id).thread? thread).isSome := by
  by_cases hdeed : deed = .fails
  · subst hdeed
    rfl
  · exact ((deed.orderly h hdeed).stays hdead).2 thread

/-! ## Arrivals -/

section Runs

variable {id : Nat} {start : World} {schedule : Nat → Turn}

/-- A thread comes to be known in this turn. -/
inductive Arrival (id : Nat) (start : World) (schedule : Nat → Turn) (n : Nat) (thread : Int) : Prop where
  /-- The adapter says something of it. -/
  | named (name : String) (body : Json) (turn : schedule n = .event name body) (names : Names thread name body)
  /-- The adapter has listed it, and the list is taken in. -/
  | listed (i : Nat) (work : Task Wait World (Except Fault Bool)) (threads : List ThreadInfo) (turn : schedule n = .step i)
      (underway : (course id start schedule n).calls[i]? = some (.refresh, work))
      (listing : Listing (view id start schedule i) id threads n) (mem : ∃ info ∈ threads, info.id = thread)
      (world : (course id start schedule (n + 1)).world =
        (course id start schedule n).world.changeTarget id (Deed.lists threads).apply)
  /-- The adapter has agreed to let it go on, as an action on it had asked, and it alone. -/
  | released (i : Nat) (action : Action) (named : Option Int) (frame : Option Nat)
      (work : Task Wait World (Except Fault Bool)) (detail : String) (turn : schedule n = .step i)
      (underway : (course id start schedule n).calls[i]? = some (.perform action named frame, work))
      (chosen : Chosen (view id start schedule i) id named thread n)
      (granted : Granted (view id start schedule i) id action thread false n)
      (world : (course id start schedule (n + 1)).world =
        (course id start schedule n).world.changeTarget id (Deed.resumes thread false detail).apply)

/-- A thread that is not known is known one turn later exactly if the target has not ended and the thread arrives. -/
theorem arrives_iff (hpresent : (start.debugger.target? id).isSome = true) (h : (start.target id).Registry) {n : Nat}
    {thread : Int} (hunknown : ((course id start schedule n).target id).thread? thread = none) :
    (((course id start schedule (n + 1)).target id).thread? thread).isSome = true ↔
      ((course id start schedule n).target id).isTerminated = false ∧ Arrival id start schedule n thread := by
  have hregistry : ((course id start schedule n).target id).Registry := registry hpresent h n
  constructor
  · intro hknown
    cases happens id start schedule n with
    | aside more targets told silent =>
      rw [target_of_aside targets, hunknown] at hknown
      cases hknown
    | deed i call work deed turn underway justified world =>
      rw [target_of_change hpresent deed.id_apply world] at hknown
      have hlive : ((course id start schedule n).target id).isTerminated = false := by
        by_contra hdead
        have hsame := deed.isSome_of_dead justified (eq_true_of_ne_false hdead) thread
        cases hknown.symm.trans (hsame.trans (congrArg Option.isSome hunknown))
      refine ⟨hlive, ?_⟩
      have hbrings := (deed.isSome_apply_iff hunknown hregistry hlive).mp hknown
      cases deed with
      | lists threads =>
        obtain ⟨rfl, hlisting⟩ := justified
        exact .listed i work threads turn underway hlisting hbrings world
      | resumes named all detail =>
        obtain ⟨rfl, rfl⟩ := hbrings
        obtain ⟨action, chosen, frame, rfl, hchosen, hgranted⟩ := justified
        exact .released i action chosen frame work detail turn underway hchosen hgranted world
      | begins | launches | fails | keepsFrames | keepsContents => exact hbrings.elim
    | event name body turn world =>
      rw [target_of_change hpresent (fun t => (moves_process t name body).1) world] at hknown
      have hlive : ((course id start schedule n).target id).isTerminated = false := by
        by_contra hdead
        rw [((orderly_heard _ name body).stays (eq_true_of_ne_false hdead)).2, hunknown] at hknown
        cases hknown
      exact ⟨hlive, .named name body turn ((isSome_heard_iff hunknown hregistry hlive name body).mp hknown)⟩
    | ended turn world =>
      rw [target_of_change hpresent (fun t => (moves_terminate t).1) world] at hknown
      have hnone := isSome_terminate hunknown
      rw [hknown] at hnone
      cases hnone
  · rintro ⟨hlive, harrival⟩
    cases harrival with
    | named name body turn names =>
      rw [target_of_change hpresent (fun t => (moves_process t name body).1) (world_of_event turn)]
      exact (isSome_heard_iff hunknown hregistry hlive name body).mpr names
    | listed i work threads turn underway listing mem world =>
      rw [target_of_change hpresent (Deed.id_apply _) world]
      exact (Deed.isSome_apply_iff hunknown hregistry hlive (.lists threads)).mpr mem
    | released i action named frame work detail turn underway chosen granted world =>
      rw [target_of_change hpresent (Deed.id_apply _) world]
      exact (Deed.isSome_apply_iff hunknown hregistry hlive (.resumes thread false detail)).mpr ⟨rfl, rfl⟩

end Runs

/-- A thread stops and is asked to step; it exits, and then the adapter answers. -/
def exitsWhileStepping : List Turn :=
  [.event "stopped" (stopOf "breakpoint"), .begins (.perform .stepOver (some 1) none)]
    ++ List.replicate 7 (.step 0)
    ++ [.event "thread" (.obj [("reason", "exited"), ("threadId", .int 1)]),
      .outside { runningTarget with
        net := { channels := [{ dialect := .sequenced, phase := .ready, nextId := 2
                                pending := { next := 1, settled := [(0, .answered (.ok .null))] } }] } }]

/-- Those turns, one after the other, and then those of the call. -/
def exitsWhileSteppingSchedule (n : Nat) : Turn := exitsWhileStepping.getD n (.step 0)

/-- The thread is known again when the call is through: no word of the adapter has brought it back, but the call. -/
theorem returns_exitsWhileStepping :
    ((course 1 runningTarget exitsWhileSteppingSchedule 10).target 1).thread? 1 = none ∧
    Concludes 1 runningTarget exitsWhileSteppingSchedule 0 (.perform .stepOver (some 1) none) 13 ∧
    Arrival 1 runningTarget exitsWhileSteppingSchedule 13 1 := by
  have hpresent : (runningTarget.debugger.target? 1).isSome = true := by decide
  have hregistry : (runningTarget.target 1).Registry := ⟨List.Pairwise.nil, List.forall_mem_nil _⟩
  have hgone : ((course 1 runningTarget exitsWhileSteppingSchedule 13).target 1).thread? 1 = none := by decide +kernel
  have hknown : (((course 1 runningTarget exitsWhileSteppingSchedule 14).target 1).thread? 1).isSome = true := by
    decide +kernel
  exact ⟨by decide +kernel, ⟨rfl, ⟨_, rfl, rfl⟩, rfl⟩, ((arrives_iff hpresent hregistry hgone).mp hknown).2⟩

end Course

end Switchboard.Debug.Target
