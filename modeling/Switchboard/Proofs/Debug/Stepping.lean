import Switchboard.Proofs.Debug.Endings

/-!
# Stops and steps that cross

* `State.posture`: what a thread does and why it stopped;
* `stopped_applyStop`, `not_suspended_applyResume`: what a stop and a resumption make of their thread;
* `Concludes`: the last access of a call;
* `stop_kept_iff`: a stop is kept exactly if the call that let its thread go on was through before it.

A call lets its thread go on in its own last access, however long ago the adapter has answered; a stop that the event
loop has taken in by then is undone.
-/

namespace Switchboard.Debug

/-- Whoever goes on is not suspended. -/
lemma DebugThread.not_suspended_resume (x : DebugThread) : x.resume.isSuspended = false := by
  unfold DebugThread.resume
  split
  · next h => simp [isSuspended, h]
  · rfl

namespace Target

/-! ## A stop and a resumption -/

/-- What a thread does, and why it stopped last. -/
def posture (t : Target) (thread : Int) : Option (DebugThread.State × Option String) :=
  (t.thread? thread).map fun x => (x.state, x.reason)

/-- Something is done for several threads, each time to one of them alone. What it makes of a thread that satisfies `R`
holds of it at the end, if it is one of those or if that held before. -/
lemma thread?_forThreads {f : Target → Int → Target × List Note} {thread : Int} {P R : Option DebugThread → Prop}
    (hother : ∀ t i, i ≠ thread → (f t i).1.thread? thread = t.thread? thread)
    (hown : ∀ t, R (t.thread? thread) → P ((f t thread).1.thread? thread)) (hP : ∀ x, P x → R x) {t : Target}
    (ids : List Int) (hR : R (t.thread? thread)) (h : thread ∈ ids ∨ P (t.thread? thread)) :
    P ((forThreads f t ids).1.thread? thread) := by
  induction ids generalizing t with
  | nil => exact h.resolve_left List.not_mem_nil
  | cons i rest ih =>
    show P ((forThreads f (f t i).1 rest).1.thread? thread)
    by_cases hi : i = thread
    · -- from here on the thread is done, and its being met again does no harm
      subst hi
      exact ih (hP _ (hown t hR)) (.inr (hown t hR))
    · have hsame := hother t i hi
      refine ih (hsame ▸ hR)
        (h.imp (fun hmem => (List.mem_cons.mp hmem).resolve_left (Ne.symm hi)) fun hdone => hsame ▸ hdone)

/-- Some thread of a target is among the ids of all of them. -/
lemma mem_ids {t : Target} {thread : Int} (h : (t.thread? thread).isSome = true) : thread ∈ t.threads.map (·.id) := by
  obtain ⟨x, hx⟩ := Option.isSome_iff_exists.mp h
  exact List.mem_map.mpr ⟨x, List.mem_of_find?_eq_some hx, id_of_thread? hx⟩

/-- After a stop the thread it names is suspended, for the reason that was given. -/
theorem stopped_applyStop {t : Target} {body : StoppedBody} {thread : Int} (hlive : t.isTerminated = false)
    (hthread : body.threadId = some thread) :
    (t.applyStop body).1.posture thread = some (.suspended, some body.reason) := by
  have hthere : ((t.raise.meet thread).1.thread? thread).isSome = true := by
    rw [thread?_meet, if_pos rfl]
    rfl
  simp only [applyStop, hlive, Bool.false_eq_true, if_false, hthread]
  refine thread?_forThreads (P := fun x => x.map (fun x => (x.state, x.reason)) = some (.suspended, some body.reason))
    (R := fun x => x.isSome = true) (fun u i hi => ?_) (fun u hu => ?_) (fun x hx => ?_) _ hthere (.inl ?_)
  · exact (thread?_changeThread u i thread _ _ fun x => x.id_suspend _ _).trans (if_neg hi)
  · obtain ⟨x, hx⟩ := Option.isSome_iff_exists.mp hu
    rw [thread?_changeThread u thread thread _ _ fun x => x.id_suspend _ _, if_pos rfl, hx]
    rfl
  · rw [← Option.isSome_map, hx]
    rfl
  · split
    · exact mem_ids hthere
    · exact List.mem_singleton.mpr rfl

/-- After a resumption its thread is not suspended. -/
theorem not_suspended_applyResume {t : Target} (hlive : t.isTerminated = false) (thread : Int) (all : Bool)
    (detail : String) {x : DebugThread} (hx : (t.applyResume thread all detail).1.thread? thread = some x) :
    x.isSuspended = false := by
  simp only [applyResume, hlive, Bool.false_eq_true, if_false] at hx
  refine thread?_forThreads (P := fun x => ∀ y, x = some y → y.isSuspended = false) (R := fun _ => True)
    (fun u i hi => ?_) (fun u _ => ?_) (fun _ _ => trivial) _ trivial ?_ x hx
  · have hmet : (u.meet i).1.thread? thread = u.thread? thread := by rw [thread?_meet, if_neg hi]
    split
    · split
      · exact hmet
      · exact (thread?_changeThread _ i thread _ _ DebugThread.id_resume).trans ((if_neg hi).trans hmet)
    · exact hmet
  · split
    · next y hy =>
      split
      · next hrunning =>
        rintro z hz
        obtain rfl := Option.some.inj (hy.symm.trans hz)
        simp [DebugThread.isSuspended, hrunning]
      · rintro z hz
        rw [thread?_changeThread _ _ _ _ _ DebugThread.id_resume, if_pos rfl, hy] at hz
        obtain rfl := Option.some.inj hz
        exact y.not_suspended_resume
    · next hnone =>
      intro z hz
      cases hnone.symm.trans hz
  · split
    · cases hthere : t.raise.thread? thread with
      | none => exact .inr fun y hy => by cases hy
      | some y => exact .inl (mem_ids (by rw [hthere]; rfl))
    · exact .inl (List.mem_singleton.mpr rfl)

namespace Course

variable {id : Nat} {start : World} {schedule : Nat → Turn}

/-! ## Calls that let a thread go on -/

/-- In this turn a call takes its last step, and says that it did what it was asked for. -/
structure Concludes (id : Nat) (start : World) (schedule : Nat → Turn) (i : Nat) (call : Call) (r : Nat) : Prop where
  turn : schedule r = .step i
  underway : ∃ work, (course id start schedule r).calls[i]? = some (call, work) ∧ work.result? = none
  done : (course id start schedule (r + 1)).calls[i]? = some (call, .done (.ok true))

/-- What is known of a call when it has taken its last step. -/
lemma Concludes.done_at {i r : Nat} {call : Call} (h : Concludes id start schedule i call r) :
    call.Done (view id start schedule i) id (r + 1) true := by
  obtain ⟨work, hi, hopen⟩ := h.underway
  have hdone := h.done
  have hafter : course id start schedule (r + 1) = (course id start schedule r).after id (.step i) := by
    rw [← h.turn]
    rfl
  rw [hafter] at hdone
  obtain ⟨m, hm, hkeeps⟩ := keeps_of_underway r hi
  cases htick : work.tick? World.holds (course id start schedule r).world with
  | none =>
    simp only [State.after, hi, htick, Option.some.injEq, Prod.mk.injEq, true_and] at hdone
    rw [hdone] at hopen
    cases hopen
  | some next =>
    obtain ⟨work', w⟩ := next
    simp only [State.after, hi, htick] at hdone
    rw [List.getElem?_set_self (List.getElem?_eq_some_iff.mp hi).1] at hdone
    obtain ⟨-, rfl⟩ := Prod.mk.inj (Option.some.inj hdone)
    exact (keeps_step hkeeps hm h.turn hi htick).1 true rfl

/-- A target that has not ended had not ended before. -/
lemma live_before (hpresent : (start.debugger.target? id).isSome = true) {m n : Nat} (hmn : m ≤ n)
    (hlive : ((course id start schedule n).target id).isTerminated = false) :
    ((course id start schedule m).target id).isTerminated = false := by
  by_contra h
  exact nomatch hlive.symm.trans (stays hpresent hmn (eq_true_of_ne_false h)).1

/-- What a thread does stays the same as long as it does not change from one time to the next. -/
lemma posture_of_quiet {thread : Int} {m n : Nat} (hmn : m ≤ n)
    (hquiet : ∀ l, m ≤ l → l < n → ((course id start schedule (l + 1)).target id).posture thread
      = ((course id start schedule l).target id).posture thread) :
    ((course id start schedule n).target id).posture thread = ((course id start schedule m).target id).posture thread := by
  induction n, hmn using Nat.le_induction with
  | base => rfl
  | succ n hmn ih =>
    rw [hquiet n hmn (Nat.lt_succ_self n)]
    exact ih fun l hml hln => hquiet l hml (Nat.lt_succ_of_lt hln)

/-- An action that let its thread go on, and a stop of that thread, whichever came first; after both nothing else
happens to the thread. It is suspended, for the reason of the stop, exactly if the call had taken its last step
before the event loop took in the stop. When the adapter answered the call, and when it sent the stop, is of no
account. -/
theorem stop_kept_iff {start : World} (hpresent : (start.debugger.target? id).isSome = true) (schedule : Nat → Turn)
    {i r : Nat} {action : Action} {named : Option Int} {frame : Option Nat} (hresumes : action.resumes = true)
    (hcall : Concludes id start schedule i (.perform action named frame) r) :
    ∃ thread, Chosen (view id start schedule i) id named thread (r + 1) ∧
      ∀ (e n : Nat) (body : Json) (stop : StoppedBody), schedule e = .event "stopped" body →
        StoppedBody.shape body = .ok stop → stop.threadId = some thread → e < n → r < n →
        ((course id start schedule n).target id).isTerminated = false →
        (∀ m, e < m → r < m → m < n → ((course id start schedule (m + 1)).target id).posture thread
          = ((course id start schedule m).target id).posture thread) →
        (((course id start schedule n).target id).posture thread = some (.suspended, some stop.reason) ↔ r < e) := by
  obtain ⟨thread, hchosen, all, detail, r', hr, -, hresumed⟩ := hcall.done_at rfl hresumes
  obtain rfl : r' = r := (Nat.succ.inj hr).symm
  refine ⟨thread, hchosen, fun e n body stop hevent hshape hthread hen hrn hlive hquiet => ?_⟩
  have hstop : ((course id start schedule (e + 1)).target id).posture thread = some (.suspended, some stop.reason) := by
    have hworld : (course id start schedule (e + 1)).world
        = (course id start schedule e).world.changeTarget id (heard "stopped" body) := by
      show ((course id start schedule e).after id (schedule e)).world = _
      rw [hevent]
      rfl
    rw [target_of_change hpresent (fun t => (moves_process t "stopped" body).1) hworld]
    simp only [heard, process_, hshape]
    exact stopped_applyStop (live_before hpresent (Nat.le_of_lt hen) hlive) hthread
  have hne : e ≠ r' := by
    rintro rfl
    cases hevent.symm.trans hcall.turn
  constructor
  · intro hkept
    by_contra hlate
    -- the resumption came last, and nothing has happened to the thread since
    have hafter : ((course id start schedule n).target id).posture thread
        = ((course id start schedule (r' + 1)).target id).posture thread :=
      posture_of_quiet hrn fun l hl hln => hquiet l (by omega) hl hln
    rw [hafter] at hkept
    obtain ⟨x, hx, hposture⟩ := Option.map_eq_some_iff.mp hkept
    rw [target_of_change hpresent (fun t => (steadies_applyResume t thread all detail).1) hresumed] at hx
    have hgoes := not_suspended_applyResume (live_before hpresent (Nat.le_of_lt hrn) hlive) thread all detail hx
    simp only [DebugThread.isSuspended, (Prod.mk.inj hposture).1, decide_true] at hgoes
    cases hgoes
  · -- the stop came last
    intro hearly
    rw [posture_of_quiet hen fun l hl hln => hquiet l hl (by omega) hln]
    exact hstop

/-! ### A step that is through at once -/

/-- A target that runs. -/
def runningTarget : World :=
  { Freshness.oneTarget with
    debugger := { Freshness.oneTarget.debugger with
      targets := [{ id := 1, launch := default, session := 0, state := .running }] } }

/-- What the adapter says when a thread stops. -/
def stopOf (reason : String) : Json := .obj [("reason", .str reason), ("threadId", .int 1)]

/-- A thread stops and is asked to step. The adapter answers, and then says that the thread has stopped again; the event
loop has its turn before the call has. -/
def stepsAtOnce : List Turn :=
  [.event "stopped" (stopOf "breakpoint"), .begins (.perform .stepOver (some 1) none)]
    ++ List.replicate 7 (.step 0)
    ++ [.outside { runningTarget with
        net := { channels := [{ dialect := .sequenced, phase := .ready, nextId := 2
                                pending := { next := 1, settled := [(0, .answered (.ok .null))] } }] } },
      .event "stopped" (stopOf "step")]
    ++ List.replicate 3 (.step 0)

/-- Those turns, one after the other. -/
def stepsAtOnceSchedule (n : Nat) : Turn := stepsAtOnce.getD n (.step 0)

/-- The stop that came after the answer is lost. -/
theorem stop_lost_stepsAtOnce :
    Concludes 1 runningTarget stepsAtOnceSchedule 0 (.perform .stepOver (some 1) none) 13 ∧
      (((course 1 runningTarget stepsAtOnceSchedule 10).world.net.channel 0).pending.settlement? 0).isSome = true ∧
      ((course 1 runningTarget stepsAtOnceSchedule 11).target 1).posture 1 = some (.suspended, some "step") ∧
      ((course 1 runningTarget stepsAtOnceSchedule 14).target 1).posture 1 ≠ some (.suspended, some "step") := by
  have hcall : Concludes 1 runningTarget stepsAtOnceSchedule 0 (.perform .stepOver (some 1) none) 13 :=
    ⟨rfl, ⟨_, rfl, rfl⟩, rfl⟩
  refine ⟨hcall, by decide +kernel, by decide +kernel, fun hkept => ?_⟩
  obtain ⟨thread, hchosen, hiff⟩ := stop_kept_iff (by decide) stepsAtOnceSchedule rfl hcall
  obtain rfl : thread = 1 := by
    rcases hchosen with h | ⟨h, -⟩
    · exact (Option.some.inj h).symm
    · cases h
  have hearly := (hiff 10 14 (stopOf "step") { reason := "step", threadId := some 1 } rfl rfl rfl
    (by omega) (by omega) (by decide +kernel) (fun m _ _ _ => by omega)).mp hkept
  omega

end Course

end Target

end Switchboard.Debug
